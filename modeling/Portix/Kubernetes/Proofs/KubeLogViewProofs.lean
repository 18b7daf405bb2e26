import Portix.Kubernetes.KubeLogView
import Portix.Lib.Machine

/-!
# Lines of what is selected

A change of the selection ends the ticks that were begun before it, but not the loads; and a namespace is
picked while the lines of another one are shown.
-/

namespace Portix.Kubernetes

open Lib

def LogWaiting.isTick : LogWaiting → Bool
  | .tick _ => true
  | .namespaces _ _ _ | .pods _ _ | .logs | .podGone _ => false

namespace KubeLogView

/-- The logs are read from there. -/
structure Selects (s : KubeLogView) (origin : LogOrigin) : Prop where
  server : s.profileId = some origin.server
  context : s.contexts origin.server = origin.context
  namespaceName : s.namespaceName = some origin.namespaceName
  pod : s.pod = origin.pod
  workload : s.workload = origin.workload

/-- Every line was read from what is selected. -/
def Shown (s : KubeLogView) : Prop := ∀ line ∈ s.lines, s.Selects line.origin

/-- A namespace is picked while no lines are shown, or while all of its pods are read already. -/
def NamespaceKept (s : KubeLogView) (namespaceName : String) : Prop :=
  s.lines = [] ∨ (s.namespaceName = some namespaceName ∧ s.pod = none ∧ s.workload = none)

/-- A call may go on with an answer: the namespace it picks is kept, the logs it was sent for are still
those of what is selected. -/
def MayGoOn (tryParse : String → Option Int) (s : KubeLogView) (command : LogCommand) (context output : String) :
    Prop :=
  match command.waiting with
  | .namespaces id namespaceName _ => s.profileId = some id →
    ∀ picked, pickNamespace (parseNamespaces output) namespaceName = some picked → s.NamespaceKept picked
  | .logs => parseLogLines tryParse (originOf command context) output = [] ∨ s.Selects (originOf command context)
  | .pods _ _ | .tick _ | .podGone _ => True

def Careful (tryParse : String → Option Int) (s : KubeLogView) : LogEvent → Prop
  | .selectNamespace namespaceName => s.NamespaceKept namespaceName
  | .answer i (.ok output) _ => ∀ command context, s.commands[i]? = some command →
    command.context = some context → s.MayGoOn tryParse command context output
  | .answer _ (.error _) _ | .firstFrame | .pickServer _ | .reload _ | .retry | .setTarget _ _ | .setRange _
  | .loadLogs | .tick | .run _ => True

instance (s : KubeLogView) (origin : LogOrigin) : Decidable (s.Selects origin) :=
  decidable_of_iff (s.profileId = some origin.server ∧ s.contexts origin.server = origin.context ∧
      s.namespaceName = some origin.namespaceName ∧ s.pod = origin.pod ∧ s.workload = origin.workload)
    ⟨fun ⟨h₁, h₂, h₃, h₄, h₅⟩ => ⟨h₁, h₂, h₃, h₄, h₅⟩, fun ⟨h₁, h₂, h₃, h₄, h₅⟩ => ⟨h₁, h₂, h₃, h₄, h₅⟩⟩

instance (s : KubeLogView) : Decidable s.Shown :=
  inferInstanceAs (Decidable (∀ line ∈ s.lines, s.Selects line.origin))

instance (s : KubeLogView) (namespaceName : String) : Decidable (s.NamespaceKept namespaceName) :=
  inferInstanceAs (Decidable (_ ∨ _))

instance (tryParse : String → Option Int) (s : KubeLogView) (command : LogCommand) (context output : String) :
    Decidable (s.MayGoOn tryParse command context output) :=
  match hwaiting : command.waiting with
  | .namespaces id namespaceName _ =>
    decidable_of_iff (s.profileId = some id →
      ∀ picked ∈ pickNamespace (parseNamespaces output) namespaceName, s.NamespaceKept picked)
      (by unfold MayGoOn; rw [hwaiting]; rfl)
  | .logs =>
    decidable_of_iff
      (parseLogLines tryParse (originOf command context) output = [] ∨ s.Selects (originOf command context))
      (by unfold MayGoOn; rw [hwaiting])
  | .pods _ _ | .tick _ | .podGone _ => isTrue (by unfold MayGoOn; rw [hwaiting]; trivial)

instance (tryParse : String → Option Int) (s : KubeLogView) (e : LogEvent) : Decidable (Careful tryParse s e) :=
  match e with
  | .selectNamespace namespaceName => inferInstanceAs (Decidable (s.NamespaceKept namespaceName))
  | .answer i (.ok output) _ =>
    decidable_of_iff (∀ command ∈ s.commands[i]?, ∀ context ∈ command.context,
        s.MayGoOn tryParse command context output)
      ⟨fun h command context hat hcontext => h command hat context hcontext,
        fun h command hat context hcontext => h command context hat hcontext⟩
  | .answer _ (.error _) _ | .firstFrame | .pickServer _ | .reload _ | .retry | .setTarget _ _ | .setRange _
  | .loadLogs | .tick | .run _ => isTrue trivial

def initial (contexts : String → String) (profiles : List String) (profileId namespaceName pod : Option String)
    (kubeGeneration : Nat) (range : LogRange) : KubeLogView :=
  { contexts := contexts, profiles := profiles, profileId := profileId, kubeGeneration := kubeGeneration,
    initialNamespace := namespaceName, initialPod := pod, range := range }

/-- The selection stays. -/
structure SameSelection (s s' : KubeLogView) : Prop where
  contexts : s'.contexts = s.contexts
  profileId : s'.profileId = s.profileId
  namespaceName : s'.namespaceName = s.namespaceName
  pod : s'.pod = s.pod
  workload : s'.workload = s.workload

/-- The selection and the lines stay, and no tick begins. -/
structure Quiet (s s' : KubeLogView) : Prop extends SameSelection s s' where
  kubeGeneration : s'.kubeGeneration = s.kubeGeneration
  clusterGeneration : s'.clusterGeneration = s.clusterGeneration
  lines : s'.lines = s.lines
  generation : s'.generation = s.generation
  ticks : ∀ command ∈ s'.commands, ∀ g, command.waiting = .tick g → command ∈ s.commands

section Quiet

variable {s s' s'' : KubeLogView}

theorem SameSelection.selects_iff (h : SameSelection s s') (origin : LogOrigin) :
    s'.Selects origin ↔ s.Selects origin := by
  obtain ⟨hcontexts, hid, hname, hpod, hworkload⟩ := h
  constructor
  · rintro ⟨h₁, h₂, h₃, h₄, h₅⟩
    exact ⟨hid.symm.trans h₁, (congrFun hcontexts _).symm.trans h₂, hname.symm.trans h₃, hpod.symm.trans h₄,
      hworkload.symm.trans h₅⟩
  · rintro ⟨h₁, h₂, h₃, h₄, h₅⟩
    exact ⟨hid.trans h₁, (congrFun hcontexts _).trans h₂, hname.trans h₃, hpod.trans h₄, hworkload.trans h₅⟩

theorem Quiet.refl : Quiet s s := ⟨⟨rfl, rfl, rfl, rfl, rfl⟩, rfl, rfl, rfl, rfl, fun _ h _ _ => h⟩

theorem Quiet.trans (h : Quiet s s') (h' : Quiet s' s'') : Quiet s s'' where
  contexts := h'.contexts.trans h.contexts
  profileId := h'.profileId.trans h.profileId
  kubeGeneration := h'.kubeGeneration.trans h.kubeGeneration
  clusterGeneration := h'.clusterGeneration.trans h.clusterGeneration
  namespaceName := h'.namespaceName.trans h.namespaceName
  pod := h'.pod.trans h.pod
  workload := h'.workload.trans h.workload
  lines := h'.lines.trans h.lines
  generation := h'.generation.trans h.generation
  ticks := fun command hmem g hg => h.ticks command (h'.ticks command hmem g hg) g hg

theorem quiet_send {command : LogCommand} (hwaiting : command.waiting.isTick = false) : Quiet s (s.send command) := by
  refine ⟨⟨rfl, rfl, rfl, rfl, rfl⟩, rfl, rfl, rfl, rfl, ?_⟩
  intro c hc g hg
  rcases List.mem_append.mp hc with hc | hc
  · exact hc
  · rw [List.mem_singleton.mp hc] at hg
    rw [hg] at hwaiting
    cases hwaiting

theorem quiet_run {text namespaceName : String} {waiting : LogWaiting} (hwaiting : waiting.isTick = false) :
    Quiet s (s.run text namespaceName waiting) := by
  unfold run
  split
  · exact Quiet.refl
  · have hflags : Quiet s { s with loading := true, error := none } :=
      ⟨⟨rfl, rfl, rfl, rfl, rfl⟩, rfl, rfl, rfl, rfl, fun _ h _ _ => h⟩
    exact hflags.trans (quiet_send hwaiting)

theorem quiet_ran (result : Except String String) : Quiet s (s.ran result) :=
  ⟨⟨rfl, rfl, rfl, rfl, rfl⟩, rfl, rfl, rfl, rfl, fun _ h _ _ => h⟩

theorem quiet_handlePodGone (gone : String) : Quiet s (s.handlePodGone gone) := by
  unfold handlePodGone
  split
  · exact quiet_send rfl
  · exact Quiet.refl

theorem quiet_gotPodGone (gone : String) (result : Except String String) : Quiet s (s.gotPodGone gone result) := by
  unfold gotPodGone
  split
  · exact Quiet.refl
  · exact ⟨⟨rfl, rfl, rfl, rfl, rfl⟩, rfl, rfl, rfl, rfl, fun _ h _ _ => h⟩

theorem Quiet.shown_iff (h : Quiet s s') : s'.Shown ↔ s.Shown := by
  unfold Shown
  rw [h.lines]
  simp only [h.toSameSelection.selects_iff]

end Quiet

/-- The command of a tick that has not ended asks for what is selected. -/
structure Fresh (s : KubeLogView) (command : LogCommand) : Prop where
  server : s.profileId = some command.server
  namespaceName : s.namespaceName = some command.namespaceName
  pod : s.pod = command.pod
  workload : s.workload = command.workload
  context : ∀ context, command.context = some context → s.contexts command.server = context

theorem SameSelection.fresh {s s' : KubeLogView} {command : LogCommand} (h : SameSelection s s')
    (hfresh : s.Fresh command) : s'.Fresh command := by
  obtain ⟨hserver, hnamespace, hpod, hworkload, hcontext⟩ := hfresh
  refine ⟨h.profileId.trans hserver, h.namespaceName.trans hnamespace, h.pod.trans hpod, h.workload.trans hworkload, ?_⟩
  rw [h.contexts]
  exact hcontext

/-- What holds of every state: a reload is noticed, and a tick that was begun in the present generation asks
for what is selected. -/
structure Sound (s : KubeLogView) : Prop where
  cluster : ∀ g, s.clusterGeneration = some g → g ≤ s.kubeGeneration
  ticks : ∀ command ∈ s.commands, ∀ g, command.waiting = .tick g →
    g ≤ s.generation ∧ (g = s.generation → s.Fresh command)

section Sound

variable {s s' : KubeLogView}

theorem Quiet.sound (h : Quiet s s') (hsound : s.Sound) : s'.Sound := by
  constructor
  · intro g hg
    rw [h.clusterGeneration] at hg
    rw [h.kubeGeneration]
    exact hsound.cluster g hg
  · intro command hmem g hg
    obtain ⟨hle, hfresh⟩ := hsound.ticks command (h.ticks command hmem g hg) g hg
    rw [h.generation]
    exact ⟨hle, fun heq => h.toSameSelection.fresh (hfresh heq)⟩

theorem Sound.of_same (hsound : s.Sound) (h : SameSelection s s') (hgeneration : s'.generation = s.generation)
    (hcluster : s'.clusterGeneration = s.clusterGeneration) (hkube : s'.kubeGeneration = s.kubeGeneration)
    (hcommands : s'.commands = s.commands) : s'.Sound := by
  constructor
  · rw [hcluster, hkube]
    exact hsound.cluster
  · rw [hcommands, hgeneration]
    intro command hmem g hg
    obtain ⟨hle, hfresh⟩ := hsound.ticks command hmem g hg
    exact ⟨hle, fun heq => h.fresh (hfresh heq)⟩

theorem Sound.turn (hsound : s.Sound) (hgeneration : s'.generation = s.generation + 1)
    (hcluster : ∀ g, s'.clusterGeneration = some g → g ≤ s'.kubeGeneration)
    (hcommands : ∀ command ∈ s'.commands, ∀ g, command.waiting = .tick g → command ∈ s.commands) : s'.Sound := by
  refine ⟨hcluster, fun command hmem g hg => ?_⟩
  have hle := (hsound.ticks command (hcommands command hmem g hg) g hg).1
  constructor
  · omega
  · intro heq
    omega

end Sound

section Calls

variable {s : KubeLogView}

theorem selectProfile_sound (hsound : s.Sound) (id : String) (namespaceName pod : Option String) :
    (s.selectProfile id namespaceName pod).Sound := by
  refine (quiet_run rfl).sound (hsound.turn rfl hsound.cluster fun _ h _ _ => h)

theorem selectProfile_lines (s : KubeLogView) (id : String) (namespaceName pod : Option String) :
    (s.selectProfile id namespaceName pod).lines = [] := (quiet_run rfl).lines

theorem shown_of_no_lines (h : s.lines = []) : s.Shown := by
  intro line hline
  rw [h] at hline
  cases hline

theorem onCluster_eq {id : String} (hid : s.profileId = some id)
    (hcluster : ∀ g, s.clusterGeneration = some g → g < s.kubeGeneration) :
    ∃ namespaceName pod, s.onCluster =
      { s with clusterGeneration := some s.kubeGeneration }.selectProfile id namespaceName pod := by
  unfold onCluster
  rw [hid]
  dsimp only
  rw [if_neg fun h => absurd (hcluster _ h) (Nat.lt_irrefl _)]
  exact ⟨_, _, rfl⟩

theorem changed_onCluster (hsound : s.Sound) (contexts : String → String) (profileId : Option String) :
    let changed : KubeLogView :=
      { s with contexts := contexts, profileId := profileId, kubeGeneration := s.kubeGeneration + 1 }
    profileId.isSome = true → changed.onCluster.Sound ∧ changed.onCluster.lines = [] := by
  intro changed hid
  obtain ⟨id, hid⟩ := Option.isSome_iff_exists.mp hid
  obtain ⟨namespaceName, pod, heq⟩ := onCluster_eq (s := changed) hid fun g hg => by
    have hle := hsound.cluster g hg
    show g < s.kubeGeneration + 1
    omega
  rw [heq]
  refine ⟨?_, selectProfile_lines _ _ _ _⟩
  refine (quiet_run rfl).sound (hsound.turn rfl ?_ fun _ h _ _ => h)
  rintro g ⟨⟩
  exact Nat.le_refl _

theorem firstFrame_cases (s : KubeLogView) : s.onCluster = s ∨ ∃ id namespaceName pod, s.onCluster =
      { s with clusterGeneration := some s.kubeGeneration }.selectProfile id namespaceName pod := by
  unfold onCluster
  split
  · exact Or.inl rfl
  · dsimp only
    split
    · exact Or.inl rfl
    · exact Or.inr ⟨_, _, _, rfl⟩

theorem selectNamespace_sound (hsound : s.Sound) (namespaceName : String) (pod : Option String) :
    (s.selectNamespace namespaceName pod).Sound :=
  (quiet_run rfl).sound (hsound.turn rfl hsound.cluster fun _ h _ _ => h)

theorem selectNamespace_shown_iff (hshown : s.Shown) (namespaceName : String) (pod : Option String) :
    (s.selectNamespace namespaceName pod).Shown ↔ s.NamespaceKept namespaceName := by
  unfold selectNamespace
  rw [(quiet_run rfl).shown_iff]
  constructor
  · intro h
    cases hlines : s.lines with
    | nil => exact Or.inl hlines
    | cons line rest =>
      have hmem : line ∈ s.lines := by
        rw [hlines]
        exact List.mem_cons_self
      have hold := hshown line hmem
      have hnew := h line hmem
      exact Or.inr ⟨hold.namespaceName.trans hnew.namespaceName.symm, hold.pod.trans hnew.pod.symm,
        hold.workload.trans hnew.workload.symm⟩
  · rintro (hlines | ⟨hnamespace, hpod, hworkload⟩) line hline
    · have hnone : line ∈ s.lines := hline
      rw [hlines] at hnone
      cases hnone
    · obtain ⟨hserver, hcontext, hname, hpods, hworkloads⟩ := hshown line hline
      exact ⟨hserver, hcontext, hnamespace.symm.trans hname, hpod.symm.trans hpods, hworkload.symm.trans hworkloads⟩

theorem setTarget_sound (hsound : s.Sound) (pod : Option String) (workload : Option Workload) :
    (s.setTarget pod workload).Sound := hsound.turn rfl hsound.cluster fun _ h _ _ => h

theorem loadLogs_cases (s : KubeLogView) :
    s.loadLogs = s ∨ Quiet { s with generation := s.generation + 1 } s.loadLogs := by
  unfold loadLogs
  split
  · exact Or.inl rfl
  · exact Or.inr (quiet_run rfl)

theorem loadLogs_sound (hsound : s.Sound) : s.loadLogs.Sound := by
  rcases s.loadLogs_cases with h | h
  · rw [h]
    exact hsound
  · exact h.sound (hsound.turn rfl hsound.cluster fun _ h _ _ => h)

theorem loadLogs_shown_iff : s.loadLogs.Shown ↔ s.Shown := by
  rcases s.loadLogs_cases with h | h
  · rw [h]
  · rw [h.shown_iff]
    have hsame : SameSelection s { s with generation := s.generation + 1 } := ⟨rfl, rfl, rfl, rfl, rfl⟩
    exact forall₂_congr fun line _ => hsame.selects_iff line.origin

theorem loadLogs_lines : s.loadLogs.lines = s.lines := by
  rcases s.loadLogs_cases with h | h
  · rw [h]
  · exact h.lines

theorem tick_cases (s : KubeLogView) : s.tick = s ∨ ∃ command : LogCommand,
    s.tick = { s with ticking := true }.send command ∧ command.waiting = .tick s.generation ∧ s.Fresh command := by
  unfold tick
  split
  case h_1 namespaceName server hname hserver =>
    have hid : s.profileId = some server := (Option.filter_eq_some_iff.mp hserver).1
    split
    · exact Or.inl rfl
    · exact Or.inr ⟨_, rfl, rfl, hid, hname, rfl, rfl, fun _ h => nomatch h⟩
  case h_2 => exact Or.inl rfl

theorem tick_sound (hsound : s.Sound) : s.tick.Sound := by
  rcases s.tick_cases with heq | ⟨command, heq, hwaiting, hfresh⟩
  · rw [heq]
    exact hsound
  · rw [heq]
    have hsame : SameSelection s ({ s with ticking := true }.send command) := ⟨rfl, rfl, rfl, rfl, rfl⟩
    refine ⟨hsound.cluster, fun c hmem g hg => ?_⟩
    rcases List.mem_append.mp hmem with hmem | hmem
    · obtain ⟨hle, hold⟩ := hsound.ticks c hmem g hg
      exact ⟨hle, fun heq => hsame.fresh (hold heq)⟩
    · rw [List.mem_singleton.mp hmem] at hg ⊢
      rw [hwaiting, LogWaiting.tick.injEq] at hg
      exact ⟨Nat.le_of_eq hg.symm, fun _ => hsame.fresh hfresh⟩

theorem tick_shown_iff : s.tick.Shown ↔ s.Shown := by
  rcases s.tick_cases with heq | ⟨command, heq, -⟩
  · rw [heq]
  · rw [heq]
    have hsame : SameSelection s ({ s with ticking := true }.send command) := ⟨rfl, rfl, rfl, rfl, rfl⟩
    exact forall₂_congr fun line _ => hsame.selects_iff line.origin

end Calls

section Answers

variable {tryParse : String → Option Int} {s : KubeLogView}

theorem gotNamespaces_sound (hsound : s.Sound) (id : String) (namespaceName pod : Option String)
    (result : Except String String) : (s.gotNamespaces id namespaceName pod result).Sound := by
  have hran := (quiet_ran result).sound hsound
  unfold gotNamespaces
  cases result with
  | error error => exact hran
  | ok output =>
    dsimp only
    split
    · exact hran
    · have hlisted : Quiet (s.ran (.ok output)) { s.ran (.ok output) with namespaces := parseNamespaces output } :=
        ⟨⟨rfl, rfl, rfl, rfl, rfl⟩, rfl, rfl, rfl, rfl, fun _ h _ _ => h⟩
      split
      · exact hlisted.sound hran
      · exact selectNamespace_sound (hlisted.sound hran) _ _

theorem gotNamespaces_shown_iff (hshown : s.Shown) (id : String) (namespaceName pod : Option String)
    (output : String) : (s.gotNamespaces id namespaceName pod (.ok output)).Shown ↔
      (s.profileId = some id → ∀ picked, pickNamespace (parseNamespaces output) namespaceName = some picked →
        s.NamespaceKept picked) := by
  have hran := (quiet_ran (s := s) (.ok output)).shown_iff.mpr hshown
  unfold gotNamespaces
  dsimp only
  split
  case isTrue hid =>
    have hother : s.profileId ≠ some id := hid
    exact ⟨fun _ h => absurd h hother, fun _ => hran⟩
  case isFalse hid =>
    have hsame : s.profileId = some id := not_not.mp hid
    have hlisted : Quiet (s.ran (.ok output)) { s.ran (.ok output) with namespaces := parseNamespaces output } :=
      ⟨⟨rfl, rfl, rfl, rfl, rfl⟩, rfl, rfl, rfl, rfl, fun _ h _ _ => h⟩
    split
    case h_1 hnone => exact ⟨fun _ _ picked hpicked => absurd (hnone.symm.trans hpicked) (by simp),
      fun _ => hlisted.shown_iff.mpr hran⟩
    case h_2 picked hpicked =>
      rw [selectNamespace_shown_iff (hlisted.shown_iff.mpr hran)]
      constructor
      · intro h _ picked' hpicked'
        have heq : picked = picked' := Option.some.inj (hpicked.symm.trans hpicked')
        exact heq ▸ h
      · exact fun h => h hsame picked hpicked

theorem gotPods_sound_shown (hsound : s.Sound) (hshown : s.Shown) (namespaceName : String) (pod : Option String)
    (result : Except String String) :
    (s.gotPods namespaceName pod result).Sound ∧ (s.gotPods namespaceName pod result).Shown := by
  have hlisted : ∃ s', Quiet s s' ∧ s.gotPods namespaceName none result = s' ∧
      ∀ pod, s.gotPods namespaceName (some pod) result =
        if s'.namespaceName = some namespaceName ∧ pod ∈ s'.pods
        then (s'.setTarget (some pod) none).loadLogs else s' := by
    cases result with
    | error error => exact ⟨_, quiet_ran _, rfl, fun _ => rfl⟩
    | ok output =>
      unfold gotPods
      by_cases hname : (s.ran (.ok output)).namespaceName = some namespaceName
      · refine ⟨{ s.ran (.ok output) with pods := parsePods output }, ?_, if_pos hname, fun pod => ?_⟩
        · exact ⟨⟨rfl, rfl, rfl, rfl, rfl⟩, rfl, rfl, rfl, rfl, fun _ h _ _ => h⟩
        · dsimp only
          rw [if_pos hname]
      · refine ⟨s.ran (.ok output), quiet_ran _, if_neg hname, fun pod => ?_⟩
        dsimp only
        rw [if_neg hname]
  obtain ⟨s', hquiet, hnone, hsome⟩ := hlisted
  have hsound' := hquiet.sound hsound
  have hshown' := hquiet.shown_iff.mpr hshown
  cases pod with
  | none =>
    rw [hnone]
    exact ⟨hsound', hshown'⟩
  | some pod =>
    rw [hsome]
    split
    · exact ⟨loadLogs_sound (setTarget_sound hsound' _ _), shown_of_no_lines loadLogs_lines⟩
    · exact ⟨hsound', hshown'⟩

theorem gotLogs_error (s : KubeLogView) (origin : LogOrigin) (error : String) :
    Quiet s (s.gotLogs tryParse origin (.error error)) := by
  unfold gotLogs
  dsimp only
  split
  · split
    · exact (quiet_ran _).trans (quiet_handlePodGone _)
    · exact quiet_ran _
  · exact quiet_ran _

theorem gotLogs_ok_sound (hsound : s.Sound) (origin : LogOrigin) (output : String) :
    (s.gotLogs tryParse origin (.ok output)).Sound :=
  hsound.of_same ⟨rfl, rfl, rfl, rfl, rfl⟩ rfl rfl rfl rfl

theorem gotLogs_ok_shown_iff (origin : LogOrigin) (output : String) : (s.gotLogs tryParse origin (.ok output)).Shown ↔
      parseLogLines tryParse origin output = [] ∨ s.Selects origin := by
  have hsame : SameSelection s (s.gotLogs tryParse origin (.ok output)) := ⟨rfl, rfl, rfl, rfl, rfl⟩
  constructor
  · intro h
    cases hlines : parseLogLines tryParse origin output with
    | nil => exact Or.inl rfl
    | cons line rest =>
      have hmem : line ∈ parseLogLines tryParse origin output := by
        rw [hlines]
        exact List.mem_cons_self
      have hline := (hsame.selects_iff _).mp (h line hmem)
      rw [origin_of_mem_parseLogLines hmem] at hline
      exact Or.inr hline
  · intro h line hline
    have hmem : line ∈ parseLogLines tryParse origin output := hline
    rw [hsame.selects_iff, origin_of_mem_parseLogLines hmem]
    rcases h with h | h
    · rw [h] at hmem
      cases hmem
    · exact h

theorem ticked_sound_shown (hsound : s.Sound) (hshown : s.Shown) {command : LogCommand} {context : String}
    {generation : Nat} (hfresh : generation = s.generation → s.Fresh command)
    (hcontext : command.context = some context) (result : Except String String) (keepFrom : Option Int) :
    (s.ticked tryParse (originOf command context) generation result keepFrom).Sound ∧
      (s.ticked tryParse (originOf command context) generation result keepFrom).Shown := by
  have hended : Quiet s { s with ticking := false } := ⟨⟨rfl, rfl, rfl, rfl, rfl⟩, rfl, rfl, rfl, rfl, fun _ h _ _ => h⟩
  have hquiet : ∀ {s'}, Quiet s s' → s'.Sound ∧ s'.Shown := fun h => ⟨h.sound hsound, h.shown_iff.mpr hshown⟩
  unfold ticked
  dsimp only
  split
  case isTrue => exact hquiet hended
  case isFalse hsame =>
    have hcommand := hfresh (not_not.mp hsame)
    cases result with
    | error error =>
      have hfailed : Quiet s { s with ticking := false, error := some error } :=
        ⟨⟨rfl, rfl, rfl, rfl, rfl⟩, rfl, rfl, rfl, rfl, fun _ h _ _ => h⟩
      dsimp only
      split
      · split
        · exact hquiet (hended.trans (quiet_handlePodGone _))
        · exact hquiet hfailed
      · exact hquiet hfailed
    | ok output =>
      refine ⟨hsound.of_same ⟨rfl, rfl, rfl, rfl, rfl⟩ rfl rfl rfl rfl, fun line hline => ?_⟩
      rcases mem_of_mem_appendNewLines hline with hold | hnew
      · obtain ⟨h₁, h₂, h₃, h₄, h₅⟩ := hshown line hold
        exact ⟨h₁, h₂, h₃, h₄, h₅⟩
      · rw [origin_of_mem_parseLogLines hnew]
        exact ⟨hcommand.server, hcommand.context context hcontext, hcommand.namespaceName, hcommand.pod,
          hcommand.workload⟩

/-- The call that waits for a command may go on: its tick asks for what is selected, if it has not ended. -/
structure Answered (s : KubeLogView) (command : LogCommand) (context : String) : Prop where
  tick : ∀ g, command.waiting = .tick g → g = s.generation → s.Fresh command
  context : command.context = some context

variable {command : LogCommand} {context : String}

theorem goOn_sound (hsound : s.Sound) (hshown : s.Shown) (hanswered : s.Answered command context)
    (result : Except String String) (keepFrom : Option Int) :
    (s.goOn tryParse command context result keepFrom).Sound := by
  unfold goOn
  cases hwaiting : command.waiting with
  | namespaces id namespaceName pod => exact gotNamespaces_sound hsound _ _ _ _
  | pods namespaceName pod => exact (gotPods_sound_shown hsound hshown _ _ _).1
  | logs =>
    cases result with
    | ok output => exact gotLogs_ok_sound hsound _ _
    | error error => exact (gotLogs_error s _ error).sound hsound
  | tick generation =>
    have hfresh := hanswered.tick generation hwaiting
    exact (ticked_sound_shown hsound hshown hfresh hanswered.context result keepFrom).1
  | podGone pod => exact (quiet_gotPodGone _ _).sound hsound

theorem goOn_ok_shown_iff (hsound : s.Sound) (hshown : s.Shown) (hanswered : s.Answered command context)
    (output : String) (keepFrom : Option Int) :
    (s.goOn tryParse command context (.ok output) keepFrom).Shown ↔ s.MayGoOn tryParse command context output := by
  unfold goOn MayGoOn
  cases hwaiting : command.waiting with
  | namespaces id namespaceName pod => exact gotNamespaces_shown_iff hshown _ _ _ _
  | pods namespaceName pod => exact iff_true_intro (gotPods_sound_shown hsound hshown _ _ _).2
  | logs => exact gotLogs_ok_shown_iff _ _
  | tick generation =>
    have hfresh := hanswered.tick generation hwaiting
    exact iff_true_intro (ticked_sound_shown hsound hshown hfresh hanswered.context _ keepFrom).2
  | podGone pod => exact iff_true_intro ((quiet_gotPodGone _ _).shown_iff.mpr hshown)

theorem goOn_error_shown (hsound : s.Sound) (hshown : s.Shown) (hanswered : s.Answered command context)
    (error : String) (keepFrom : Option Int) :
    (s.goOn tryParse command context (.error error) keepFrom).Shown := by
  unfold goOn
  cases hwaiting : command.waiting with
  | namespaces id namespaceName pod => exact (quiet_ran (.error error)).shown_iff.mpr hshown
  | pods namespaceName pod => exact (gotPods_sound_shown hsound hshown _ _ _).2
  | logs => exact (gotLogs_error s _ error).shown_iff.mpr hshown
  | tick generation =>
    have hfresh := hanswered.tick generation hwaiting
    exact (ticked_sound_shown hsound hshown hfresh hanswered.context _ keepFrom).2
  | podGone pod => exact (quiet_gotPodGone _ _).shown_iff.mpr hshown

end Answers

section Runs

variable {tryParse : String → Option Int} {s s' : KubeLogView} {e : LogEvent} {o : List Unit}

theorem run_sound (hsound : s.Sound) {i : Nat} {command : LogCommand} (hat : s.commands[i]? = some command) :
    Sound { s with commands := s.commands.set i { command with context := some (s.contexts command.server) } } := by
  refine ⟨hsound.cluster, fun c hmem g hg => ?_⟩
  rcases List.mem_or_eq_of_mem_set hmem with hmem | rfl
  · have hsame : SameSelection s
        { s with commands := s.commands.set i { command with context := some (s.contexts command.server) } } :=
      ⟨rfl, rfl, rfl, rfl, rfl⟩
    obtain ⟨hle, hfresh⟩ := hsound.ticks c hmem g hg
    exact ⟨hle, fun heq => hsame.fresh (hfresh heq)⟩
  · obtain ⟨hle, hfresh⟩ := hsound.ticks command (List.mem_of_getElem? hat) g hg
    refine ⟨hle, fun heq => ?_⟩
    obtain ⟨hserver, hname, hpod, hworkload, -⟩ := hfresh heq
    exact ⟨hserver, hname, hpod, hworkload, fun context hcontext => Option.some.inj hcontext⟩

theorem quiet_eraseIdx (s : KubeLogView) (i : Nat) : Quiet s { s with commands := s.commands.eraseIdx i } :=
  ⟨⟨rfl, rfl, rfl, rfl, rfl⟩, rfl, rfl, rfl, rfl, fun _ h _ _ => List.mem_of_mem_eraseIdx h⟩

theorem answered_of_mem (hsound : s.Sound) {i : Nat} {command : LogCommand} {context : String}
    (hat : s.commands[i]? = some command) (hcontext : command.context = some context) :
    Answered { s with commands := s.commands.eraseIdx i } command context := by
  refine ⟨fun g hg heq => ?_, hcontext⟩
  exact (quiet_eraseIdx s i).toSameSelection.fresh ((hsound.ticks command (List.mem_of_getElem? hat) g hg).2 heq)

theorem firstFrame_sound_shown (hsound : s.Sound) (hshown : s.Shown) : s.onCluster.Sound ∧ s.onCluster.Shown := by
  rcases s.firstFrame_cases with heq | ⟨id, namespaceName, pod, heq⟩
  · rw [heq]
    exact ⟨hsound, hshown⟩
  · have hsame : SameSelection s { s with clusterGeneration := some s.kubeGeneration } := ⟨rfl, rfl, rfl, rfl, rfl⟩
    have hseen : Sound { s with clusterGeneration := some s.kubeGeneration } := by
      refine ⟨fun g hg => ?_, fun c hmem g hg => ?_⟩
      · cases hg
        exact Nat.le_refl _
      · obtain ⟨hle, hfresh⟩ := hsound.ticks c hmem g hg
        exact ⟨hle, fun heq => hsame.fresh (hfresh heq)⟩
    rw [heq]
    exact ⟨selectProfile_sound hseen _ _ _, shown_of_no_lines (selectProfile_lines _ _ _ _)⟩

theorem retry_sound_shown (hsound : s.Sound) (hshown : s.Shown) (h : step tryParse s .retry = some (s', o)) :
    s'.Sound ∧ s'.Shown := by
  cases hname : s.namespaceName with
  | some namespaceName =>
    have heq : s.loadLogs = s' := by simpa [step, hname] using congrArg (Option.map Prod.fst) h
    rw [← heq]
    exact ⟨loadLogs_sound hsound, loadLogs_shown_iff.mpr hshown⟩
  | none =>
    cases hid : s.profileId with
    | some id =>
      have heq : s.selectProfile id none none = s' := by
        simpa [step, hname, hid] using congrArg (Option.map Prod.fst) h
      rw [← heq]
      exact ⟨selectProfile_sound hsound _ _ _, shown_of_no_lines (selectProfile_lines _ _ _ _)⟩
    | none =>
      have heq : s = s' := by simpa [step, hname, hid] using congrArg (Option.map Prod.fst) h
      rw [← heq]
      exact ⟨hsound, hshown⟩

theorem step_sound_shown (hsound : s.Sound) (hshown : s.Shown) (h : step tryParse s e = some (s', o)) :
    s'.Sound ∧ (s'.Shown ↔ Careful tryParse s e) := by
  have hfine : s'.Sound ∧ s'.Shown → Careful tryParse s e → s'.Sound ∧ (s'.Shown ↔ Careful tryParse s e) :=
    fun hboth hcareful => ⟨hboth.1, iff_of_true hboth.2 hcareful⟩
  cases e with
  | firstFrame =>
    cases h
    exact hfine (firstFrame_sound_shown hsound hshown) trivial
  | pickServer id =>
    cases h
    obtain ⟨hs, hlines⟩ := changed_onCluster hsound s.contexts (some id) rfl
    exact hfine ⟨hs, shown_of_no_lines hlines⟩ trivial
  | reload context =>
    obtain ⟨id, hid, ⟨⟩⟩ := Option.map_eq_some_iff.mp h
    obtain ⟨hs, hlines⟩ := changed_onCluster hsound (fun server => if server = id then context else s.contexts server)
      s.profileId (by rw [hid]; rfl)
    exact hfine ⟨hs, shown_of_no_lines hlines⟩ trivial
  | retry => exact hfine (retry_sound_shown hsound hshown h) trivial
  | selectNamespace namespaceName =>
    cases h
    exact ⟨selectNamespace_sound hsound _ _, selectNamespace_shown_iff hshown _ _⟩
  | setTarget pod workload =>
    cases h
    exact hfine ⟨setTarget_sound hsound _ _, shown_of_no_lines rfl⟩ trivial
  | setRange range =>
    cases h
    have hquiet : Quiet s { s with range := range } := ⟨⟨rfl, rfl, rfl, rfl, rfl⟩, rfl, rfl, rfl, rfl, fun _ h _ _ => h⟩
    exact hfine ⟨hquiet.sound hsound, hquiet.shown_iff.mpr hshown⟩ trivial
  | loadLogs =>
    cases h
    exact hfine ⟨loadLogs_sound hsound, loadLogs_shown_iff.mpr hshown⟩ trivial
  | tick =>
    cases h
    exact hfine ⟨tick_sound hsound, tick_shown_iff.mpr hshown⟩ trivial
  | run i =>
    obtain ⟨command, hat, htaken⟩ := Option.bind_eq_some_iff.mp h
    split at htaken
    · cases htaken
      have hsame : SameSelection s
          { s with commands := s.commands.set i { command with context := some (s.contexts command.server) } } :=
        ⟨rfl, rfl, rfl, rfl, rfl⟩
      exact hfine ⟨run_sound hsound hat, fun line hline => (hsame.selects_iff _).mpr (hshown line hline)⟩ trivial
    · cases htaken
  | answer i result keepFrom =>
    obtain ⟨command, hat, htaken⟩ := Option.bind_eq_some_iff.mp h
    obtain ⟨context, hcontext, ⟨⟩⟩ := Option.map_eq_some_iff.mp htaken
    have hleft := quiet_eraseIdx s i
    have hanswered := answered_of_mem hsound hat hcontext
    have hsound' := hleft.sound hsound
    have hshown' := hleft.shown_iff.mpr hshown
    refine ⟨goOn_sound hsound' hshown' hanswered result keepFrom, ?_⟩
    cases result with
    | error error => exact iff_of_true (goOn_error_shown hsound' hshown' hanswered error keepFrom) trivial
    | ok output =>
      rw [goOn_ok_shown_iff hsound' hshown' hanswered output keepFrom]
      have hkept : ∀ name, NamespaceKept { s with commands := s.commands.eraseIdx i } name ↔ s.NamespaceKept name :=
        fun _ => Iff.rfl
      have hgo : MayGoOn tryParse { s with commands := s.commands.eraseIdx i } command context output ↔
          s.MayGoOn tryParse command context output := by
        unfold MayGoOn
        simp only [hkept, hleft.toSameSelection.selects_iff]
      rw [hgo]
      constructor
      · intro hmay command' context' hat' hcontext'
        cases Option.some.inj (hat.symm.trans hat')
        cases Option.some.inj (hcontext.symm.trans hcontext')
        exact hmay
      · exact fun hcareful => hcareful command context hat hcontext

theorem initial_sound_shown (contexts : String → String) (profiles : List String)
    (profileId namespaceName pod : Option String) (kubeGeneration : Nat) (range : LogRange) :
    (initial contexts profiles profileId namespaceName pod kubeGeneration range).Sound ∧
      (initial contexts profiles profileId namespaceName pod kubeGeneration range).Shown := by
  refine ⟨⟨fun g hg => ?_, fun command hmem => ?_⟩, fun line hline => ?_⟩
  · cases hg
  · cases hmem
  · cases hline

/-- On a run of careful steps every line was read from what is selected, and a step from there keeps it so
exactly if it is careful too. -/
theorem lines_of_selection (tryParse : String → Option Int) (contexts : String → String) (profiles : List String)
    (profileId namespaceName pod : Option String) (kubeGeneration : Nat) (range : LogRange) (h : List Unit)
    (s : KubeLogView) (hreach : Reaches (step tryParse) (Careful tryParse)
      (initial contexts profiles profileId namespaceName pod kubeGeneration range) h s) :
    s.Shown ∧ ∀ e s' o, step tryParse s e = some (s', o) → (s'.Shown ↔ Careful tryParse s e) := by
  have hboth : s.Sound ∧ s.Shown := by
    refine hreach.invariant (I := fun _ s => s.Sound ∧ s.Shown) (initial_sound_shown _ _ _ _ _ _ _) ?_
    intro h s e s' o hs hcareful htaken
    obtain ⟨hsound', hshown'⟩ := step_sound_shown hs.1 hs.2 htaken
    exact ⟨hsound', hshown'.mpr hcareful⟩
  exact ⟨hboth.2, fun e s' o htaken => (step_sound_shown hboth.1 hboth.2 htaken).2⟩

def firstStamps (stamp : String) : Option Int :=
  if stamp = "2024-02-29T12:34:56Z" then some 1709210096000000
  else if stamp = "2024-02-29T12:34:57Z" then some 1709210097000000
  else none

def unopened : KubeLogView := initial (fun _ => "main") ["s"] none none none 0 (.relative (15 * 60 * 1000000))

/-- The server is picked, and the logs of its namespace `default` are shown. -/
def opening : List LogEvent :=
  [.pickServer "s", .run 0, .answer 0 (.ok "default Active 1d\nother Active 1d") none,
    .run 0, .answer 0 (.ok "api-0 1/1 Running 0 1d") none,
    .loadLogs, .run 0, .answer 0 (.ok "2024-02-29T12:34:56Z up\n") none]

theorem lines_of_selection_opened : ∃ h s, Reaches (step firstStamps) (Careful firstStamps) unopened h s ∧
    s.lines.map LogLine.text = ["up"] ∧ s.Shown ∧
    ∀ e s' o, step firstStamps s e = some (s', o) → (s'.Shown ↔ Careful firstStamps s e) := by
  obtain ⟨h, s, hreach, hlines⟩ := Reaches.exists_of_checkedEvents (step firstStamps) unopened
    (P := fun s => s.lines.map LogLine.text = ["up"]) (fun s e => decide (Careful firstStamps s e))
    (fun _ _ => of_decide_eq_true) opening (by decide +kernel)
  exact ⟨h, s, hreach, hlines, lines_of_selection firstStamps _ _ _ _ _ _ _ h s hreach⟩

/-- The lines of `default` stay when `other` is picked, and a tick adds those of `other`; and a load that was
sent for every pod is shown for the pod that was picked meanwhile. -/
theorem lines_mixed :
    (∃ h s, Reaches (step firstStamps) (fun _ _ => True) unopened h s ∧ ¬ s.Shown ∧
      s.lines.map (fun line => (line.text, line.origin.namespaceName)) = [("up", "default"), ("also", "other")]) ∧
    ∃ h s, Reaches (step firstStamps) (fun _ _ => True) unopened h s ∧ ¬ s.Shown ∧
      s.pod = some "api-0" ∧ s.lines.map (fun line => (line.text, line.origin.pod)) = [("up", none)] := by
  constructor
  · exact Reaches.exists_of_events (step firstStamps) unopened
      (P := fun s => ¬ s.Shown ∧ s.lines.map (fun line => (line.text, line.origin.namespaceName)) =
        [("up", "default"), ("also", "other")])
      (opening ++ [.selectNamespace "other", .run 0, .answer 0 (.ok "web-0 1/1 Running 0 1d") none,
        .tick, .run 0, .answer 0 (.ok "2024-02-29T12:34:57Z also\n") none]) (by decide +kernel)
  · exact Reaches.exists_of_events (step firstStamps) unopened
      (P := fun s => ¬ s.Shown ∧ s.pod = some "api-0" ∧
        s.lines.map (fun line => (line.text, line.origin.pod)) = [("up", none)])
      ([.pickServer "s", .run 0, .answer 0 (.ok "default Active 1d\nother Active 1d") none,
        .run 0, .answer 0 (.ok "api-0 1/1 Running 0 1d") none, .loadLogs, .run 0,
        .setTarget (some "api-0") none, .answer 0 (.ok "2024-02-29T12:34:56Z up\n") none]) (by decide +kernel)

end Runs

end KubeLogView

end Portix.Kubernetes
