import Portix.Kubernetes.PodStatus
import Portix.Kubernetes.Proofs.KubeFormProofs

/-!
# The status of a pod is not that of `kubectl`

A reason has no colon and is no count, so the prefix of init containers and their count are told from any reason.
-/

namespace Portix.Kubernetes

open Lib

theorem StateSaid.stateReason_eq {c : Item} {state : ContainerState} (h : StateSaid c state) :
    stateReason c = reasonJson state.reason := by
  rw [stateReason, h.waiting, h.terminated]
  cases state with
  | waiting reason => cases reason <;> rfl
  | running => rfl
  | terminated exitCode reason => rfl

theorem firstReason_eq {α : Type} {state : α → ContainerState} (skipCompleted : Bool) {items : List Item}
    {statuses : List α}
    (h : List.Forall₂ (fun c s => StateSaid c (state s)) items statuses) :
    firstReason skipCompleted (items.map .map) =
      some ((statuses.findSome? fun s => (state s).reason.filter fun reason =>
      ¬(skipCompleted ∧ reason.text = "Completed")).map Reason.text) := by
  induction h with
  | nil => rfl
  | @cons c s items statuses hsaid _ ih =>
    rw [List.map_cons, firstReason, Json.asMap?, Option.bind_some, hsaid.stateReason_eq, List.findSome?_cons]
    cases hreason : (state s).reason with
    | none => exact ih
    | some reason =>
      show (if skipCompleted = true ∧ reason.text = "Completed" then _ else _) = _
      by_cases hskip : skipCompleted = true ∧ reason.text = "Completed"
      · rw [if_pos hskip, ih, Option.filter_some, if_neg (by simp [hskip])]
      · rw [if_neg hskip, Option.filter_some, if_pos (decide_eq_true hskip)]
        rfl

namespace Pod

def shown (p : Pod) : String :=
  if p.deleted then "Terminating" else match p.initReason with
    | some reason => "Init:" ++ reason.text
    | none => match p.firstReason with
      | some reason => reason.text
      | none => p.phase.text

end Pod

variable {pod : Item} {p : Pod}

theorem PodSaid.podStatus_eq (h : PodSaid pod p) : podStatus pod = some p.shown := by
  obtain ⟨inits, hinits, hinitsSaid⟩ := h.inits
  obtain ⟨statuses, hstatuses, hstatusesSaid⟩ := h.statuses
  have hfirst := firstReason_eq false (hstatusesSaid.imp fun _ _ hsaid => hsaid.1)
  have hall : (p.statuses.findSome? fun s => s.state.reason.filter fun reason =>
      ¬(false = true ∧ reason.text = "Completed")) = p.firstReason := by
    refine congrArg p.statuses.findSome? (funext fun s => ?_)
    cases s.state.reason <;> rfl
  have hinit : (p.inits.findSome? fun s => s.state.reason.filter fun reason =>
      ¬(true = true ∧ reason.text = "Completed")) = p.initReason := by
    simp [Pod.initReason]
  unfold podStatus Pod.shown
  cases hdeleted : p.deleted with
  | false =>
    rw [h.deleted.mpr hdeleted, hinits, Option.bind_some, firstReason_eq true hinitsSaid, Option.bind_some, hinit]
    dsimp only
    cases p.initReason with
    | some reason => rfl
    | none =>
      rw [hstatuses, strField, h.phase]
      dsimp only [Option.map_none, Option.bind_some]
      rw [hfirst, hall]
      cases p.firstReason <;> rfl
  | true =>
    have hsome : field pod "metadata.deletionTimestamp" ≠ .null := fun hnull =>
      Bool.true_eq_false_eq_False (hdeleted.symm.trans (h.deleted.mp hnull))
    split
    next hnull => exact absurd hnull hsome
    next => rfl

theorem Reason.eq_of_text {reason other : Reason} (h : reason.text = other.text) : reason = other := by
  cases reason
  cases other
  cases h
  rfl

theorem PodPhase.colon_notMem (phase : PodPhase) : ':' ∉ phase.text.toList := by
  cases phase <;> decide

theorem Pod.colon_notMem_settled {text : String} (h : ':' ∉ text.toList) : ':' ∉ (p.settled text).toList := by
  unfold settled
  split_ifs
  · decide
  · decide
  · exact h

theorem init_ne {text : String} (h : ':' ∉ text.toList) (rest : String) : "Init:" ++ rest ≠ text := by
  rintro rfl
  rw [String.toList_append] at h
  exact h (List.mem_append_left _ (by decide))

theorem init_inj {text other : String} : "Init:" ++ text = "Init:" ++ other ↔ text = other := by
  rw [← String.toList_inj, String.toList_append, String.toList_append, List.append_cancel_left_eq, String.toList_inj]

theorem Pod.shown_eq_iff : p.shown = p.kubectlStatus ↔ p.Agrees := by
  unfold shown kubectlStatus Agrees
  cases p.deleted with
  | true =>
    cases p.phase.isTerminal <;> simp [eq_comm]
  | false =>
    have hplain : ':' ∉ (match p.firstReason with
        | some reason => reason.text
        | none => p.phase.text).toList := by
      split
      next reason _ => exact reason.noColon
      next => exact p.phase.colon_notMem
    have hbase : ':' ∉ (match p.firstReason with
        | some reason => reason.text
        | none => (p.reason.map Reason.text).getD p.phase.text).toList := by
      split
      next reason _ => exact reason.noColon
      next =>
        cases p.reason with
        | none => exact p.phase.colon_notMem
        | some reason => exact reason.noColon
    simp only [Bool.false_eq_true, if_false, false_and]
    unfold state
    cases p.initializing with
    | some entry =>
      obtain ⟨s, i⟩ := entry
      dsimp only
      cases hinit : p.initReason with
      | none =>
        refine ⟨fun heq => absurd heq.symm (init_ne hplain _), ?_⟩
        rintro ⟨reason, -, ⟨⟩⟩
      | some reason =>
        dsimp only
        rw [init_inj]
        cases hnamed : s.named with
        | none =>
          refine ⟨fun heq => absurd heq (reason.noCount i p.initCount), ?_⟩
          rintro ⟨other, hsome, -⟩
          cases hsome
        | some other =>
          refine ⟨fun heq => ⟨other, rfl, congrArg some (Reason.eq_of_text heq)⟩, ?_⟩
          rintro ⟨third, hsome, hsame⟩
          rw [Option.some.inj hsame, Option.some.inj hsome]
    | none =>
      dsimp only
      cases hinit : p.initReason with
      | some reason =>
        refine ⟨fun heq => absurd heq (init_ne (colon_notMem_settled hbase) _), fun h => ?_⟩
        cases h.1
      | none =>
        dsimp only
        rw [and_iff_right rfl]
        cases p.firstReason with
        | some reason => exact eq_comm
        | none =>
          dsimp only
          have hphase : p.settled p.phase.text = p.phase.text := by
            refine if_neg fun h => ?_
            have hne : ∀ phase : PodPhase, phase.text ≠ "Completed" := by
              intro phase
              cases phase <;> decide
            exact hne _ h.1
          cases p.reason with
          | none => simp [hphase]
          | some reason => simp [eq_comm]

theorem PodSaid.podReady_eq (h : PodSaid pod p) :
    podReady pod = some (toString (p.statuses.countP fun s => s.ready) ++ "/" ++ toString p.containerCount) := by
  obtain ⟨items, hitems, hsaid⟩ := h.statuses
  obtain ⟨containers, hcontainers, hlength⟩ := h.containers
  have hmaps : (items.map Json.map).mapM Json.asMap? = some items :=
    mapM_eq_some_iff.mpr (List.forall₂_map_left_iff.mpr (List.forall₂_same.mpr fun _ _ => rfl))
  have hcount : items.countP isReady = p.statuses.countP fun s => s.ready := by
    generalize p.statuses = statuses at hsaid
    clear hitems hmaps
    induction hsaid with
    | nil => rfl
    | @cons c s _ _ hfirst _ ih =>
      have hready : isReady c = s.ready := by rw [isReady, hfirst.2]
      rw [List.countP_cons, List.countP_cons, ih, hready]
  rw [podReady, hitems, Option.bind_some, hmaps, Option.bind_some, hcontainers, Option.map_some, hcount, hlength]

theorem PodSaid.podHealthOf_ok (h : PodSaid pod p) (hrunning : p.shown = "Running") (hready : p.AllReady) :
    podHealthOf pod = some .ok := by
  have hcount : p.statuses.countP (fun s => s.ready) = p.containerCount := by
    rw [← hready.2]
    exact List.countP_eq_length.mpr hready.1
  have hsplit : splitChar '/' (toString p.containerCount ++ "/" ++ toString p.containerCount) =
      [toString p.containerCount, toString p.containerCount] := by
    have hnot : '/' ∉ (toString p.containerCount).toList := by
      intro hmem
      have hdigits : (toString p.containerCount).toList = Nat.toDigits 10 p.containerCount := Nat.toList_repr
      rw [hdigits] at hmem
      exact absurd (Nat.isDigit_of_mem_toDigits (by decide) (by decide) hmem) (by decide)
    have hpieces : splitChar '/' ("/".intercalate [toString p.containerCount, toString p.containerCount]) = _ :=
      splitChar_intercalate '/' (by simpa using hnot) (List.cons_ne_nil _ _)
    exact hpieces
  rw [podHealthOf, h.podStatus_eq, hrunning, Option.bind_some, if_neg (by decide), if_pos rfl, h.podReady_eq, hcount,
    Option.bind_some, hsplit]
  exact congrArg some (if_pos rfl)

/-- The app prints what `kubectl` prints just where the pod agrees; a running pod that is ready is then shown so. -/
theorem podStatus_kubectl_iff (h : PodSaid pod p) :
    (podStatus pod = some p.kubectlStatus ∧
      (p.kubectlStatus = "Running" → p.AllReady → podHealthOf pod = some .ok)) ↔ p.Agrees := by
  rw [h.podStatus_eq, Option.some.injEq, ← Pod.shown_eq_iff]
  constructor
  · exact fun hboth => hboth.1
  · exact fun heq => ⟨heq, fun hrunning hready => h.podHealthOf_ok (heq.trans hrunning) hready⟩

def completed : Reason := .ofText "Completed" (by decide) (by decide)

def imagePullBackOff : Reason := .ofText "ImagePullBackOff" (by decide) (by decide)

def podInitializing : Reason := .ofText "PodInitializing" (by decide) (by decide)

def completedJson : Json :=
  .map [("state", .map [("terminated", .map [("exitCode", .int 0), ("reason", .string "Completed")])])]

def waitingJson (reason : String) : Json :=
  .map [("ready", .bool false), ("state", .map [("waiting", .map [("reason", .string reason)])])]

def podJson (phase : String) (inits statuses : List Json) : Item :=
  [("spec", .map [("containers", .list [.map [("name", .string "api")]])]),
    ("status", .map [("phase", .string phase), ("initContainerStatuses", .list inits),
      ("containerStatuses", .list statuses)])]

def runningJson : Item := podJson "Running" [completedJson]
  [.map [("ready", .bool true), ("state", .map [("running", .map [])])]]

def runningPod : Pod where
  deleted := false
  reason := none
  phase := .running
  ready := true
  inits := [⟨.terminated 0 completed, false⟩]
  initCount := 1
  statuses := [⟨.running, true⟩]
  containerCount := 1

def stuckJson : Item := podJson "Pending" [completedJson, waitingJson "ImagePullBackOff"]
  [waitingJson "PodInitializing"]

def stuckPod : Pod where
  deleted := false
  reason := none
  phase := .pending
  ready := false
  inits := [⟨.terminated 0 completed, false⟩, ⟨.waiting (some imagePullBackOff), false⟩]
  initCount := 2
  statuses := [⟨.waiting (some podInitializing), false⟩]
  containerCount := 1

theorem said_runningPod : PodSaid runningJson runningPod where
  deleted := iff_of_true rfl rfl
  phase := rfl
  inits := ⟨_, rfl, .cons ⟨rfl, rfl⟩ .nil⟩
  statuses := ⟨[[("ready", .bool true), ("state", .map [("running", .map [])])]], rfl, .cons ⟨⟨rfl, rfl⟩, rfl⟩ .nil⟩
  containers := ⟨_, rfl, rfl⟩

theorem said_stuckPod : PodSaid stuckJson stuckPod where
  deleted := iff_of_true rfl rfl
  phase := rfl
  inits := ⟨_, rfl, .cons ⟨rfl, rfl⟩ (.cons ⟨rfl, rfl⟩ .nil)⟩
  statuses := ⟨_, rfl, .cons ⟨⟨rfl, rfl⟩, rfl⟩ .nil⟩
  containers := ⟨_, rfl, rfl⟩

/-- A pod that runs after its init container, and one whose second init container has no image. -/
theorem podStatus_running : (podStatus runningJson = some runningPod.kubectlStatus ∧
      (runningPod.kubectlStatus = "Running" → runningPod.AllReady → podHealthOf runningJson = some .ok)) ∧
    podStatus stuckJson = some stuckPod.kubectlStatus ∧ stuckPod.kubectlStatus = "Init:ImagePullBackOff" :=
  ⟨(podStatus_kubectl_iff said_runningPod).mpr ⟨rfl, fun _ hreason => nomatch hreason⟩,
    ((podStatus_kubectl_iff said_stuckPod).mpr ⟨imagePullBackOff, rfl, rfl⟩).1, rfl⟩

def evictedJson : Item := [("status", .map [("phase", .string "Failed"), ("reason", .string "Evicted")])]

def evictedPod : Pod where
  deleted := false
  reason := some (.ofText "Evicted" (by decide) (by decide))
  phase := .failed
  ready := false
  inits := []
  initCount := 0
  statuses := []
  containerCount := 0

/-- The reason of the pod itself is not read. -/
theorem podStatus_evicted : PodSaid evictedJson evictedPod ∧ podStatus evictedJson ≠ some evictedPod.kubectlStatus := by
  refine ⟨⟨iff_of_true rfl rfl, rfl, ⟨[], rfl, .nil⟩, ⟨[], rfl, .nil⟩, ⟨[], rfl, rfl⟩⟩, ?_⟩
  have hstatus : podStatus evictedJson = some "Failed" := by rfl
  rw [hstatus]
  decide

end Portix.Kubernetes
