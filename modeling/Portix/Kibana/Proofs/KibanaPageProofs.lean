import Portix.Kibana.KibanaPage
import Portix.Lib.Machine

/-!
# Results of what is selected

The searches of the page are not numbered: what any of them comes to is shown. So the results belong to what
is selected as long as a search comes to its end while it is the newest one.
-/

namespace Portix.Kibana

open Lib

structure KibanaShown where
  result : Option KibanaResult
  searched : Option KibanaRange
  fields : List (String × Nat)
  samples : JsonMap
  error : Option String

def KibanaShown.nothing (error : Option String) : KibanaShown := ⟨none, none, [], [], error⟩

def outcome (readDouble : String → String) (request : KibanaSearch) : Except String String → KibanaShown
  | .error error => .nothing (some error)
  | .ok output => match parseKibanaHits readDouble request.timeField output with
    | .ok result => ⟨some result, some request.range, kibanaFields result.hits, samplesOf result.hits, none⟩
    | .error (.format message) => .nothing (some message)
    | .error .other => .nothing none

def KibanaStage.profile : KibanaStage → Option (Option KibanaLogin)
  | .signIn old | .signing old _ => some old
  | .restoring | .sent _ | .exec _ | .hostKey _ | .prompts _ | .writing | .done _ => none

/-- The call is on its way, and the selection that it was made with has not changed by it. -/
def KibanaStage.plain : KibanaStage → Bool
  | .signing _ _ | .done _ => false
  | .restoring | .sent _ | .exec _ | .hostKey _ | .prompts _ | .writing | .signIn _ => true

def KibanaReply.From (task : KibanaTask) (stage : KibanaStage) : KibanaReply → Prop
  | .restore _ => task = .restore
  | .wait next => stage.plain = true ∧ next.plain = true ∧ next.profile = none
  | .ask => stage.plain = true
  | .sign old login => stage = .signIn old ∧ login.auth.isSome = true
  | .resend => ∃ old login, stage = .signing old login
  | .finish _ => stage.plain = true ∨ ∃ old login, stage = .signing old login ∧ login.auth = none

variable {stage : KibanaStage} {reply : KibanaReply}

theorem KibanaTask.reply_from {readDouble thrown : String → String} {task : KibanaTask} {answer : KibanaAnswer}
    (h : task.reply readDouble thrown stage answer = some reply) :
    reply.From task stage := by
  have hkibana : ∀ retried result, task.kibana readDouble thrown retried result = .ask ∨
      ∃ result', task.kibana readDouble thrown retried result = .finish result' := by
    intro retried result
    unfold KibanaTask.kibana
    split
    · exact Or.inr ⟨_, rfl⟩
    · split
      · exact Or.inr ⟨_, rfl⟩
      · split
        · exact Or.inr ⟨_, rfl⟩
        · exact Or.inl rfl
      · exact Or.inr ⟨_, rfl⟩
  unfold KibanaTask.reply at h
  split at h
  case h_1 =>
    split at h
    case isTrue htask => cases h; exact htask
    case isFalse => cases h
  case h_2 retried result =>
    rcases hkibana retried result with heq | ⟨result', heq⟩
    · rw [heq] at h
      cases h
      rfl
    · rw [heq] at h
      cases h
      exact Or.inl rfl
  case h_12 =>
    split at h
    case isTrue hauth => cases h; exact ⟨rfl, hauth⟩
    case isFalse => cases h
  case h_13 old login answer =>
    split at h
    case isTrue hauth =>
      cases h
      exact Or.inr ⟨old, login, rfl, Option.isNone_iff_eq_none.mp hauth⟩
    case isFalse =>
      cases h
      exact ⟨old, login, rfl⟩
  all_goals cases h
  all_goals first
    | exact ⟨rfl, rfl, rfl⟩
    | exact Or.inl rfl

namespace KibanaPage

variable {ν : Type} [DecidableEq ν] (valueText : ν → ValueText) (readDouble thrown : String → String)

def shown (s : KibanaPage ν) : KibanaShown := ⟨s.result, s.searched, s.fields, s.samples, s.error⟩

/-- The range is the one that is selected. -/
def RangeIs (s : KibanaPage ν) (range : KibanaRange) : Prop :=
  match s.absolute with
  | some absolute => range = absolute
  | none => range.fromTime = range.toTime - s.last

/-- A search was made with what is selected, where the text fields count as they were read for it. -/
def Selected (s : KibanaPage ν) (source : KibanaSource) (request : KibanaSearch) (texts : KibanaTexts) : Prop :=
  source = s.source texts ∧ request = s.searchFor valueText texts request.range ∧ s.RangeIs request.range

/-- No search is running, and none is about to begin. -/
def Idle (s : KibanaPage ν) : Prop :=
  ∀ call ∈ s.calls, call.task.searches = true → ∃ result, call.stage = .done result

/-- What is shown belongs to what is selected. -/
def Belongs (s : KibanaPage ν) : Prop :=
  s.Idle → match s.newest with
    | none => s.shown = .nothing none
    | some i => ∃ request texts source result,
      s.calls[i]? = some ⟨.search request texts, source, .done result⟩ ∧
        s.Selected valueText source request texts ∧ s.shown = outcome readDouble request result

/-- Every sign-in is offered for the profile that its call was sent with. -/
def Offered (s : KibanaPage ν) : Prop :=
  ∀ call ∈ s.calls, ∀ old, call.stage.profile = some old → call.source = .kibana old

/-- A submitted sign-in is stored in place of the profile that its call was sent with. -/
def StoredInto (s : KibanaPage ν) (e : KibanaEvent ν) (s' : KibanaPage ν) : Prop :=
  ∀ i login call old, e = .answer i (.login (some login)) → s.calls[i]? = some call → call.stage = .signIn old →
    call.source = .kibana old ∧ s'.login = some login ∧
      s'.logins = login :: s.logins.filter fun l => some l ≠ old ∧ l ≠ login

def canSearch (s : KibanaPage ν) : Bool :=
  if s.direct then s.login.isSome else s.profileId.any (decide <| · ∈ s.profiles)

def newestCall (s : KibanaPage ν) : Option KibanaCall := s.newest.bind (s.calls[·]?)

/-- The newest search has not begun yet: its data view or its profile was picked. -/
def aboutToSearch (s : KibanaPage ν) : Bool :=
  match s.newestCall.map KibanaCall.task with
  | some .pick | some .connect => true
  | _ => false

def awaited (s : KibanaPage ν) : Bool :=
  match s.newestCall.map KibanaCall.stage with
  | some (.done _) | none => false
  | _ => true

def nothingFound (s : KibanaPage ν) : Bool :=
  s.result.isNone && s.searched.isNone && s.fields.isEmpty && s.samples.isEmpty

/-- A call may come to its end: the newest search with documents or before anything was found, an older one
with documents while a newer one has not ended, or with an error while a newer one has not begun. -/
def mayEnd (s : KibanaPage ν) (i : Nat) (call : KibanaCall) (result : Except String String) : Bool :=
  match call.task with
  | .search _ _ => match result.toOption.map (parseKibanaHits readDouble s.timeField) with
    | some (.ok _) => decide (s.newest = some i) || s.awaited
    | some (.error .other) => decide (s.newest ≠ some i) || s.nothingFound
    | some (.error (.format _)) | none => if s.newest = some i then s.nothingFound else s.aboutToSearch
  | .dataViews => result.isOk && s.error.isNone || s.aboutToSearch
  | .edit old _ => decide (some old ≠ s.login) || s.direct || s.canSearch
  | .restore | .pick | .connect | .save => true

def mayReact (s : KibanaPage ν) (i : Nat) (call : KibanaCall) : KibanaReply → Bool
  | .restore saved => saved.isEmpty || s.direct || s.newest.isNone
  | .ask => decide (call.source = .kibana s.login)
  | .sign _ login => decide (s.login = some login) || s.newest.isNone || decide (s.newest = some i) || s.aboutToSearch
  | .finish result => s.mayEnd readDouble i call result
  | .wait _ | .resend => true

def maySave (s : KibanaPage ν) (call : KibanaCall) : KibanaAnswer → Bool
  | .written (some _) => s.aboutToSearch || decide (call.task = .connect ∧ call.stage = .writing) && s.canSearch
  | .written none | .logins _ | .response _ | .hostKey _ | .prompts _ | .login _ => true

def careful (s : KibanaPage ν) : KibanaEvent ν → Bool
  | .answer i answer => (s.calls[i]?).all fun call =>
    (call.task.reply readDouble thrown call.stage answer).all fun reply =>
      s.maySave call answer && (s.saved answer).mayReact readDouble i call reply
  | .disconnect | .disconnectSsh => s.nothingFound
  | .setDirect direct => decide (direct = s.direct) || s.nothingFound
  | .deleteLogin login => decide (some login ≠ s.login) || s.nothingFound
  | .loadDataViews => s.error.isNone || s.aboutToSearch
  | .pickServer id => s.ready || s.newest.isNone || decide (s.profileId = some id)
  | .edit _ | .search | .filter _ | .setLast _ | .zoom _ | .pickDataView _ | .connect _ | .newLogin _
  | .editLogin _ _ | .connectSsh => true

/-- The newest search is what the page says: it has come to what is shown, or it is on its way. -/
def Fits (s : KibanaPage ν) (call : KibanaCall) : Prop :=
  match call.task, call.stage with
  | .search request texts, .done result =>
    s.Selected valueText call.source request texts ∧ s.shown = outcome readDouble request result
  | .search request _, .signing _ login =>
    s.direct = true ∧ s.RangeIs request.range ∧ login.auth.isSome = true ∧ s.error = none
  | .search request texts, _ => s.Selected valueText call.source request texts ∧ s.error = none
  | .pick, .done _ | .connect, .done _ => False
  | .pick, _ | .connect, _ => True
  | _, _ => False

/-- What holds of every state that careful steps lead to. -/
structure Sound (s : KibanaPage ν) : Prop where
  cleared : s.newest = none → s.shown = .nothing none
  newest : ∀ i, s.newest = some i → s.canSearch = true ∧ ∃ call, s.calls[i]? = some call ∧
    s.Fits valueText readDouble call
  offered : s.Offered

variable {valueText readDouble thrown} {s : KibanaPage ν}

/-- The invariant gives the property. -/
theorem Sound.belongs (h : s.Sound valueText readDouble) : s.Belongs valueText readDouble := by
  intro hidle
  cases hnewest : s.newest with
  | none => exact h.cleared hnewest
  | some i =>
    obtain ⟨-, ⟨task, source, stage⟩, hat, hfits⟩ := h.newest i hnewest
    have hmem := List.mem_of_getElem? hat
    cases task with
    | search request texts =>
      obtain ⟨result, ⟨⟩⟩ := hidle _ hmem rfl
      exact ⟨request, texts, source, result, hat, hfits⟩
    | pick =>
      obtain ⟨result, ⟨⟩⟩ := hidle _ hmem rfl
      exact hfits.elim
    | connect =>
      obtain ⟨result, ⟨⟩⟩ := hidle _ hmem rfl
      exact hfits.elim
    | _ => exact hfits.elim

variable {call : KibanaCall}

omit [DecidableEq ν] in
theorem offered_begin (h : s.Offered) (hstage : call.stage.profile = none) : (s.begin call).Offered := by
  intro c hmem old hold
  rcases List.mem_append.mp hmem with hmem | hmem
  · exact h c hmem old hold
  · rw [List.mem_singleton.mp hmem, hstage] at hold
    cases hold

theorem Sound.begin (h : s.Sound valueText readDouble) (hsearches : call.task.searches = false)
    (hstage : call.stage.profile = none) : (s.begin call).Sound valueText readDouble := by
  have hnewest : (s.begin call).newest = s.newest := by
    show (if call.task.searches = true then some s.calls.length else s.newest) = s.newest
    rw [hsearches]
    rfl
  refine ⟨fun hnone => h.cleared (hnewest.symm.trans hnone), fun i hi => ?_, offered_begin h.offered hstage⟩
  obtain ⟨hcan, newest, hat, hfits⟩ := h.newest i (hnewest.symm.trans hi)
  refine ⟨hcan, newest, ?_, hfits⟩
  show (s.calls ++ [call])[i]? = some newest
  rw [List.getElem?_append_left (List.getElem?_eq_some_iff.mp hat).1]
  exact hat

theorem sound_begin (hoffered : s.Offered) (hcan : s.canSearch = true) (hsearches : call.task.searches = true)
    (hstage : call.stage.profile = none)
    (hfits : s.Fits valueText readDouble call) : (s.begin call).Sound valueText readDouble := by
  have hnewest : (s.begin call).newest = some s.calls.length := by
    show (if call.task.searches = true then some s.calls.length else s.newest) = _
    rw [hsearches]
    rfl
  refine ⟨fun hnone => ?_, fun i hi => ?_, offered_begin hoffered hstage⟩
  · rw [hnewest] at hnone
    cases hnone
  · cases Option.some.inj (hnewest.symm.trans hi)
    exact ⟨hcan, call, List.getElem?_concat_length, hfits⟩

theorem sound_search (hoffered : s.Offered) (hcan : s.canSearch = true) (now : Int) :
    (s.search valueText now).Sound valueText readDouble := by
  have hrange : s.RangeIs (s.absolute.getD ⟨now - s.last, now⟩) := by
    unfold RangeIs
    cases s.absolute with
    | none => rfl
    | some range => rfl
  unfold search
  dsimp only
  by_cases hdirect : s.direct = true
  · rw [if_pos hdirect]
    split
    case h_1 hlogin =>
      unfold canSearch at hcan
      rw [if_pos hdirect, hlogin] at hcan
      cases hcan
    case h_2 login hlogin =>
      have hsource : KibanaSource.kibana (some login) = s.source s.texts := by
        unfold source
        rw [if_pos hdirect, hlogin]
      have hfits : Fits valueText readDouble { s with loading := true, error := none }
          ⟨.search (s.searchFor valueText s.texts (s.absolute.getD ⟨now - s.last, now⟩)) s.texts,
            .kibana (some login), .sent false⟩ := ⟨⟨hsource, rfl, hrange⟩, rfl⟩
      exact sound_begin (s := { s with loading := true, error := none }) hoffered hcan rfl rfl hfits
  · rw [if_neg hdirect]
    unfold canSearch at hcan
    rw [if_neg hdirect] at hcan
    obtain ⟨id, hid, hsaved⟩ := Option.any_eq_true _ _ |>.mp hcan
    have hfilter : s.profileId.filter (· ∈ s.profiles) = some id := Option.filter_eq_some_iff.mpr ⟨hid, hsaved⟩
    rw [hfilter]
    have hsource : KibanaSource.server (some id) s.texts.url = s.source s.texts := by
      unfold source
      rw [if_neg hdirect, hid]
    have hsend : canSearch { s with loading := true, error := none } = true := by
      show (if s.direct = true then _ else _) = true
      rw [if_neg hdirect]
      exact hcan
    have hfits : Fits valueText readDouble { s with loading := true, error := none }
        ⟨.search (s.searchFor valueText s.texts (s.absolute.getD ⟨now - s.last, now⟩)) s.texts,
          .server (some id) s.texts.url, .exec true⟩ := ⟨⟨hsource, rfl, hrange⟩, rfl⟩
    exact sound_begin (s := { s with loading := true, error := none }) hoffered hsend rfl rfl hfits

theorem search_eq_self (hcan : s.canSearch = false) (now : Int) : s.search valueText now = s := by
  unfold canSearch at hcan
  unfold search
  dsimp only
  by_cases hdirect : s.direct = true
  · rw [if_pos hdirect] at hcan ⊢
    rw [Option.isSome_eq_false_iff, Option.isNone_iff_eq_none] at hcan
    rw [hcan]
  · rw [if_neg hdirect] at hcan ⊢
    have hfilter : s.profileId.filter (· ∈ s.profiles) = none := by
      cases hid : s.profileId with
      | none => rfl
      | some id =>
        rw [hid] at hcan
        exact Option.filter_eq_none_iff.mpr fun a ha => by cases ha; simpa using hcan
    rw [hfilter]

theorem Sound.search (hcleared : s.newest = none → s.shown = .nothing none)
    (hcan : s.newest ≠ none → s.canSearch = true) (hoffered : s.Offered) (now : Int) :
    (s.search valueText now).Sound valueText readDouble := by
  cases hsend : s.canSearch with
  | true => exact sound_search hoffered hsend now
  | false =>
    rw [search_eq_self hsend]
    refine ⟨hcleared, fun i hi => ?_, hoffered⟩
    rw [hcan (by rw [hi]; simp)] at hsend
    cases hsend

omit [DecidableEq ν] in
theorem offered_set (h : s.Offered) (i : Nat)
    (hcall : ∀ old, call.stage.profile = some old → call.source = .kibana old) :
    Offered { s with calls := s.calls.set i call } := by
  intro c hmem old hold
  rcases List.mem_or_eq_of_mem_set hmem with hmem | rfl
  · exact h c hmem old hold
  · exact hcall old hold

variable {i : Nat}

theorem Sound.set (h : s.Sound valueText readDouble) {call call' : KibanaCall} (hat : s.calls[i]? = some call)
    (hfits : s.newest = some i → s.Fits valueText readDouble call → s.Fits valueText readDouble call')
    (hcall : ∀ old, call'.stage.profile = some old → call'.source = .kibana old) :
    Sound valueText readDouble { s with calls := s.calls.set i call' } := by
  refine ⟨h.cleared, fun j hj => ?_, offered_set h.offered i hcall⟩
  obtain ⟨hcan, newest, hnewest, hold⟩ := h.newest j hj
  by_cases heq : i = j
  · subst heq
    cases Option.some.inj (hat.symm.trans hnewest)
    exact ⟨hcan, call', List.getElem?_set_self (List.getElem?_eq_some_iff.mp hat).1, hfits hj hold⟩
  · refine ⟨hcan, newest, ?_, hold⟩
    show (s.calls.set i call')[j]? = some newest
    rw [List.getElem?_set_ne heq]
    exact hnewest

def showing (s : KibanaPage ν) (content : KibanaShown) : KibanaPage ν :=
  { s with
    result := content.result
    searched := content.searched
    fields := content.fields
    samples := content.samples
    error := content.error }

omit [DecidableEq ν] in
theorem nothingFound_iff : s.nothingFound = true ↔ s.shown = .nothing s.error := by
  unfold nothingFound shown KibanaShown.nothing
  simp only [Bool.and_eq_true, Option.isNone_iff_eq_none, List.isEmpty_iff, KibanaShown.mk.injEq, and_true, and_assoc]

omit [DecidableEq ν] in
theorem aboutToSearch_iff : s.aboutToSearch = true ↔ ∃ j call, s.newest = some j ∧ s.calls[j]? = some call ∧
    (call.task = .pick ∨ call.task = .connect) := by
  have hnewest : ∀ call, s.newestCall = some call ↔ ∃ j, s.newest = some j ∧ s.calls[j]? = some call :=
    fun call => Option.bind_eq_some_iff
  unfold aboutToSearch
  constructor
  · intro h
    cases hcall : s.newestCall with
    | none =>
      rw [hcall] at h
      cases h
    | some call =>
      obtain ⟨j, hj, hat⟩ := (hnewest call).mp hcall
      rw [hcall] at h
      refine ⟨j, call, hj, hat, ?_⟩
      cases htask : call.task <;> simp_all
  · rintro ⟨j, call, hj, hat, htask⟩
    rw [(hnewest call).mpr ⟨j, hj, hat⟩]
    rcases htask with htask | htask <;> simp [htask]

omit [DecidableEq ν] in
theorem awaited_iff : s.awaited = true ↔ ∃ j call, s.newest = some j ∧ s.calls[j]? = some call ∧
    ∀ result, call.stage ≠ .done result := by
  have hnewest : ∀ call, s.newestCall = some call ↔ ∃ j, s.newest = some j ∧ s.calls[j]? = some call :=
    fun call => Option.bind_eq_some_iff
  unfold awaited
  constructor
  · intro h
    cases hcall : s.newestCall with
    | none =>
      rw [hcall] at h
      cases h
    | some call =>
      obtain ⟨j, hj, hat⟩ := (hnewest call).mp hcall
      rw [hcall] at h
      refine ⟨j, call, hj, hat, fun result hdone => ?_⟩
      rw [Option.map_some, hdone] at h
      cases h
  · rintro ⟨j, call, hj, hat, hrunning⟩
    rw [(hnewest call).mpr ⟨j, hj, hat⟩, Option.map_some]
    cases hstage : call.stage with
    | done result => exact absurd hstage (hrunning result)
    | _ => rfl

omit [DecidableEq ν] in
theorem newestCall_set (hne : s.newest ≠ some i) (call : KibanaCall) :
    newestCall { s with calls := s.calls.set i call } = s.newestCall := by
  unfold newestCall
  cases hnewest : s.newest with
  | none => rfl
  | some j =>
    have hij : i ≠ j := fun heq => hne (by rw [hnewest, heq])
    exact List.getElem?_set_ne hij

/-- While the newest search has not ended, other documents may be shown, and while it has not begun an
error too. -/
theorem Sound.showing (h : s.Sound valueText readDouble) (content : KibanaShown)
    (hmay : s.aboutToSearch = true ∨ s.awaited = true ∧ content.error = none) :
    (s.showing content).Sound valueText readDouble := by
  have hsome : s.newest ≠ none := by
    rcases hmay with hmay | ⟨hmay, -⟩
    · obtain ⟨j, _, hj, -⟩ := aboutToSearch_iff.mp hmay
      rw [hj]
      simp
    · obtain ⟨j, _, hj, -⟩ := awaited_iff.mp hmay
      rw [hj]
      simp
  refine ⟨fun hnone => absurd hnone hsome, fun i hi => ?_, h.offered⟩
  obtain ⟨hcan, call, hat, hfits⟩ := h.newest i hi
  refine ⟨hcan, call, hat, ?_⟩
  obtain ⟨task, source, stage⟩ := call
  rcases hmay with hmay | ⟨hmay, herror⟩
  · obtain ⟨j, call, hj, hat', htask⟩ := aboutToSearch_iff.mp hmay
    cases Option.some.inj (hi.symm.trans hj)
    cases Option.some.inj (hat.symm.trans hat')
    rcases htask with htask | htask
    · cases htask
      cases stage <;> exact hfits
    · cases htask
      cases stage <;> exact hfits
  · obtain ⟨j, call, hj, hat', hrunning⟩ := awaited_iff.mp hmay
    cases Option.some.inj (hi.symm.trans hj)
    cases Option.some.inj (hat.symm.trans hat')
    cases task with
    | search request texts =>
      cases stage with
      | done result => exact absurd rfl (hrunning result)
      | signing old login =>
        obtain ⟨hdirect, hrange, hauth, -⟩ := hfits
        exact ⟨hdirect, hrange, hauth, herror⟩
      | _ => exact ⟨hfits.1, herror⟩
    | pick => cases stage <;> exact hfits
    | connect => cases stage <;> exact hfits
    | _ => exact hfits.elim

theorem Sound.error_eq_none (h : s.Sound valueText readDouble) (hawaited : s.awaited = true) :
    s.aboutToSearch = true ∨ s.error = none := by
  obtain ⟨j, ⟨task, source, stage⟩, hj, hat, hrunning⟩ := awaited_iff.mp hawaited
  obtain ⟨-, call, hat', hfits⟩ := h.newest j hj
  cases Option.some.inj (hat'.symm.trans hat)
  cases task with
  | search request texts =>
    right
    cases stage with
    | done result => exact absurd rfl (hrunning result)
    | signing old login => exact hfits.2.2.2
    | _ => exact hfits.2
  | pick => exact Or.inl (aboutToSearch_iff.mpr ⟨j, _, hj, hat, Or.inl rfl⟩)
  | connect => exact Or.inl (aboutToSearch_iff.mpr ⟨j, _, hj, hat, Or.inr rfl⟩)
  | _ => exact hfits.elim

omit [DecidableEq ν] in
theorem display_eq_showing (s : KibanaPage ν) (result : Except String String) (range : KibanaRange) :
    s.display readDouble result range =
      { s with loading := false }.showing (s.display readDouble result range).shown := by
  unfold display
  cases result with
  | error error => rfl
  | ok output =>
    dsimp only
    split <;> rfl

variable {request : KibanaSearch} {result : Except String String}

omit [DecidableEq ν] in
theorem display_shown (htime : request.timeField = s.timeField) (herror : s.error = none)
    (hmay : (∃ output found, result = .ok output ∧ parseKibanaHits readDouble s.timeField output = .ok found) ∨
      s.nothingFound = true) :
    (s.display readDouble result request.range).shown = outcome readDouble request result := by
  have hfound : s.nothingFound = true → s.result = none ∧ s.searched = none ∧ s.fields = [] ∧ s.samples = [] := by
    intro h
    have hshown := nothingFound_iff.mp h
    exact ⟨congrArg KibanaShown.result hshown, congrArg KibanaShown.searched hshown,
      congrArg KibanaShown.fields hshown, congrArg KibanaShown.samples hshown⟩
  unfold outcome
  rw [htime]
  cases result with
  | error error =>
    rcases hmay with ⟨_, _, hok, -⟩ | hmay
    · cases hok
    · obtain ⟨h₁, h₂, h₃, h₄⟩ := hfound hmay
      simp [display, shown, KibanaShown.nothing, h₁, h₂, h₃, h₄]
  | ok output =>
    rcases hmay with ⟨_, found, hok, hparse⟩ | hmay
    · cases hok
      simp [display, shown, hparse, herror]
    · obtain ⟨h₁, h₂, h₃, h₄⟩ := hfound hmay
      cases hparse : parseKibanaHits readDouble s.timeField output with
      | ok found => simp [display, shown, hparse, herror]
      | error failure =>
        cases failure with
        | format message => simp [display, shown, KibanaShown.nothing, hparse, h₁, h₂, h₃, h₄]
        | other => simp [display, shown, KibanaShown.nothing, hparse, h₁, h₂, h₃, h₄, herror]

variable {source : KibanaSource}

theorem sound_display (h : s.Sound valueText readDouble) {texts : KibanaTexts}
    (hat : s.calls[i]? = some ⟨.search request texts, source, stage⟩)
    (hown : s.newest = some i → s.Selected valueText source request texts ∧ s.error = none)
    (hmay : s.mayEnd readDouble i ⟨.search request texts, source, stage⟩ result = true) :
    Sound valueText readDouble
      (display readDouble { s with calls := s.calls.set i ⟨.search request texts, source, .done result⟩ } result
        request.range) := by
  unfold mayEnd at hmay
  dsimp only at hmay
  by_cases hnew : s.newest = some i
  · -- the newest search: its outcome is what is shown
    obtain ⟨hselected, herror⟩ := hown hnew
    have htime : request.timeField = s.timeField := congrArg KibanaSearch.timeField hselected.2.1
    have hmay' : (∃ output found, result = .ok output ∧ parseKibanaHits readDouble s.timeField output = .ok found) ∨
        s.nothingFound = true := by
      cases result with
      | error error =>
        right
        simpa [Except.toOption, hnew] using hmay
      | ok output =>
        cases hparse : parseKibanaHits readDouble s.timeField output with
        | ok found => exact Or.inl ⟨output, found, rfl, hparse⟩
        | error failure =>
          right
          cases failure <;> simpa [Except.toOption, hnew, hparse] using hmay
    have hshown := display_shown (s := { s with calls := s.calls.set i ⟨.search request texts, source, .done result⟩ })
      htime herror hmay'
    rw [display_eq_showing, hshown]
    obtain ⟨hcan, -⟩ := h.newest i hnew
    refine ⟨fun hnone => ?_, fun j hj => ?_, offered_set h.offered i fun _ hnone => nomatch hnone⟩
    · cases hnew.symm.trans hnone
    · cases Option.some.inj (hnew.symm.trans hj)
      refine ⟨hcan, _, List.getElem?_set_self (List.getElem?_eq_some_iff.mp hat).1, hselected, rfl⟩
  · -- an older one: it has to be made up for
    have hset : Sound valueText readDouble
        { s with calls := s.calls.set i ⟨.search request texts, source, .done result⟩ } :=
      h.set hat (fun heq => absurd heq hnew) fun _ hnone => nomatch hnone
    have hsame := newestCall_set hnew ⟨.search request texts, source, .done result⟩
    have hended : Sound valueText readDouble
        { s with calls := s.calls.set i ⟨.search request texts, source, .done result⟩, loading := false } :=
      ⟨hset.cleared, hset.newest, hset.offered⟩
    have habout : aboutToSearch { s with
        calls := s.calls.set i ⟨.search request texts, source, .done result⟩, loading := false } = s.aboutToSearch :=
      congrArg (fun call => match call.map KibanaCall.task with
        | some .pick | some .connect => true
        | _ => false) hsame
    have hawaited : awaited { s with
        calls := s.calls.set i ⟨.search request texts, source, .done result⟩, loading := false } = s.awaited :=
      congrArg (fun call => match call.map KibanaCall.stage with
        | some (.done _) | none => false
        | _ => true) hsame
    cases result with
    | error error =>
      have hfollows : s.aboutToSearch = true := by simpa [Except.toOption, hnew] using hmay
      exact hended.showing ⟨s.result, s.searched, s.fields, s.samples, some error⟩ (Or.inl (habout.trans hfollows))
    | ok output =>
      unfold display
      dsimp only
      cases hparse : parseKibanaHits readDouble s.timeField output with
      | ok found =>
        have hrunning : s.awaited = true := by simpa [Except.toOption, hnew, hparse] using hmay
        refine hended.showing ⟨some found, some request.range, kibanaFields found.hits, samplesOf found.hits,
          s.error⟩ ?_
        rcases h.error_eq_none hrunning with hfollows | herror
        · exact Or.inl (habout.trans hfollows)
        · exact Or.inr ⟨hawaited.trans hrunning, herror⟩
      | error failure =>
        cases failure with
        | format message =>
          have hfollows : s.aboutToSearch = true := by simpa [Except.toOption, hnew, hparse] using hmay
          exact hended.showing ⟨s.result, s.searched, s.fields, s.samples, some message⟩
            (Or.inl (habout.trans hfollows))
        | other => exact hended

theorem sound_connect (hoffered : s.Offered) (hcan : s.direct = true ∨ s.canSearch = true) (login : KibanaLogin) :
    (s.connect login).Sound valueText readDouble := by
  refine sound_begin ?_ ?_ rfl rfl trivial
  · exact hoffered
  · show (if s.direct = true then _ else _) = true
    rcases hcan with hdirect | hcan
    · rw [if_pos hdirect]
      rfl
    · unfold canSearch at hcan
      split
      · rfl
      · rw [if_neg (by assumption)] at hcan
        exact hcan

theorem sound_finish (h : s.Sound valueText readDouble) (hat : s.calls[i]? = some call)
    (hown : s.newest = some i → ∀ request texts, call.task = .search request texts →
      s.Selected valueText call.source request texts ∧ s.error = none)
    (hmay : s.mayEnd readDouble i call result = true) (now : Int) :
    Sound valueText readDouble
      (finish valueText readDouble { s with calls := s.calls.set i { call with stage := .done result } } call result
        now) := by
  obtain ⟨task, source, stage⟩ := call
  have hset : (s.newest = some i → Fits valueText readDouble s ⟨task, source, stage⟩ → False) →
      Sound valueText readDouble { s with calls := s.calls.set i ⟨task, source, .done result⟩ } :=
    fun hnew => h.set hat (fun heq hfits => (hnew heq hfits).elim) fun _ hnone => nomatch hnone
  have hoffered : Offered { s with calls := s.calls.set i ⟨task, source, .done result⟩ } :=
    offered_set h.offered i fun _ hnone => nomatch hnone
  have hcan : s.newest ≠ none → s.canSearch = true := by
    intro hsome
    obtain ⟨j, hj⟩ := Option.ne_none_iff_exists'.mp hsome
    exact (h.newest j hj).1
  cases task with
  | search request texts => exact sound_display h hat (fun hnew => hown hnew request texts rfl) hmay
  | dataViews =>
    have hended := hset fun _ hfits => hfits.elim
    have habout : s.aboutToSearch = true →
        aboutToSearch { s with calls := s.calls.set i ⟨.dataViews, source, .done result⟩ } = true := by
      intro hfollows
      obtain ⟨j, call, hj, hat', htask⟩ := aboutToSearch_iff.mp hfollows
      refine aboutToSearch_iff.mpr ⟨j, call, hj, ?_, htask⟩
      have hij : i ≠ j := by
        rintro rfl
        cases Option.some.inj (hat.symm.trans hat')
        rcases htask with htask | htask <;> cases htask
      exact (List.getElem?_set_ne hij).trans hat'
    have hkept : s.error = none → Sound valueText readDouble
        { s with loading := false, error := none, calls := s.calls.set i ⟨.dataViews, source, .done result⟩ } := by
      intro herror
      rw [← herror]
      exact ⟨hended.cleared, hended.newest, hended.offered⟩
    have hshows : ∀ error, s.aboutToSearch = true → Sound valueText readDouble
        { s with loading := false, error := error, calls := s.calls.set i ⟨.dataViews, source, .done result⟩ } := by
      intro error hfollows
      have hquiet : Sound valueText readDouble
          { s with loading := false, calls := s.calls.set i ⟨.dataViews, source, .done result⟩ } :=
        ⟨hended.cleared, hended.newest, hended.offered⟩
      exact hquiet.showing ⟨s.result, s.searched, s.fields, s.samples, error⟩ (Or.inl (habout hfollows))
    cases result with
    | error error => exact hshows (some error) (by simpa [mayEnd, Except.isOk, Except.toBool] using hmay)
    | ok output =>
      have hmay' : s.error = none ∨ s.aboutToSearch = true := by
        simpa [mayEnd, Except.isOk, Except.toBool] using hmay
      rcases hmay' with herror | hfollows
      · exact hkept herror
      · exact hshows none hfollows
  | pick =>
    unfold finish
    refine Sound.search ?_ ?_ ?_ now
    · exact h.cleared
    · exact hcan
    · exact hoffered
  | connect =>
    unfold finish
    refine Sound.search ?_ ?_ ?_ now
    · exact h.cleared
    · exact hcan
    · exact hoffered
  | edit old login =>
    have hended := hset fun _ hfits => hfits.elim
    unfold finish
    dsimp only
    split
    case isTrue heq =>
      have hconnect : s.direct = true ∨ s.canSearch = true := by simpa [mayEnd, heq] using hmay
      exact sound_connect hoffered hconnect login
    case isFalse => exact hended
  | restore => exact hset fun _ hfits => hfits.elim
  | save => exact hset fun _ hfits => hfits.elim

theorem selected_of_fits {texts : KibanaTexts}
    (hfits : s.Fits valueText readDouble ⟨.search request texts, source, stage⟩) (hplain : stage.plain = true) :
    s.Selected valueText source request texts ∧ s.error = none := by
  cases stage with
  | signing old login => cases hplain
  | done result => cases hplain
  | _ => exact hfits

theorem fits_of_plain {task : KibanaTask} {stage next : KibanaStage}
    (hfits : s.Fits valueText readDouble ⟨task, source, stage⟩) (hplain : stage.plain = true)
    (hnext : next.plain = true) : s.Fits valueText readDouble ⟨task, source, next⟩ := by
  cases task with
  | search request texts =>
    have hselected := selected_of_fits hfits hplain
    cases next with
    | signing old login => cases hnext
    | done result => cases hnext
    | _ => exact hselected
  | pick =>
    cases next with
    | done result => cases hnext
    | _ => trivial
  | connect =>
    cases next with
    | done result => cases hnext
    | _ => trivial
  | _ => exact hfits.elim

theorem Sound.same (h : s.Sound valueText readDouble) (logins : List KibanaLogin) (loading : Bool) :
    Sound valueText readDouble { s with logins := logins, loading := loading } := ⟨h.cleared, h.newest, h.offered⟩

theorem sound_sign (h : s.Sound valueText readDouble) {old : Option KibanaLogin}
    {login : KibanaLogin} (hat : s.calls[i]? = some call) (hstage : call.stage = .signIn old)
    (hauth : login.auth.isSome = true)
    (hmay : s.mayReact readDouble i call (.sign old login) = true) :
    Sound valueText readDouble
      { s with login := some login, calls := s.calls.set i { call with stage := .signing old login } } := by
  obtain ⟨task, source, stage⟩ := call
  cases hstage
  have hsource : source = .kibana old := h.offered _ (List.mem_of_getElem? hat) old rfl
  have hoffered : Offered { s with calls := s.calls.set i ⟨task, source, .signing old login⟩ } := by
    refine offered_set h.offered i fun old' hold => ?_
    cases hold
    exact hsource
  refine ⟨h.cleared, fun j hj => ?_, hoffered⟩
  obtain ⟨hcan, newest, hnewest, hfits⟩ := h.newest j hj
  have hcan' : canSearch { s with
      login := some login, calls := s.calls.set i ⟨task, source, .signing old login⟩ } = true := by
    unfold canSearch at hcan ⊢
    dsimp only
    split
    · rfl
    · rw [if_neg (by assumption)] at hcan
      exact hcan
  refine ⟨hcan', ?_⟩
  by_cases heq : i = j
  · subst heq
    cases Option.some.inj (hat.symm.trans hnewest)
    refine ⟨⟨task, source, .signing old login⟩, List.getElem?_set_self (List.getElem?_eq_some_iff.mp hat).1, ?_⟩
    cases task with
    | search request texts =>
      obtain ⟨⟨hplace, -, hrange⟩, herror⟩ := hfits
      have hdirect : s.direct = true := by
        cases hdirect : s.direct with
        | true => rfl
        | false =>
          rw [hsource] at hplace
          unfold KibanaPage.source at hplace
          rw [hdirect] at hplace
          cases hplace
      exact ⟨hdirect, hrange, hauth, herror⟩
    | pick => trivial
    | connect => trivial
    | _ => exact hfits.elim
  · refine ⟨newest, (List.getElem?_set_ne heq).trans hnewest, ?_⟩
    have hcases : s.login = some login ∨ s.aboutToSearch = true := by
      have hnew : s.newest = some j := hj
      have hne : ¬ j = i := fun h => heq h.symm
      simpa [mayReact, hnew, hne] using hmay
    rcases hcases with hsame | hfollows
    · have hpage : ({ s with login := some login } : KibanaPage ν) = s := by
        rw [← hsame]
      have hfits' : Fits valueText readDouble { s with login := some login } newest := by
        rw [hpage]
        exact hfits
      exact hfits'
    · obtain ⟨j', call, hj', hat', htask⟩ := aboutToSearch_iff.mp hfollows
      cases Option.some.inj (hj.symm.trans hj')
      cases Option.some.inj (hnewest.symm.trans hat')
      obtain ⟨task', source', stage'⟩ := newest
      rcases htask with htask | htask
      · cases htask
        cases stage' <;> exact hfits
      · cases htask
        cases stage' <;> exact hfits

/-- A call that may go on keeps the invariant. -/
theorem sound_react (h : s.Sound valueText readDouble) (hat : s.calls[i]? = some call)
    (hfrom : reply.From call.task call.stage)
    (hmay : s.mayReact readDouble i call reply = true) (now : Int) :
    (s.react valueText readDouble i call now reply).Sound valueText readDouble := by
  obtain ⟨task, source, stage⟩ := call
  cases reply with
  | restore saved =>
    cases hfrom
    have hset : Sound valueText readDouble { s with calls := s.calls.set i ⟨.restore, source, .done (.ok "")⟩ } :=
      h.set hat (fun _ hfits => hfits.elim) fun _ hnone => nomatch hnone
    unfold react
    dsimp only
    split
    case isTrue => exact hset
    case isFalse hsome =>
      have hcases : s.direct = true ∨ s.newest = none := by
        simpa [mayReact, hsome] using hmay
      rcases hcases with hdirect | hnone
      · rw [← hdirect]
        exact hset.same saved s.loading
      · refine ⟨hset.cleared, fun j hj => ?_, hset.offered⟩
        cases hnone.symm.trans hj
  | wait next =>
    obtain ⟨hplain, hnext, hprofile⟩ := hfrom
    refine h.set hat (fun _ hfits => fits_of_plain hfits hplain hnext) fun old hold => ?_
    rw [hprofile] at hold
    cases hold
  | ask =>
    have hsource : source = .kibana s.login := of_decide_eq_true hmay
    have hset : Sound valueText readDouble { s with calls := s.calls.set i ⟨task, source, .signIn s.login⟩ } := by
      refine h.set hat (fun _ hfits => fits_of_plain hfits hfrom rfl) fun old hold => ?_
      cases hold
      exact hsource
    exact hset.same s.logins false
  | sign old login =>
    obtain ⟨hstage, hauth⟩ := hfrom
    exact (sound_sign h hat hstage hauth hmay).same _ _
  | resend =>
    obtain ⟨old, login, ⟨⟩⟩ := hfrom
    have hresent : s.newest = some i → s.Fits valueText readDouble ⟨task, source, .signing old login⟩ →
        s.Fits valueText readDouble (s.resent valueText ⟨task, source, .signing old login⟩) := by
      intro _ hfits
      cases task with
      | search request texts =>
        obtain ⟨hdirect, hrange, -, herror⟩ := hfits
        have hsource : KibanaSource.kibana s.login = s.source s.texts := by
          unfold KibanaPage.source
          rw [if_pos hdirect]
        exact ⟨⟨hsource, rfl, hrange⟩, herror⟩
      | pick => trivial
      | connect => trivial
      | _ => exact hfits.elim
    exact (h.set hat hresent fun _ hnone => nomatch hnone).same s.logins true
  | finish result =>
    refine sound_finish h hat (fun hnew request texts htask => ?_) hmay now
    cases htask
    obtain ⟨-, newest, hnewest, hfits⟩ := h.newest i hnew
    cases Option.some.inj (hat.symm.trans hnewest)
    rcases hfrom with hplain | ⟨old, login, hstage, hauth⟩
    · exact selected_of_fits hfits hplain
    · cases hstage
      have hsome : login.auth.isSome = true := hfits.2.2.1
      rw [hauth] at hsome
      cases hsome

/-- An answer keeps the invariant. -/
theorem sound_answer (h : s.Sound valueText readDouble) {answer : KibanaAnswer} (hat : s.calls[i]? = some call)
    (hreply : call.task.reply readDouble thrown call.stage answer = some reply)
    (hsave : s.maySave call answer = true)
    (hmay : (s.saved answer).mayReact readDouble i call reply = true) (now : Int) :
    ((s.saved answer).react valueText readDouble i call now reply).Sound valueText readDouble := by
  have hfrom := KibanaTask.reply_from hreply
  obtain ⟨task, source, stage⟩ := call
  cases answer with
  | written error =>
    cases error with
    | none => exact sound_react h hat hfrom hmay now
    | some error =>
      have hcases : s.aboutToSearch = true ∨ (task = .connect ∧ stage = .writing) ∧ s.canSearch = true := by
        simpa [maySave] using hsave
      rcases hcases with hfollows | ⟨⟨rfl, rfl⟩, hcan⟩
      · have hshows := h.showing ⟨s.result, s.searched, s.fields, s.samples, some ("Login not saved: " ++ error)⟩
          (Or.inl hfollows)
        exact sound_react hshows hat hfrom hmay now
      · cases hreply
        have hoffered : Offered { s with
            error := some ("Login not saved: " ++ error)
            calls := s.calls.set i ⟨.connect, source, .done (.ok "")⟩ } :=
          offered_set h.offered i fun _ hnone => nomatch hnone
        exact sound_search hoffered hcan now
  | _ => exact sound_react h hat hfrom hmay now

omit [DecidableEq ν] in
theorem canSearch_of_ready (h : s.ready = true) : s.canSearch = true := by
  unfold ready at h
  unfold canSearch
  split
  · rw [if_pos (by assumption)] at h
    exact h
  · rw [if_neg (by assumption)] at h
    exact (Bool.and_eq_true_iff.mp h).2

theorem canSearch_change (change : FilterChange ν) : (s.change change).canSearch = s.canSearch := by
  cases change <;> rfl

theorem offered_change (h : s.Offered) (change : FilterChange ν) : (s.change change).Offered := by
  cases change <;> exact h

variable {s' : KibanaPage ν}

theorem Sound.clear (h : s.Sound valueText readDouble) (hfound : s.nothingFound = true)
    (hshown : s'.shown = ⟨none, s.searched, s.fields, s.samples, none⟩) (hnewest : s'.newest = none)
    (hcalls : s'.calls = s.calls) : s'.Sound valueText readDouble := by
  refine ⟨fun _ => ?_, fun i hi => ?_, ?_⟩
  · rw [hshown]
    have hnothing := nothingFound_iff.mp hfound
    rw [KibanaShown.nothing, KibanaShown.mk.injEq]
    exact ⟨rfl, congrArg KibanaShown.searched hnothing, congrArg KibanaShown.fields hnothing,
      congrArg KibanaShown.samples hnothing, rfl⟩
  · cases hnewest.symm.trans hi
  · unfold Offered
    rw [hcalls]
    exact h.offered

theorem sound_step (h : s.Sound valueText readDouble) {e : KibanaEvent ν × Int} {o : List Unit}
    (hcareful : s.careful readDouble thrown e.1 = true)
    (hstep : s.step valueText readDouble thrown e = some (s', o)) : s'.Sound valueText readDouble := by
  obtain ⟨event, now⟩ := e
  unfold step at hstep
  split at hstep
  case isFalse => cases hstep
  case isTrue hoffers =>
    have hcan : s.newest ≠ none → s.canSearch = true := by
      intro hsome
      obtain ⟨j, hj⟩ := Option.ne_none_iff_exists'.mp hsome
      exact (h.newest j hj).1
    dsimp only at hstep hcareful hoffers
    cases event with
    | edit texts =>
      cases hstep
      exact ⟨h.cleared, h.newest, h.offered⟩
    | search =>
      cases hstep
      cases hsend : s.canSearch with
      | true => exact sound_search h.offered hsend now
      | false =>
        rw [search_eq_self hsend]
        exact h
    | filter change =>
      cases hstep
      have hsend : (s.change change).canSearch = true := (canSearch_change change).trans (canSearch_of_ready hoffers)
      exact sound_search (offered_change h.offered change) hsend now
    | setLast last =>
      cases hstep
      exact sound_search (s := { s with last := last, absolute := none }) h.offered (canSearch_of_ready hoffers) now
    | zoom range =>
      cases hstep
      exact sound_search (s := { s with absolute := some range }) h.offered (canSearch_of_ready hoffers) now
    | pickServer id =>
      cases hstep
      obtain ⟨hdirect, hsaved⟩ := Bool.and_eq_true_iff.mp hoffers
      split
      case isTrue =>
        have hsend : canSearch { s with profileId := some id } = true := by
          unfold canSearch
          dsimp only
          rw [if_neg (by simpa using hdirect)]
          exact hsaved
        exact sound_search (s := { s with profileId := some id }) h.offered hsend now
      case isFalse hready =>
        have hcases : s.newest = none ∨ s.profileId = some id := by simpa [careful, hready] using hcareful
        rcases hcases with hnone | hsame
        · refine ⟨h.cleared, fun j hj => ?_, h.offered⟩
          cases hnone.symm.trans hj
        · rw [← hsame]
          exact h
    | pickDataView view =>
      cases hstep
      have hready : s.ready = true := (Bool.and_eq_true_iff.mp hoffers).2
      refine sound_begin ?_ ?_ rfl rfl trivial
      · exact h.offered
      · exact canSearch_of_ready hready
    | loadDataViews =>
      cases hstep
      have hquiet : Sound valueText readDouble { s with loading := true, error := none } := by
        have hcases : s.error = none ∨ s.aboutToSearch = true := by simpa [careful] using hcareful
        rcases hcases with herror | hfollows
        · rw [← herror]
          exact h.same s.logins true
        · exact (h.showing ⟨s.result, s.searched, s.fields, s.samples, none⟩ (Or.inl hfollows)).same s.logins true
      exact hquiet.begin rfl rfl
    | connect login =>
      cases hstep
      exact sound_connect h.offered (Or.inl hoffers) login
    | disconnect =>
      cases hstep
      exact h.clear hcareful rfl rfl rfl
    | newLogin login =>
      cases hstep
      refine Sound.begin ?_ rfl rfl
      exact h.same _ _
    | editLogin old login =>
      cases hstep
      refine Sound.begin ?_ rfl rfl
      exact h.same _ _
    | deleteLogin login =>
      cases hstep
      have hcleared : Sound valueText readDouble (if some login = s.login then s.disconnect else s) := by
        split
        case isTrue heq =>
          have hfound : s.nothingFound = true := by simpa [careful, heq] using hcareful
          exact h.clear hfound rfl rfl rfl
        case isFalse => exact h
      exact (hcleared.same _ _).begin rfl rfl
    | connectSsh =>
      cases hstep
      cases hsend : s.canSearch with
      | true => exact sound_search (s := { s with sshConnected := true }) h.offered hsend now
      | false =>
        have heq : search valueText { s with sshConnected := true } now = { s with sshConnected := true } :=
          search_eq_self (s := { s with sshConnected := true }) hsend now
        rw [heq]
        exact ⟨h.cleared, h.newest, h.offered⟩
    | disconnectSsh =>
      cases hstep
      exact h.clear hcareful rfl rfl rfl
    | setDirect direct =>
      cases hstep
      unfold setDirect
      split
      case isTrue => exact h
      case isFalse hne =>
        have hfound : s.nothingFound = true := by simpa [careful, hne] using hcareful
        exact h.clear hfound rfl rfl rfl
    | answer i answer =>
      obtain ⟨call, hat, hcall⟩ := Option.bind_eq_some_iff.mp hstep
      obtain ⟨reply, hreply, ⟨⟩⟩ := Option.map_eq_some_iff.mp hcall
      have hmay : s.maySave call answer = true ∧ (s.saved answer).mayReact readDouble i call reply = true := by
        simpa [careful, hat, hreply] using hcareful
      exact sound_answer h hat hreply hmay.1 hmay.2 now

theorem storedInto_of_offered (h : s.Offered) {e : KibanaEvent ν × Int} {o : List Unit}
    (hstep : s.step valueText readDouble thrown e = some (s', o)) : s.StoredInto e.1 s' := by
  intro i login call old hevent hat hstage
  obtain ⟨event, now⟩ := e
  cases hevent
  obtain ⟨call', hat', hcall⟩ := Option.bind_eq_some_iff.mp hstep
  cases Option.some.inj (hat.symm.trans hat')
  obtain ⟨reply, hreply, heq⟩ := Option.map_eq_some_iff.mp hcall
  obtain ⟨task, source, stage⟩ := call
  cases hstage
  have hsign : (if login.auth.isSome then some (KibanaReply.sign old login) else none) = some reply := hreply
  split at hsign
  case isTrue =>
    cases hsign
    cases heq
    exact ⟨h _ (List.mem_of_getElem? hat) old rfl, rfl, rfl⟩
  case isFalse => cases hsign

def opened (profiles : List String) : KibanaPage ν := { profiles := profiles }

theorem sound_opened (profiles : List String) : (opened profiles : KibanaPage ν).Sound valueText readDouble := by
  refine ⟨fun _ => rfl, fun i hi => ?_, fun call hmem old hold => ?_⟩
  · cases hi
  · rw [List.mem_singleton.mp hmem] at hold
    cases hold

/-- On a run of careful steps the results belong to what is selected, and the sign-ins to what they were
asked for by. -/
theorem results_of_selection (valueText : ν → ValueText) (readDouble thrown : String → String)
    (profiles : List String) (h : List Unit) (s : KibanaPage ν)
    (hreach : Reaches (step valueText readDouble thrown) (fun s e => s.careful readDouble thrown e.1 = true)
      (opened profiles) h s) :
    s.Belongs valueText readDouble ∧ s.Offered ∧
      ∀ e s' o, s.step valueText readDouble thrown e = some (s', o) → s.StoredInto e.1 s' := by
  have hsound : s.Sound valueText readDouble :=
    hreach.invariant (I := fun _ s => s.Sound valueText readDouble) (sound_opened profiles)
      fun hsound hcareful hstep => sound_step hsound hcareful hstep
  exact ⟨hsound.belongs, hsound.offered, fun e s' o hstep => storedInto_of_offered hsound.offered hstep⟩

def acme : KibanaLogin := ⟨"acme", "https://acme", some ⟨true, "", "k"⟩⟩

def beta : KibanaLogin := ⟨"beta", "https://beta", some ⟨true, "", "l"⟩⟩

def document (time : String) : String :=
  "\x7b\"hits\":\x7b\"hits\":[\x7b\"_source\":\x7b\"@timestamp\":\"" ++ time ++ "\"\x7d\x7d]\x7d\x7d"

def times (s : KibanaPage String) : Option (List String) := s.result.map fun result => result.hits.map KibanaHit.time

def searching : List (KibanaEvent String × Int) :=
  [(.answer 0 (.logins [acme, beta]), 0), (.connect acme, 0), (.answer 1 (.written none), 0)]

def unauthorized : String :=
  "\x7b\"statusCode\":401,\"error\":\"Unauthorized\",\"message\":\"x\"\x7d"

/-- The query is changed while its first search is on its way; the second one asks for a sign-in, and the first is
answered meanwhile. -/
def signingIn : List (KibanaEvent String × Int) :=
  searching ++ [(.edit { query := "error" }, 1), (.search, 1),
    (.answer 3 (.response (.ok unauthorized)), 2), (.answer 2 (.response (.ok (document "morning"))), 3),
    (.answer 3 (.login (some ⟨"acme", "https://acme", some ⟨true, "", "new"⟩⟩)), 4),
    (.answer 3 (.written none), 5), (.answer 3 (.response (.ok (document "noon"))), 6)]

theorem results_of_selection_signed : ∃ h s, Reaches (step ValueText.one id id)
      (fun s e => s.careful id id e.1 = true) (opened []) h s ∧ s.times = some ["noon"] ∧
    s.Belongs ValueText.one id ∧ s.Offered ∧
      ∀ e s' o, s.step ValueText.one id id e = some (s', o) → s.StoredInto e.1 s' := by
  obtain ⟨h, s, hreach, htimes⟩ := Reaches.exists_of_checkedEvents (step ValueText.one id id) (opened [])
    (P := fun s => s.times = some ["noon"]) (fun s e => s.careful id id e.1) (fun _ _ => id) signingIn
    (by decide +kernel)
  exact ⟨h, s, hreach, htimes, results_of_selection ValueText.one id id [] h s hreach⟩

def switching : List (KibanaEvent String × Int) :=
  searching ++ [(.disconnect, 1), (.connect beta, 2), (.answer 3 (.written none), 2)]

def betaSearch : KibanaSearch := ⟨"*", "", ⟨2 - 900000000, 2⟩, "@timestamp", 200⟩

/-- The documents of one profile are shown for another one, whose search was answered first; and the sign-in
that the first one asks for is offered for the other one. -/
theorem results_of_other_profile :
    (∃ h s, Reaches (step ValueText.one id id) (fun _ _ => True) (opened []) h s ∧
      s.login = some beta ∧ s.times = some ["of acme"] ∧ ¬ s.Belongs ValueText.one id) ∧
    ∃ h s, Reaches (step ValueText.one id id) (fun _ _ => True) (opened []) h s ∧ ¬ s.Offered := by
  constructor
  · obtain ⟨h, s, hreach, ⟨hlogin, htimes⟩, hcalls, hnewest⟩ :=
      Reaches.exists_of_events (step ValueText.one id id) (opened [])
        (P := fun s => (s.login = some beta ∧ s.times = some ["of acme"]) ∧
          s.calls = [⟨.restore, .kibana none, .done (.ok "")⟩,
            ⟨.connect, .kibana (some acme), .done (.ok "")⟩,
            ⟨.search ⟨"*", "", ⟨0 - 900000000, 0⟩, "@timestamp", 200⟩ {}, .kibana (some acme),
              .done (.ok (document "of acme"))⟩,
            ⟨.connect, .kibana (some beta), .done (.ok "")⟩,
            ⟨.search betaSearch {}, .kibana (some beta), .done (.ok (document "of beta"))⟩] ∧
          s.newest = some 4)
        (switching ++ [(.answer 4 (.response (.ok (document "of beta"))), 3),
          (.answer 2 (.response (.ok (document "of acme"))), 4)]) (by decide +kernel)
    refine ⟨h, s, hreach, hlogin, htimes, fun hbelongs => ?_⟩
    have hidle : s.Idle := by
      intro call hmem hsearches
      rw [hcalls] at hmem
      simp only [List.mem_cons, List.not_mem_nil, or_false] at hmem
      rcases hmem with rfl | rfl | rfl | rfl | rfl <;> exact ⟨_, rfl⟩
    have hnew := hbelongs hidle
    rw [hnewest] at hnew
    obtain ⟨request, texts, source, result, hat, -, hshown⟩ := hnew
    rw [hcalls] at hat
    cases hat
    have hresult : s.times = some ["of beta"] := by
      have hfound : ((outcome id betaSearch (.ok (document "of beta"))).result.map fun result =>
          result.hits.map KibanaHit.time) = some ["of beta"] := by decide +kernel
      rw [← hshown] at hfound
      exact hfound
    rw [htimes] at hresult
    exact absurd hresult (by decide)
  · obtain ⟨h, s, hreach, hcalls⟩ := Reaches.exists_of_events (step ValueText.one id id) (opened [])
      (P := fun s => ∃ call ∈ s.calls, call.source = .kibana (some acme) ∧ call.stage = .signIn (some beta))
      (switching ++ [(.answer 2 (.response (.ok unauthorized)), 3)]) (by decide +kernel)
    refine ⟨h, s, hreach, fun hoffered => ?_⟩
    obtain ⟨call, hmem, hsource, hstage⟩ := hcalls
    have hprofile : call.stage.profile = some (some beta) := by
      rw [hstage]
      rfl
    have hown := (hoffered call hmem (some beta) hprofile).symm.trans hsource
    exact absurd hown (by decide)

end KibanaPage

end Portix.Kibana
