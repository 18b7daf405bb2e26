import Portix.Kibana.KibanaLogins
import Portix.Lib.Proofs.JsonProofs

/-!
# No profile of Kibana is lost

The list of the page is written whole on every change, and it starts empty. So nothing is lost as long as the list
is not changed before it was read, what was read late has all that is on the page, and the writes take effect in
their order.
-/

namespace Portix.Kibana

open Lib Json

section Secret

variable (readDouble : String → String)

theorem decodeLogin_loginEntries (login : KibanaLogin) : decodeLogin (.map (loginEntries login)) = some login := by
  obtain ⟨name, url, auth⟩ := login
  cases auth <;> rfl

theorem plain_loginEntries (login : KibanaLogin) : Json.plain (.map (loginEntries login)) = true := by
  obtain ⟨name, url, auth⟩ := login
  cases auth <;> simp [loginEntries, plain, plainEntries]

theorem plainItems_logins (logins : List KibanaLogin) :
    plainItems (logins.map fun login => .map (loginEntries login)) = true := by
  induction logins with
  | nil => rfl
  | cons login rest ih =>
    rw [List.map_cons, plainItems, plain_loginEntries, ih]
    rfl

theorem decode_encodeKibanaLogins (logins : List KibanaLogin) :
    decodeKibanaLogins readDouble (some (encodeKibanaLogins logins)) = logins := by
  have hplain : Json.plain (.list (logins.map fun login => .map (loginEntries login))) = true := by
    rw [plain]
    exact plainItems_logins logins
  unfold decodeKibanaLogins encodeKibanaLogins
  rw [Option.getD_some, decode_encode readDouble compact hplain]
  show (logins.map fun login => .map (loginEntries login)).filterMap decodeLogin = logins
  rw [List.filterMap_map]
  exact (List.filterMap_congr fun login _ => decodeLogin_loginEntries login).trans List.filterMap_some

theorem decode_secret (w : KibanaWrite) : decodeKibanaLogins readDouble w.secret = w.logins := by
  unfold KibanaWrite.secret
  split
  case isTrue hnone =>
    rw [hnone]
    rfl
  case isFalse => exact decode_encodeKibanaLogins readDouble w.logins

end Secret

namespace KibanaChange

variable {change : KibanaChange} {login : KibanaLogin} {logins : List KibanaLogin}

theorem mem_kept : login ∈ change.kept logins ↔ login ∈ logins ∧ change.drops login = false := by
  rw [kept, List.mem_filter, Bool.not_eq_true']

theorem mem_apply (hmem : login ∈ logins) (hdrops : change.drops login = false) : login ∈ change.apply logins := by
  cases change with
  | save old new =>
    by_cases hnew : login = new
    · exact hnew ▸ List.mem_cons_self
    · have hold : some login ≠ old := by
        rintro rfl
        simp [drops, hnew] at hdrops
      exact List.mem_cons_of_mem _ (List.mem_filter.mpr ⟨hmem, decide_eq_true ⟨hold, hnew⟩⟩)
  | delete deleted => exact List.mem_filter.mpr ⟨hmem, decide_eq_true (of_decide_eq_false hdrops)⟩

end KibanaChange

/-- The list that a reply puts in place of the page's, and the one that an event brings for it. -/
def KibanaReply.loginsRead : KibanaReply → Option (List KibanaLogin)
  | .restore logins => some logins
  | .wait _ | .ask | .sign _ _ | .resend | .finish _ => none

def KibanaAnswer.loginsRead : KibanaAnswer → Option (List KibanaLogin)
  | .logins saved => some saved
  | .response _ | .hostKey _ | .prompts _ | .login _ | .written _ => none

def KibanaEvent.loginsRead {ν : Type} : KibanaEvent ν → Option (List KibanaLogin)
  | .answer _ a => a.loginsRead
  | _ => none

theorem KibanaTask.loginsRead_reply {readDouble thrown : String → String} {task : KibanaTask} {stage : KibanaStage}
    {answer : KibanaAnswer} {reply : KibanaReply} (h : task.reply readDouble thrown stage answer = some reply) :
    reply.loginsRead = answer.loginsRead := by
  have hkibana : ∀ retried result, (task.kibana readDouble thrown retried result).loginsRead = none := by
    intro retried result
    unfold KibanaTask.kibana
    split
    · rfl
    · split
      · rfl
      · split <;> rfl
      · rfl
  unfold KibanaTask.reply at h
  split at h
  case h_1 =>
    split at h
    · cases h
      rfl
    · cases h
  case h_2 retried result => exact (Option.some.inj h) ▸ hkibana retried result
  case h_12 =>
    split at h
    · cases h
      rfl
    · cases h
  case h_13 => split at h <;> cases h <;> rfl
  all_goals cases h
  all_goals rfl

namespace KibanaPage

variable {ν : Type} {readDouble thrown : String → String}

theorem logins_display (s : KibanaPage ν) (result : Except String String) (range : KibanaRange) :
    (s.display readDouble result range).logins = s.logins := by
  unfold display
  dsimp only
  split
  · rfl
  · split <;> rfl

theorem logins_setDirect (s : KibanaPage ν) (direct : Bool) : (s.setDirect direct).logins = s.logins := by
  unfold setDirect
  split <;> rfl

def loginsAfter (s : KibanaPage ν) : Option (KibanaChange × Nat) → Option (List KibanaLogin) → List KibanaLogin
  | some (change, _), _ => change.apply s.logins
  | none, some logins => if logins = [] then s.logins else logins
  | none, none => s.logins

theorem changes_of_loginsRead {s : KibanaPage ν} {e : KibanaEvent ν} {logins : List KibanaLogin}
    (h : e.loginsRead = some logins) : s.changes readDouble thrown e = none := by
  cases e with
  | answer i answer =>
    rw [changes, Option.bind_eq_none_iff]
    intro call _
    rw [Option.bind_eq_none_iff]
    intro reply hreply
    have hread := (KibanaTask.loginsRead_reply hreply).trans h
    cases reply with
    | restore logins => rfl
    | wait stage => cases hread
    | ask => cases hread
    | sign old login => cases hread
    | resend => cases hread
    | finish result => cases hread
  | _ => cases h

variable [DecidableEq ν] {valueText : ν → ValueText}

theorem logins_search (s : KibanaPage ν) (now : Int) : (s.search valueText now).logins = s.logins := by
  unfold search
  dsimp only
  split
  · split <;> rfl
  · split <;> rfl

theorem logins_change (s : KibanaPage ν) (change : FilterChange ν) : (s.change change).logins = s.logins := by
  cases change <;> rfl

theorem logins_react (s : KibanaPage ν) (i : Nat) (call : KibanaCall) (now : Int) (reply : KibanaReply) :
    (s.react valueText readDouble i call now reply).logins =
      s.loginsAfter (s.changesOn i call reply) reply.loginsRead := by
  obtain ⟨task, source, stage⟩ := call
  cases reply with
  | restore logins =>
    unfold react
    dsimp only
    split <;> rename_i hnone <;> simp [changesOn, loginsAfter, KibanaReply.loginsRead, hnone]
  | wait stage => rfl
  | ask => rfl
  | sign old login => rfl
  | resend => rfl
  | finish result =>
    unfold react finish
    cases task with
    | search request texts => exact logins_display _ _ _
    | pick => exact logins_search _ _
    | connect => exact logins_search _ _
    | edit old login =>
      dsimp only [changesOn]
      split <;> rfl
    | dataViews => rfl
    | restore => rfl
    | save => rfl

theorem logins_step {s s' : KibanaPage ν} {e : KibanaEvent ν} {now : Int} {o : List Unit}
    (h : s.step valueText readDouble thrown (e, now) = some (s', o)) :
    s'.logins = s.loginsAfter (s.changes readDouble thrown e) e.loginsRead := by
  unfold step at h
  split at h
  case isFalse => cases h
  cases e with
  | answer i answer =>
    obtain ⟨call, hat, hcall⟩ := Option.bind_eq_some_iff.mp h
    obtain ⟨reply, hreply, ⟨⟩⟩ := Option.map_eq_some_iff.mp hcall
    have hchanges : s.changes readDouble thrown (.answer i answer) = s.changesOn i call reply := by
      rw [changes, hat, Option.bind_some, hreply, Option.bind_some]
    rw [hchanges, KibanaEvent.loginsRead, ← KibanaTask.loginsRead_reply hreply, logins_react]
    unfold saved
    split <;> rfl
  | edit texts => cases h; rfl
  | search => cases h; exact logins_search s now
  | filter change =>
    cases h
    rw [logins_search, logins_change]
    rfl
  | setLast last => cases h; exact logins_search _ now
  | zoom range => cases h; exact logins_search _ now
  | pickServer id =>
    cases h
    dsimp only
    split
    · exact logins_search _ now
    · rfl
  | pickDataView view => cases h; rfl
  | loadDataViews => cases h; rfl
  | connect login => cases h; rfl
  | disconnect => cases h; rfl
  | newLogin login => cases h; rfl
  | editLogin old login => cases h; rfl
  | deleteLogin login =>
    cases h
    split <;> rfl
  | connectSsh => cases h; exact logins_search _ now
  | disconnectSsh => cases h; rfl
  | setDirect direct => cases h; exact logins_setDirect s direct

end KibanaPage

namespace KibanaKeychain

variable {ν : Type} (readDouble : String → String)

/-- What holds while all steps are careful. -/
structure Safe (s : KibanaKeychain ν) : Prop where
  stored : ∀ login ∈ s.saved, login ∈ decodeKibanaLogins readDouble s.secret
  awaited : ∀ w ∈ s.writes, (∀ login ∈ s.saved, login ∈ w.logins) ∧ ∀ login ∈ w.wanted, login ∈ w.logins
  ordered : s.writes.Pairwise fun older w => ∀ login ∈ older.wanted, login ∈ w.logins
  shown : s.restored = true → (∀ login ∈ s.saved, login ∈ s.page.logins) ∧
    ∀ w ∈ s.writes, ∀ login ∈ w.wanted, login ∈ s.page.logins
  untouched : s.restored = false →
    s.writes = [] ∧ s.restore ≠ .failed ∧ ∀ raw, s.restore = .read raw → raw = s.secret

variable {readDouble} {thrown : String → String} {s : KibanaKeychain ν}

theorem restored_iff : s.restored = true ↔ s.atStart = [] ∨ s.restore = .ended := by
  rw [restored, Bool.or_eq_true, decide_eq_true_iff, decide_eq_true_iff]

theorem restored_eq_false_iff : s.restored = false ↔ s.atStart ≠ [] ∧ s.restore ≠ .ended := by
  rw [← Bool.not_eq_true, restored_iff, not_or]

theorem Safe.keeps (h : s.Safe readDouble) : s.Keeps readDouble :=
  ⟨fun _ => h.stored, fun hended => (h.shown (restored_iff.mpr (Or.inr hended))).1⟩

theorem safe_opened (profiles : List String) (secret : Option String) :
    (opened readDouble profiles secret : KibanaKeychain ν).Safe readDouble where
  stored := fun _ hlogin => hlogin
  awaited := fun _ hw => nomatch hw
  ordered := List.Pairwise.nil
  shown := by
    intro hrestored
    have hnone : decodeKibanaLogins readDouble secret = [] :=
      (restored_iff.mp hrestored).resolve_right fun hended => nomatch hended
    refine ⟨fun login hlogin => ?_, fun _ hw => nomatch hw⟩
    have hmem : login ∈ decodeKibanaLogins readDouble secret := hlogin
    rw [hnone] at hmem
    cases hmem
  untouched := fun _ => ⟨rfl, KibanaRestore.noConfusion, fun _ => KibanaRestore.noConfusion⟩

theorem Safe.read (h : s.Safe readDouble) (hreading : s.restore = .reading) {fails : Bool}
    (hcareful : s.careful readDouble thrown (.read fails) = true) :
    Safe readDouble { s with restore := if fails then .failed else .read s.secret } := by
  have hrestored : ∀ restore, restore ≠ .ended →
      ({ s with restore := restore } : KibanaKeychain ν).restored = true → s.restored = true := by
    intro restore hrestore hrestored
    exact restored_iff.mpr (Or.inl ((restored_iff.mp hrestored).resolve_right hrestore))
  refine ⟨h.stored, h.awaited, h.ordered, fun hnow => h.shown (hrestored _ ?_ hnow), fun hnot => ?_⟩
  · cases fails <;> exact fun hended => nomatch hended
  · have hstart : s.atStart ≠ [] := (restored_eq_false_iff.mp hnot).1
    have hnone : s.restored = false :=
      restored_eq_false_iff.mpr ⟨hstart, by rw [hreading]; exact KibanaRestore.noConfusion⟩
    have hworks : fails = false := by
      simpa [careful, hstart] using hcareful
    subst hworks
    refine ⟨(h.untouched hnone).1, KibanaRestore.noConfusion, fun raw hread => ?_⟩
    exact (KibanaRestore.read.inj hread).symm

theorem Safe.write (h : s.Safe readDouble) {k : Nat} {w : KibanaWrite} (hat : s.writes[k]? = some w)
    {error : Option String} (outcomes : List (Nat × Option String))
    (hcareful : s.careful readDouble thrown (.write k error) = true) :
    (error.isSome = true → Safe readDouble { s with writes := s.writes.eraseIdx k, outcomes := outcomes }) ∧
      (error.isSome = false → Safe readDouble { s with
        writes := s.writes.eraseIdx k
        outcomes := outcomes
        secret := w.secret
        saved := s.saved ++ w.wanted }) := by
  have hw : w ∈ s.writes := List.mem_of_getElem? hat
  have hrestored : s.restored = true := by
    by_contra hnot
    rw [(h.untouched (Bool.eq_false_iff.mpr hnot)).1] at hw
    cases hw
  have hmem : ∀ w' ∈ s.writes.eraseIdx k, w' ∈ s.writes := fun w' hw' => List.mem_of_mem_eraseIdx hw'
  have hordered := h.ordered.sublist (List.eraseIdx_sublist s.writes k)
  have hshown := h.shown hrestored
  constructor
  · intro _
    refine ⟨h.stored, fun w' hw' => h.awaited w' (hmem w' hw'), hordered, fun _ => ?_, fun hnot => ?_⟩
    · exact ⟨hshown.1, fun w' hw' => hshown.2 w' (hmem w' hw')⟩
    · exact absurd hrestored (Bool.eq_false_iff.mp hnot)
  · intro hnone
    have holder : ∀ older ∈ s.writes.take k, ∀ login ∈ w.logins, login ∈ older.logins := by
      simpa [careful, hnone, hat] using hcareful
    have hrest : ∀ w' ∈ s.writes.eraseIdx k, ∀ login ∈ w.wanted, login ∈ w'.logins := by
      intro w' hw' login hlogin
      rw [List.eraseIdx_eq_take_drop_succ, List.mem_append] at hw'
      rcases hw' with hbefore | hafter
      · exact holder w' hbefore login ((h.awaited w hw).2 login hlogin)
      · obtain ⟨hk, hget⟩ := List.getElem?_eq_some_iff.mp hat
        have hfrom := h.ordered.sublist (List.drop_sublist k s.writes)
        rw [List.drop_eq_getElem_cons hk, hget, List.pairwise_cons] at hfrom
        exact hfrom.1 w' hafter login hlogin
    refine ⟨fun login hlogin => ?_, fun w' hw' => ⟨fun login hlogin => ?_, (h.awaited w' (hmem w' hw')).2⟩, hordered,
      fun _ => ⟨fun login hlogin => ?_, fun w' hw' => hshown.2 w' (hmem w' hw')⟩, fun hnot => ?_⟩
    · rw [decode_secret]
      rcases List.mem_append.mp hlogin with hsaved | hwanted
      · exact (h.awaited w hw).1 login hsaved
      · exact (h.awaited w hw).2 login hwanted
    · rcases List.mem_append.mp hlogin with hsaved | hwanted
      · exact (h.awaited w' (hmem w' hw')).1 login hsaved
      · exact hrest w' hw' login hwanted
    · rcases List.mem_append.mp hlogin with hsaved | hwanted
      · exact hshown.1 login hsaved
      · exact hshown.2 w hw login hwanted
    · exact absurd hrestored (Bool.eq_false_iff.mp hnot)

theorem Safe.change (h : s.Safe readDouble) (hrestored : s.restored = true) {change : KibanaChange}
    {page : KibanaPage ν} (hlogins : page.logins = change.apply s.page.logins) (outcomes : List (Nat × Option String))
    (call : Nat) :
    Safe readDouble (({ s with page := page, outcomes := outcomes } : KibanaKeychain ν).change change call) := by
  have hshown := h.shown hrestored
  have hkept : ∀ logins login, (∀ l ∈ logins, l ∈ s.page.logins) → login ∈ change.kept logins →
      login ∈ page.logins := by
    intro logins login hall hlogin
    rw [KibanaChange.mem_kept] at hlogin
    rw [hlogins]
    exact KibanaChange.mem_apply (hall login hlogin.1) hlogin.2
  have hwrite : ∀ w' ∈ (({ s with page := page, outcomes := outcomes } : KibanaKeychain ν).change change call).writes,
      (∃ w ∈ s.writes, w' = { w with wanted := change.kept w.wanted }) ∨ w' = ⟨call, page.logins, page.logins⟩ := by
    intro w' hw'
    rcases List.mem_append.mp hw' with hold | hnew
    · obtain ⟨w, hw, rfl⟩ := List.mem_map.mp hold
      exact Or.inl ⟨w, hw, rfl⟩
    · exact Or.inr (List.mem_singleton.mp hnew)
  refine ⟨fun login hlogin => ?_, fun w' hw' => ?_, ?_, fun _ => ⟨fun login hlogin => ?_, fun w' hw' => ?_⟩,
    fun hnot => absurd hrestored (Bool.eq_false_iff.mp hnot)⟩
  · exact h.stored login (KibanaChange.mem_kept.mp hlogin).1
  · rcases hwrite w' hw' with ⟨w, hw, rfl⟩ | rfl
    · exact ⟨fun login hlogin => (h.awaited w hw).1 login (KibanaChange.mem_kept.mp hlogin).1,
        fun login hlogin => (h.awaited w hw).2 login (KibanaChange.mem_kept.mp hlogin).1⟩
    · exact ⟨fun login hlogin => hkept s.saved login hshown.1 hlogin, fun login hlogin => hlogin⟩
  · refine List.pairwise_append.mpr ⟨List.pairwise_map.mpr ?_, List.pairwise_singleton _ _, ?_⟩
    · exact h.ordered.imp fun hwanted login hlogin => hwanted login (KibanaChange.mem_kept.mp hlogin).1
    · intro w' hw' new hnew login hlogin
      obtain ⟨w, hw, rfl⟩ := List.mem_map.mp hw'
      rw [List.mem_singleton.mp hnew]
      exact hkept w.wanted login (hshown.2 w hw) hlogin
  · exact hkept s.saved login hshown.1 hlogin
  · rcases hwrite w' hw' with ⟨w, hw, rfl⟩ | rfl
    · exact fun login hlogin => hkept w.wanted login (hshown.2 w hw) hlogin
    · exact fun login hlogin => hlogin

variable {event : KibanaEvent ν}

theorem Safe.restore (h : s.Safe readDouble) {logins : List KibanaLogin}
    (hread : event.loginsRead = some logins) (hadmits : s.admits readDouble event = true)
    (hcareful : s.careful readDouble thrown (.page event) = true) {page : KibanaPage ν}
    (hlogins : page.logins = if logins = [] then s.page.logins else logins) :
    Safe readDouble { s with restore := .ended, page := page } := by
  have hended : ({ s with restore := .ended, page := page } : KibanaKeychain ν).restored = true :=
    restored_iff.mpr (Or.inr rfl)
  cases event with
  | answer i answer =>
    cases answer with
    | logins given =>
      cases hread
      refine ⟨h.stored, h.awaited, h.ordered, fun _ => ?_, fun hnot => absurd hended (Bool.eq_false_iff.mp hnot)⟩
      by_cases hrestored : s.restored = true
      · have hshown := h.shown hrestored
        have hall : ∀ login ∈ s.page.logins, login ∈ page.logins := by
          intro login hlogin
          rw [hlogins]
          split
          case isTrue => exact hlogin
          case isFalse hsome =>
            have hsub : ∀ l ∈ s.page.logins, l ∈ logins := by
              simpa [careful, hsome] using hcareful
            exact hsub login hlogin
        exact ⟨fun login hlogin => hall login (hshown.1 login hlogin),
          fun w hw login hlogin => hall login (hshown.2 w hw login hlogin)⟩
      · obtain ⟨hwrites, hfailed, hraw⟩ := h.untouched (Bool.eq_false_iff.mpr hrestored)
        refine ⟨fun login hlogin => ?_, fun w hw => ?_⟩
        · have hgiven : logins = decodeKibanaLogins readDouble s.secret := by
            cases hstage : s.restore with
            | reading => simp [admits, hstage] at hadmits
            | read raw =>
              rw [← hraw raw hstage]
              simpa [admits, hstage] using hadmits
            | failed => exact absurd hstage hfailed
            | ended => simp [admits, hstage] at hadmits
          have hmem : login ∈ logins := hgiven ▸ h.stored login hlogin
          show login ∈ page.logins
          rw [hlogins, if_neg (List.ne_nil_of_mem hmem)]
          exact hmem
        · have hmem : w ∈ s.writes := hw
          rw [hwrites] at hmem
          cases hmem
    | _ => cases hread
  | _ => cases hread

theorem consume_eq (s : KibanaKeychain ν) (hread : event.loginsRead = none) :
    ∃ outcomes, s.consume event = { s with outcomes := outcomes } := by
  cases event with
  | answer i answer =>
    cases answer with
    | logins logins => cases hread
    | written error => exact ⟨_, rfl⟩
    | _ => exact ⟨s.outcomes, rfl⟩
  | _ => exact ⟨s.outcomes, rfl⟩

theorem restored_of_careful (hread : event.loginsRead = none)
    (hcareful : s.careful readDouble thrown (.page event) = true) {change : KibanaChange × Nat}
    (hchange : s.page.changes readDouble thrown event = some change) : s.restored = true := by
  have hcond : (s.page.changes readDouble thrown event).isNone || s.restored := by
    cases event with
    | answer i answer =>
      cases answer with
      | logins logins => cases hread
      | _ => exact hcareful
    | _ => exact hcareful
  rw [hchange] at hcond
  exact hcond

variable [DecidableEq ν] {valueText : ν → ValueText}

theorem safe_step (h : s.Safe readDouble) {e : KeychainEvent ν × Int} {s' : KibanaKeychain ν} {o : List Unit}
    (hcareful : s.careful readDouble thrown e.1 = true)
    (hstep : s.step valueText readDouble thrown e = some (s', o)) : s'.Safe readDouble := by
  obtain ⟨event, now⟩ := e
  cases event with
  | read fails =>
    unfold step at hstep
    dsimp only at hstep
    split at hstep
    case isTrue hreading =>
      cases hstep
      exact h.read hreading hcareful
    case isFalse => cases hstep
  | write k error =>
    obtain ⟨w, hat, heq⟩ := Option.map_eq_some_iff.mp hstep
    have hwrite := h.write hat ((w.call, error) :: s.outcomes) hcareful
    dsimp only at heq
    split at heq
    case isTrue hsome =>
      cases heq
      exact hwrite.1 hsome
    case isFalse hnone =>
      cases heq
      exact hwrite.2 (Bool.eq_false_iff.mpr hnone)
  | page event =>
    unfold step at hstep
    dsimp only at hstep
    split at hstep
    case isFalse => cases hstep
    case isTrue hadmits =>
      obtain ⟨⟨page, _⟩, hpage, ⟨⟩⟩ := Option.map_eq_some_iff.mp hstep
      have hlogins := KibanaPage.logins_step hpage
      cases hread : event.loginsRead with
      | some logins =>
        rw [KibanaPage.changes_of_loginsRead hread, hread] at hlogins
        rw [KibanaPage.changes_of_loginsRead hread]
        have hconsume : s.consume event = { s with restore := .ended } := by
          cases event with
          | answer i answer => cases answer <;> first | rfl | cases hread
          | _ => cases hread
        rw [hconsume]
        exact h.restore hread hadmits hcareful hlogins
      | none =>
        obtain ⟨outcomes, hconsume⟩ := s.consume_eq hread
        rw [hconsume]
        cases hchange : s.page.changes readDouble thrown event with
        | none =>
          rw [hchange, hread] at hlogins
          refine ⟨h.stored, h.awaited, h.ordered, fun hrestored => ?_, h.untouched⟩
          show (∀ login ∈ s.saved, login ∈ page.logins) ∧ ∀ w ∈ s.writes, ∀ login ∈ w.wanted, login ∈ page.logins
          rw [hlogins]
          exact h.shown hrestored
        | some change =>
          rw [hchange] at hlogins
          exact h.change (restored_of_careful hread hcareful hchange) hlogins outcomes change.2

/-- The profiles are read back as they were written; and on a run of careful steps none is lost. -/
theorem profiles_kept (valueText : ν → ValueText) (readDouble thrown : String → String) (profiles : List String)
    (secret : Option String) :
    (∀ logins, decodeKibanaLogins readDouble (some (encodeKibanaLogins logins)) = logins) ∧
      ∀ h s, Reaches (step valueText readDouble thrown) (fun s e => s.careful readDouble thrown e.1 = true)
        (opened readDouble profiles secret) h s → s.Keeps readDouble := by
  refine ⟨decode_encodeKibanaLogins readDouble, fun h s hreach => ?_⟩
  have hsafe : s.Safe readDouble :=
    hreach.invariant (I := fun _ s => s.Safe readDouble) (safe_opened profiles secret)
      fun hsafe hcareful hstep => safe_step hsafe hcareful hstep
  exact hsafe.keeps

def alpha : KibanaLogin := ⟨"alpha", "https://alpha", some ⟨true, "", "k"⟩⟩

def omega : KibanaLogin := ⟨"omega", "https://omega", none⟩

def saving (login : KibanaLogin) : List (KeychainEvent String × Int) :=
  [(.page (.setDirect true), 0), (.page (.newLogin login), 0), (.write 0 none, 0)]

/-- A profile is saved beside one that was there. -/
theorem profiles_kept_two : ∃ h s, Reaches (step ValueText.one id id)
      (fun s e => s.careful id id e.1 = true) (opened id [] (some (encodeKibanaLogins [alpha]))) h s ∧
    (alpha ∈ s.saved ∧ omega ∈ s.saved) ∧ s.Keeps id := by
  obtain ⟨h, s, hreach, hsaved⟩ := Reaches.exists_of_checkedEvents (step ValueText.one id id)
    (opened id [] (some (encodeKibanaLogins [alpha]))) (P := fun s => alpha ∈ s.saved ∧ omega ∈ s.saved)
    (fun s e => s.careful id id e.1) (fun _ _ => id)
    ([(.read false, 0), (.page (.answer 0 (.logins [alpha])), 0)] ++ saving omega) (by decide +kernel)
  exact ⟨h, s, hreach, hsaved, (profiles_kept ValueText.one id id [] _).2 h s hreach⟩

/-- A profile that is saved before the keychain was read takes the place of what was there; and what was read is shown
in place of what was saved after. -/
theorem profiles_lost :
    (∃ h s, Reaches (step ValueText.one id id) (fun _ _ => True)
        (opened id [] (some (encodeKibanaLogins [alpha]))) h s ∧ ¬ s.Keeps id) ∧
      ∃ h s, Reaches (step ValueText.one id id) (fun _ _ => True) (opened id [] none) h s ∧ ¬ s.Keeps id := by
  constructor
  · obtain ⟨h, s, hreach, hwrites, hmem, hlost⟩ := Reaches.exists_of_events (step ValueText.one id id)
      (opened id [] (some (encodeKibanaLogins [alpha])))
      (P := fun s => s.writes.length = 0 ∧ alpha ∈ s.saved ∧ alpha ∉ decodeKibanaLogins id s.secret)
      (saving omega) (by decide +kernel)
    exact ⟨h, s, hreach, fun hkeeps => hlost (hkeeps.1 (List.length_eq_zero_iff.mp hwrites) alpha hmem)⟩
  · obtain ⟨h, s, hreach, hended, hmem, hlost⟩ := Reaches.exists_of_events (step ValueText.one id id)
      (opened id [] none) (P := fun s => s.restore = .ended ∧ omega ∈ s.saved ∧ omega ∉ s.page.logins)
      (saving alpha ++ [(.read false, 0)] ++ saving omega ++ [(.page (.answer 0 (.logins [alpha])), 0)])
      (by decide +kernel)
    exact ⟨h, s, hreach, fun hkeeps => hlost (hkeeps.2 hended omega hmem)⟩

end KibanaKeychain

end Portix.Kibana
