import Portix.Ssh.Logins
import Portix.Ssh.Proofs.KeyboardInteractiveProofs

/-!
# Proofs: logins at one host and port

When logins do not overlap, the two entries and the connects are in one of five modes: nothing is
under way, a round waits for the user, its answers are being handed over, a connect is about to take
the answers, or a connect is replaying them. Each step leads from one mode to another.
-/

namespace Portix.Ssh

open Lib Domain

/-- The `j`-th of the answers was typed for the `j`-th round that a login has to answer. -/
def Aligned (rounds : Login → List PendingPrompts) (login : Login) (answers : List Typed) : Prop :=
  ∀ j typed, answers[j]? = some typed → typed.shown.login = login ∧
    ∃ round, (rounds login)[typed.shown.round]? = some round ∧
      needsUser login.password round = true ∧
      userRoundsBefore login.password (rounds login) typed.shown.round = j

section Aligned

variable {rounds : Login → List PendingPrompts} {login : Login} {answers rest : List Typed}
  {typed : Typed}

theorem Aligned.nil : Aligned rounds login [] := by
  rintro j typed ⟨⟩

theorem Aligned.left (h : Aligned rounds login (answers ++ rest)) : Aligned rounds login answers := by
  intro j typed hj
  obtain ⟨hlt, -⟩ := List.getElem?_eq_some_iff.mp hj
  exact h j typed (by rw [List.getElem?_append_left hlt, hj])

theorem Aligned.login_eq (h : Aligned rounds login answers) (hmem : typed ∈ answers) : typed.shown.login = login := by
  obtain ⟨j, hj⟩ := List.getElem?_of_mem hmem
  exact (h j typed hj).1

theorem Aligned.concat {round : PendingPrompts} (h : Aligned rounds login answers) (hlogin : typed.shown.login = login)
    (hround : (rounds login)[typed.shown.round]? = some round)
    (hneeds : needsUser login.password round = true)
    (hcount : userRoundsBefore login.password (rounds login) typed.shown.round = answers.length) :
    Aligned rounds login (answers ++ [typed]) := by
  intro j typed' hj
  rcases Nat.lt_trichotomy j answers.length with hlt | rfl | hgt
  · rw [List.getElem?_append_left hlt] at hj
    exact h j typed' hj
  · rw [List.getElem?_concat_length, Option.some.injEq] at hj
    subst hj
    exact ⟨hlogin, round, hround, hneeds, hcount⟩
  · rw [List.getElem?_eq_none (by simp; omega)] at hj
    cases hj

theorem Aligned.next {answered : List Typed} {n : Nat} {round : PendingPrompts}
    (h : Aligned rounds login (answered ++ typed :: rest)) (hround : (rounds login)[n]? = some round)
    (hneeds : needsUser login.password round = true)
    (hcount : userRoundsBefore login.password (rounds login) n = answered.length) :
    typed.shown.login = login ∧ typed.shown.round = n := by
  obtain ⟨hlogin, round', hround', hneeds', hcount'⟩ := h answered.length typed (by simp)
  exact ⟨hlogin, eq_of_userRoundsBefore_eq hround' hneeds' hround hneeds (hcount'.trans hcount.symm)⟩

end Aligned

/-- No connect is between taking its answers and its end. -/
def Quiet (connects : List Connect) : Prop := ∀ connect ∈ connects, connect.phase.active = false

/-- The `c`-th connect is the only one under way. -/
structure OnlyActive (connects : List Connect) (c : Nat) (login : Login) (phase : Phase) : Prop where
  here : connects[c]? = some ⟨login, phase⟩
  only : ∀ c' connect, connects[c']? = some connect → connect.phase.active = true → c' = c

/-- No typed answers are kept. -/
structure Empty (answers : Option (List Typed)) (owed : Login → Option Typed) : Prop where
  answers : answers = none
  owed : ∀ login, owed login = none

structure KeptFor (rounds : Login → List PendingPrompts) (answers : Option (List Typed))
    (owed : Login → Option Typed) (login : Login) (earlier : List Typed) (typed : Typed) : Prop where
  answers : answers = some (earlier ++ [typed])
  aligned : Aligned rounds login (earlier ++ [typed])
  shown : typed.shown.earlier = earlier.map Typed.texts
  owed : ∀ login', owed login' = if login' = login then some typed else none

structure Waiting (rounds : Login → List PendingPrompts) (s : LoginState) : Prop where
  quiet : Quiet s.connects
  pending : s.slot.pending = none
  answering : s.answering = []
  keeps : Empty s.slot.answers s.owed ∨
    ∃ login earlier typed, KeptFor rounds s.slot.answers s.owed login earlier typed

structure Asking (rounds : Login → List PendingPrompts) (s : LoginState) (login : Login) (n : Nat)
    (round : PendingPrompts) (answered : List Typed) : Prop where
  quiet : Quiet s.connects
  pending : s.slot.pending = some (round, answered)
  origin : s.origin = some (login, n)
  answering : s.answering = []
  empty : Empty s.slot.answers s.owed
  asked : (rounds login)[n]? = some round
  needs : needsUser login.password round = true
  count : userRoundsBefore login.password (rounds login) n = answered.length
  aligned : Aligned rounds login answered
  dialogs : ∀ shown ∈ s.dialogs, shown = ⟨login, n, answered.map Typed.texts⟩

structure Handing (rounds : Login → List PendingPrompts) (s : LoginState) (earlier : List Typed)
    (typed : Typed) : Prop where
  quiet : Quiet s.connects
  pending : s.slot.pending = none
  answering : s.answering = [⟨earlier, typed⟩]
  empty : Empty s.slot.answers s.owed
  aligned : Aligned rounds typed.shown.login (earlier ++ [typed])
  shown : typed.shown.earlier = earlier.map Typed.texts

structure Taking (rounds : Login → List PendingPrompts) (s : LoginState) (c : Nat) (login : Login) :
    Prop where
  active : OnlyActive s.connects c login .cleared
  pending : s.slot.pending = none
  answering : s.answering = []
  dialogs : s.dialogs = []
  keeps : Empty s.slot.answers s.owed ∨
    ∃ earlier typed, KeptFor rounds s.slot.answers s.owed login earlier typed

structure Replaying (rounds : Login → List PendingPrompts) (s : LoginState) (c : Nat) (login : Login)
    (n : Nat) (answers answered : List Typed) : Prop where
  active : OnlyActive s.connects c login (.running n answers answered)
  pending : s.slot.pending = none
  answering : s.answering = []
  dialogs : s.dialogs = []
  empty : Empty s.slot.answers s.owed
  count : userRoundsBefore login.password (rounds login) n = answered.length
  aligned : Aligned rounds login (answered ++ answers)

inductive Mode (rounds : Login → List PendingPrompts) (s : LoginState) : Prop where
  | waiting (mode : Waiting rounds s)
  | asking (login : Login) (n : Nat) (round : PendingPrompts) (answered : List Typed)
      (mode : Asking rounds s login n round answered)
  | handing (earlier : List Typed) (typed : Typed) (mode : Handing rounds s earlier typed)
  | taking (c : Nat) (login : Login) (mode : Taking rounds s c login)
  | replaying (c : Nat) (login : Login) (n : Nat) (answers answered : List Typed)
      (mode : Replaying rounds s c login n answers answered)

section Connects

variable {connects : List Connect} {c : Nat} {login : Login} {phase phase' : Phase}

theorem OnlyActive.not_quiet (h : OnlyActive connects c login phase) (hactive : phase.active = true) :
    ¬ Quiet connects := by
  intro hquiet
  have hnot := hquiet _ (List.mem_of_getElem? h.here)
  rw [hactive] at hnot
  cases hnot

theorem OnlyActive.eq {c' : Nat} {login' : Login} (h : OnlyActive connects c login phase)
    (hc : connects[c']? = some ⟨login', phase'⟩) (hactive : phase'.active = true) :
    c' = c ∧ login' = login ∧ phase' = phase := by
  obtain rfl := h.only c' _ hc hactive
  rw [h.here, Option.some.injEq] at hc
  cases hc
  exact ⟨rfl, rfl, rfl⟩

theorem not_active_of_quiet (h : Quiet connects) (hc : connects[c]? = some ⟨login, phase⟩) : phase.active = false :=
  h _ (List.mem_of_getElem? hc)

theorem getElem?_set_here (hc : connects[c]? = some ⟨login, phase⟩) :
    (connects.set c ⟨login, phase'⟩)[c]? = some ⟨login, phase'⟩ := by
  obtain ⟨hlt, -⟩ := List.getElem?_eq_some_iff.mp hc
  simp [hlt]

theorem Quiet.set (h : Quiet connects) (hc : connects[c]? = some ⟨login, phase⟩) :
    OnlyActive (connects.set c ⟨login, phase'⟩) c login phase' := by
  refine ⟨getElem?_set_here hc, fun c' connect hc' hactive => ?_⟩
  by_contra hne
  rw [List.getElem?_set_ne (Ne.symm hne)] at hc'
  have hnot := h connect (List.mem_of_getElem? hc')
  rw [hactive] at hnot
  cases hnot

theorem OnlyActive.set (h : OnlyActive connects c login phase) :
    OnlyActive (connects.set c ⟨login, phase'⟩) c login phase' := by
  refine ⟨getElem?_set_here h.here, fun c' connect hc' hactive => ?_⟩
  by_contra hne
  rw [List.getElem?_set_ne (Ne.symm hne)] at hc'
  exact hne (h.only c' connect hc' hactive)

theorem OnlyActive.quiet (h : OnlyActive connects c login phase) (hended : phase'.active = false) :
    Quiet (connects.set c ⟨login, phase'⟩) := by
  intro connect hmem
  obtain ⟨c', hc'⟩ := List.getElem?_of_mem hmem
  by_cases hne : c' = c
  · subst hne
    rw [getElem?_set_here h.here, Option.some.injEq] at hc'
    rw [← hc']
    exact hended
  · rw [List.getElem?_set_ne (Ne.symm hne)] at hc'
    by_contra hactive
    exact hne (h.only c' connect hc' (by simpa using hactive))

theorem Quiet.connect (h : Quiet connects) (login : Login) : Quiet (connects ++ [⟨login, .begun⟩]) := by
  intro connect hmem
  rcases List.mem_append.mp hmem with hmem | hmem
  · exact h connect hmem
  · rw [List.mem_singleton.mp hmem]
    rfl

theorem OnlyActive.connect (h : OnlyActive connects c login phase) (login' : Login) :
    OnlyActive (connects ++ [⟨login', .begun⟩]) c login phase := by
  obtain ⟨hlt, -⟩ := List.getElem?_eq_some_iff.mp h.here
  refine ⟨by rw [List.getElem?_append_left hlt, h.here], fun c' connect hc' hactive => ?_⟩
  rw [List.getElem?_append] at hc'
  split at hc'
  · exact h.only c' connect hc' hactive
  · rw [List.mem_singleton.mp (List.mem_of_getElem? hc')] at hactive
    cases hactive

end Connects

section Step

variable {host : String} {port : UInt16} {rounds : Login → List PendingPrompts}
  {s s' : LoginState} {o : List LoginObs}

theorem own_nil : SubmitsOwn [] ∧ TakesOwed s [] := by
  simp [SubmitsOwn, TakesOwed]

theorem Mode.connect (h : Mode rounds s) (login : Login) :
    Mode rounds { s with connects := s.connects ++ [⟨login, .begun⟩] } := by
  cases h with
  | waiting m =>
    exact .waiting { m with quiet := m.quiet.connect login }
  | asking l n round answered m =>
    exact .asking l n round answered { m with quiet := m.quiet.connect login }
  | handing earlier typed m =>
    exact .handing earlier typed { m with quiet := m.quiet.connect login }
  | taking c l m =>
    exact .taking c l { m with active := m.active.connect login }
  | replaying c l n answers answered m =>
    exact .replaying c l n answers answered { m with active := m.active.connect login }

theorem Mode.clear {c : Nat} {login : Login} (h : Mode rounds s)
    (hc : s.connects[c]? = some ⟨login, .begun⟩) (hguard : NoOverlap rounds s (.clear c)) :
    Mode rounds { s.setPhase c login .cleared with slot := s.slot.clearPending } := by
  obtain ⟨hquiet, hanswering, hdialogs, howner⟩ := hguard login _ hc
  have hactive : OnlyActive (s.connects.set c ⟨login, .cleared⟩) c login .cleared :=
    Quiet.set hquiet hc
  cases h with
  | waiting m =>
    refine .taking c login ⟨hactive, rfl, hanswering, hdialogs, ?_⟩
    rcases m.keeps with hempty | ⟨login', earlier, typed, hkept⟩
    · exact Or.inl hempty
    · have hsame : login' = login := by
        rw [hkept.answers] at howner
        rw [← howner typed (by simp)]
        exact (hkept.aligned.login_eq (by simp)).symm
      subst hsame
      exact Or.inr ⟨earlier, typed, hkept⟩
  | asking l n round answered m =>
    exact .taking c login ⟨hactive, rfl, hanswering, hdialogs, Or.inl m.empty⟩
  | handing earlier typed m =>
    rw [m.answering] at hanswering
    cases hanswering
  | taking c' l m => exact absurd hquiet (m.active.not_quiet rfl)
  | replaying c' l n answers answered m => exact absurd hquiet (m.active.not_quiet rfl)

theorem Mode.take {c : Nat} {login : Login} (h : Mode rounds s)
    (hc : s.connects[c]? = some ⟨login, .cleared⟩) :
    Mode rounds { s.setPhase c login (.running 0 (s.slot.answers.getD []) []) with
        slot := { s.slot with answers := none }
        owed := Function.update s.owed login none } ∧
      SubmitsOwn [.taken login (s.slot.answers.getD [])] ∧
      TakesOwed s [.taken login (s.slot.answers.getD [])] := by
  cases h with
  | waiting m => cases not_active_of_quiet m.quiet hc
  | asking l n round answered m => cases not_active_of_quiet m.quiet hc
  | handing earlier typed m => cases not_active_of_quiet m.quiet hc
  | replaying c' l n answers answered m => cases (m.active.eq hc rfl).2.2
  | taking c' l m =>
    obtain ⟨rfl, rfl, -⟩ := m.active.eq hc rfl
    rcases m.keeps with hempty | ⟨earlier, typed, hkept⟩
    · have howed : ∀ login', Function.update s.owed login none login' = none := by
        intro login'
        rw [Function.update_apply, hempty.owed, ite_self]
      refine ⟨.replaying c login 0 _ [] ⟨m.active.set, m.pending, m.answering, m.dialogs,
        ⟨rfl, howed⟩, rfl, ?_⟩, by simp [SubmitsOwn], ?_⟩
      · rw [hempty.answers]
        exact Aligned.nil
      · rintro login' answers' hobs typed howedTyped
        rw [hempty.owed] at howedTyped
        cases howedTyped
    · have howed : ∀ login', Function.update s.owed login none login' = none := by
        intro login'
        rw [Function.update_apply, hkept.owed]
        split <;> rfl
      refine ⟨.replaying c login 0 _ [] ⟨m.active.set, m.pending, m.answering, m.dialogs,
        ⟨rfl, howed⟩, rfl, ?_⟩, by simp [SubmitsOwn], ?_⟩
      · rw [hkept.answers]
        exact hkept.aligned
      · intro login' answers' hobs typed' howedTyped
        obtain ⟨rfl, rfl⟩ : login' = login ∧ answers' = s.slot.answers.getD [] := by
          simpa using hobs
        rw [hkept.owed, if_pos rfl, Option.some.injEq] at howedTyped
        rw [hkept.answers, ← howedTyped, hkept.shown]
        simp

theorem Mode.response {c n : Nat} {login : Login} {answers answered : List Typed}
    {response : Except PortixError AuthResponse} (h : Mode rounds s)
    (hc : s.connects[c]? = some ⟨login, .running n answers answered⟩)
    (hguard : NoOverlap rounds s (.response c response))
    (hstep : onResponse host port s c login n answers answered response = (s', o)) :
    Mode rounds s' ∧ SubmitsOwn o ∧ TakesOwed s o := by
  cases h with
  | waiting m => cases not_active_of_quiet m.quiet hc
  | asking l n round answered m => cases not_active_of_quiet m.quiet hc
  | handing earlier typed m => cases not_active_of_quiet m.quiet hc
  | taking c' l m => cases (m.active.eq hc rfl).2.2
  | replaying c' l n' answers' answered' m =>
    obtain ⟨rfl, rfl, ⟨⟩⟩ := m.active.eq hc rfl
    have hends : ∀ result, Mode rounds (s.setPhase c login (.ended result)) := fun result =>
      .waiting ⟨m.active.quiet rfl, m.pending, m.answering, Or.inl m.empty⟩
    match response with
    | .error e =>
      cases hstep
      exact ⟨hends _, own_nil⟩
    | .ok .success =>
      cases hstep
      exact ⟨hends _, own_nil⟩
    | .ok .failure =>
      cases hstep
      exact ⟨hends _, own_nil⟩
    | .ok (.infoRequest round) =>
      have hround := hguard login n answers answered hc
      rw [onResponse] at hstep
      rcases turn_cases login.password round answers answered with
        ⟨hneeds, reply, hreply, hturn⟩ | ⟨hneeds, ⟨rfl, hturn⟩ | ⟨a, rest, rfl, hturn⟩⟩
      · simp only [hturn] at hstep
        cases hstep
        refine ⟨.replaying c login (n + 1) answers answered ⟨m.active.set, m.pending, m.answering,
          m.dialogs, m.empty, ?_, m.aligned⟩, ?_, by simp [TakesOwed]⟩
        · rw [userRoundsBefore_skip hround hneeds, m.count]
        · intro login' round' typed hobs
          obtain ⟨-, -, rfl⟩ : login' = login ∧ round' = n ∧ .typed typed = reply := by
            simpa using hobs
          exact absurd hreply.2 (by simp)
      · simp only [hturn] at hstep
        cases hstep
        refine ⟨.asking login n round answered ⟨m.active.quiet rfl, rfl, rfl, m.answering, m.empty,
          hround, hneeds, m.count, m.aligned.left, ?_⟩, own_nil⟩
        intro shown hshown
        have hnone : shown ∈ s.dialogs := hshown
        rw [m.dialogs] at hnone
        cases hnone
      · simp only [hturn] at hstep
        cases hstep
        obtain ⟨hlogin, hn⟩ := m.aligned.next hround hneeds m.count
        refine ⟨.replaying c login (n + 1) rest (answered ++ [a]) ⟨m.active.set, m.pending,
          m.answering, m.dialogs, m.empty, ?_, ?_⟩, ?_, by simp [TakesOwed]⟩
        · rw [userRoundsBefore_succ hround hneeds, m.count]
          simp
        · have haligned := m.aligned
          rwa [List.append_cons] at haligned
        · intro login' round' typed hobs
          obtain ⟨rfl, rfl, rfl⟩ : login' = login ∧ round' = n ∧ typed = a := by simpa using hobs
          exact ⟨by rw [hlogin], hn⟩

theorem Mode.display (h : Mode rounds s) (hstep : loginStep host port s .display = some (s', o)) :
    Mode rounds s' ∧ o = [] := by
  rw [loginStep] at hstep
  split at hstep
  · rename_i round answered login n hpending horigin
    cases hstep
    refine ⟨?_, rfl⟩
    cases h with
    | waiting m => rw [m.pending] at hpending; cases hpending
    | handing earlier typed m => rw [m.pending] at hpending; cases hpending
    | taking c l m => rw [m.pending] at hpending; cases hpending
    | replaying c l n answers answered m => rw [m.pending] at hpending; cases hpending
    | asking login' n' round' answered' m =>
      rw [m.pending, Option.some.injEq] at hpending
      rw [m.origin, Option.some.injEq] at horigin
      obtain ⟨rfl, rfl⟩ := Prod.mk.inj hpending
      obtain ⟨rfl, rfl⟩ := Prod.mk.inj horigin
      refine .asking login' n' round' answered' { m with dialogs := fun shown hshown => ?_ }
      rcases List.mem_append.mp hshown with hold | hnew
      · exact m.dialogs shown hold
      · exact List.mem_singleton.mp hnew
  · cases hstep
    exact ⟨h, rfl⟩

theorem Mode.cancel (h : Mode rounds s) (d : Nat) : Mode rounds { s with dialogs := s.dialogs.eraseIdx d } := by
  cases h with
  | waiting m => exact .waiting { m with }
  | asking l n round answered m =>
    exact .asking l n round answered
      { m with dialogs := fun shown hshown => m.dialogs shown (List.mem_of_mem_eraseIdx hshown) }
  | handing earlier typed m => exact .handing earlier typed { m with }
  | taking c l m =>
    exact .taking c l { m with dialogs := by rw [m.dialogs]; rfl }
  | replaying c l n answers answered m =>
    exact .replaying c l n answers answered { m with dialogs := by rw [m.dialogs]; rfl }

theorem Mode.answer {d : Nat} {texts : List String} {shown : Shown} (h : Mode rounds s)
    (hd : s.dialogs[d]? = some shown) (hpending : s.slot.pending.isSome = true) :
    Mode rounds { s with
      slot := s.slot.clearPending
      dialogs := s.dialogs.eraseIdx d
      answering := s.answering ++ [⟨s.slot.answered, ⟨shown, texts⟩⟩] } := by
  cases h with
  | waiting m => rw [m.pending] at hpending; cases hpending
  | handing earlier typed m => rw [m.pending] at hpending; cases hpending
  | taking c l m => rw [m.pending] at hpending; cases hpending
  | replaying c l n answers answered m => rw [m.pending] at hpending; cases hpending
  | asking login n round answered m =>
    obtain rfl := m.dialogs shown (List.mem_of_getElem? hd)
    have hanswered : s.slot.answered = answered := by rw [Slot.answered, m.pending]; rfl
    refine .handing answered ⟨⟨login, n, answered.map Typed.texts⟩, texts⟩ ⟨m.quiet, rfl, ?_, m.empty, ?_, rfl⟩
    · rw [m.answering, hanswered]
      rfl
    · exact m.aligned.concat rfl m.asked m.needs m.count

theorem Mode.store {k : Nat} {earlier : List Typed} {typed : Typed} (h : Mode rounds s)
    (hk : s.answering[k]? = some ⟨earlier, typed⟩) :
    Mode rounds { s with
      slot := s.slot.storeAnswers (earlier ++ [typed])
      answering := s.answering.eraseIdx k
      owed := Function.update s.owed typed.shown.login (some typed) } := by
  cases h with
  | waiting m => rw [m.answering] at hk; cases hk
  | asking l n round answered m => rw [m.answering] at hk; cases hk
  | taking c l m => rw [m.answering] at hk; cases hk
  | replaying c l n answers answered m => rw [m.answering] at hk; cases hk
  | handing earlier' typed' m =>
    rw [m.answering] at hk
    obtain rfl : k = 0 := by
      obtain ⟨hlt, -⟩ := List.getElem?_eq_some_iff.mp hk
      simpa using hlt
    obtain ⟨rfl, rfl⟩ := Answering.mk.inj (Option.some.inj hk)
    refine .waiting ⟨m.quiet, m.pending, by rw [m.answering]; rfl,
      Or.inr ⟨typed'.shown.login, earlier', typed', rfl, m.aligned, m.shown, fun login' => ?_⟩⟩
    show Function.update s.owed typed'.shown.login (some typed') login' = _
    rw [Function.update_apply, m.empty.owed]

theorem Mode.step {e : LoginEvent} (h : Mode rounds s) (hguard : NoOverlap rounds s e)
    (hstep : loginStep host port s e = some (s', o)) : Mode rounds s' ∧ SubmitsOwn o ∧ TakesOwed s o := by
  cases e with
  | connect login =>
    cases hstep
    exact ⟨h.connect login, own_nil⟩
  | clear c =>
    rw [loginStep] at hstep
    split at hstep
    · rename_i login hc
      cases hstep
      exact ⟨h.clear hc hguard, own_nil⟩
    · cases hstep
  | take c =>
    rw [loginStep] at hstep
    split at hstep
    · rename_i login hc
      cases hstep
      exact h.take hc
    · cases hstep
  | response c response =>
    rw [loginStep] at hstep
    split at hstep
    · rename_i login n answers answered hc
      exact h.response hc hguard (Option.some.inj hstep)
    · cases hstep
  | display =>
    obtain ⟨hmode, rfl⟩ := h.display hstep
    exact ⟨hmode, own_nil⟩
  | cancel d =>
    cases hstep
    exact ⟨h.cancel d, own_nil⟩
  | answer d texts =>
    rw [loginStep] at hstep
    split at hstep
    · rename_i shown hd
      cases hstep
      exact ⟨h.answer hd hguard, own_nil⟩
    · cases hstep
  | store k =>
    rw [loginStep] at hstep
    split at hstep
    · rename_i earlier typed hk
      cases hstep
      exact ⟨h.store hk, own_nil⟩
    · cases hstep

end Step

section Runs

variable {host : String} {port : UInt16} {rounds : Login → List PendingPrompts} {h : List LoginObs}
  {s : LoginState}

theorem reaches_mode (hreach : Reaches (loginStep host port) (NoOverlap rounds) .initial h s) : Mode rounds s := by
  refine hreach.invariant (I := fun _ s => Mode rounds s) ?_ ?_
  · exact .waiting ⟨by simp [Quiet, LoginState.initial], rfl, rfl, Or.inl ⟨rfl, fun _ => rfl⟩⟩
  · intro h s e s' o hmode hguard hstep
    exact (hmode.step hguard hstep).1

/-- Whatever rounds a server asks each login: in every run in which logins do not overlap, typed
answers are submitted by the user name and as the round they were typed for, and a login's next
connect takes what was typed for it, with the answers to the rounds before. -/
theorem own_answers (host : String) (port : UInt16) (rounds : Login → List PendingPrompts)
    (h : List LoginObs) (s : LoginState) (e : LoginEvent) (s' : LoginState) (o : List LoginObs)
    (hreach : Reaches (loginStep host port) (NoOverlap rounds) .initial h s)
    (hguard : NoOverlap rounds s e) (hstep : loginStep host port s e = some (s', o)) :
    SubmitsOwn o ∧ TakesOwed s o :=
  ((reaches_mode hreach).step hguard hstep).2

def alice : Login := ⟨"alice", none⟩

def bob : Login := ⟨"bob", none⟩

def codeRound : PendingPrompts := ⟨"", "", [("Code: ", false)]⟩

/-- The second connect submits the typed code. -/
theorem own_answers_alice :
    ∃ h s s' o, Reaches (loginStep "h" 22) (NoOverlap fun _ => [codeRound]) .initial h s ∧
      loginStep "h" 22 s (.response 1 (.ok (.infoRequest codeRound))) = some (s', o) ∧
      o = [.submitted alice 0 (.typed ⟨⟨alice, 0, []⟩, ["111"]⟩)] ∧ SubmitsOwn o ∧ TakesOwed s o := by
  have h0 : Reaches (loginStep "h" 22) (NoOverlap fun _ => [codeRound]) .initial [] .initial :=
    .start
  have h1 := h0.next (e := LoginEvent.connect alice) trivial rfl
  have h2 := h1.next (e := LoginEvent.clear 0) (by
    rintro login phase ⟨rfl⟩
    exact ⟨by simp [Phase.active, LoginState.initial], rfl, rfl, by simp [LoginState.initial]⟩) rfl
  have h3 := h2.next (e := LoginEvent.take 0) trivial rfl
  have h4 := h3.next (e := LoginEvent.response 0 (.ok (.infoRequest codeRound))) (by
    rintro login round answers answered ⟨rfl⟩
    rfl) rfl
  have h5 := h4.next (e := LoginEvent.display) trivial rfl
  have h6 := h5.next (e := LoginEvent.answer 0 ["111"]) rfl rfl
  have h7 := h6.next (e := LoginEvent.store 0) trivial rfl
  have h8 := h7.next (e := LoginEvent.connect alice) trivial rfl
  have h9 := h8.next (e := LoginEvent.clear 1) (by
    rintro login phase ⟨rfl⟩
    refine ⟨?_, rfl, rfl, ?_⟩
    · simp [Phase.active, LoginState.initial, LoginState.setPhase]
    · simp [Slot.storeAnswers, Slot.clearPending, Slot.answered]) rfl
  have h10 := h9.next (e := LoginEvent.take 1) trivial rfl
  refine ⟨_, _, _, _, h10, rfl, rfl, own_answers "h" 22 _ _ _
    (.response 1 (.ok (.infoRequest codeRound))) _ _ h10 ?_ rfl⟩
  rintro login round answers answered ⟨rfl⟩
  rfl

/-- Between a login's answer and its next connect, another user connects and submits the code.
Between the showing of a round and its answer, a connect of the same login drops what was typed for
the round before. -/
theorem answers_lost_and_leaked :
    (¬ ∀ h s e s' o, Reaches (loginStep "h" 22) (fun _ _ => True) .initial h s →
      loginStep "h" 22 s e = some (s', o) → SubmitsOwn o) ∧
    ¬ ∀ h s e s' o, Reaches (loginStep "h" 22) (fun _ _ => True) .initial h s →
      loginStep "h" 22 s e = some (s', o) → TakesOwed s o := by
  have hstart : Reaches (loginStep "h" 22) (fun _ _ => True) .initial [] .initial := .start
  constructor
  · intro hclaim
    have hreach := Reaches.of_runEvents [.connect alice, .clear 0, .take 0,
        .response 0 (.ok (.infoRequest codeRound)), .display, .answer 0 ["111"], .store 0,
        .connect bob, .clear 1, .take 1] (fun _ _ _ => trivial) hstart rfl
    have hown := hclaim _ _ (.response 1 (.ok (.infoRequest codeRound))) _ _ hreach rfl
    have hname := (hown bob 0 ⟨⟨alice, 0, []⟩, ["111"]⟩ (List.mem_singleton_self _)).1
    exact absurd hname (by decide)
  · intro hclaim
    have hreach := Reaches.of_runEvents [.connect alice, .clear 0, .take 0,
        .response 0 (.ok (.infoRequest codeRound)), .display, .answer 0 ["111"], .store 0,
        .connect alice, .clear 1, .take 1, .response 1 (.ok (.infoRequest codeRound)),
        .response 1 (.ok (.infoRequest codeRound)), .display, .connect alice, .clear 2, .take 2,
        .answer 0 ["222"], .store 0, .connect alice, .clear 3] (fun _ _ _ => trivial) hstart rfl
    have hown := hclaim _ _ (.take 3) _ _ hreach rfl
    have htaken := hown alice [⟨⟨alice, 1, [["111"]]⟩, ["222"]⟩] (List.mem_singleton_self _)
      ⟨⟨alice, 1, [["111"]]⟩, ["222"]⟩ rfl
    exact absurd htaken (by decide)

end Runs

end Portix.Ssh
