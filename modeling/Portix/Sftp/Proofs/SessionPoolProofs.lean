import Portix.Sftp.SessionPool

/-!
# Proofs: one SFTP session per profile

An attempt is in the map, or its session is to be closed, or it is done with: that is kept by every step, but for
the steps in which a dropped session is forgotten.
-/

namespace Portix.Sftp

open Lib Profiles

namespace SftpManager

variable {m : SftpManager} {sessionId other : Nat} {profile : SshProfile}

theorem session_connected (hne : other ≠ sessionId) :
    (m.connected sessionId profile).session other = m.session other := by
  unfold session connected
  rw [under_append, under_cons, if_neg (Ne.symm hne), under_nil, Option.or_none]

theorem session_dropped_eq_none : (m.dropped sessionId).session other = none ↔ m.session other = none := by
  have hkey : ∀ session : SftpSession,
      (if session.id = sessionId then { session with isConnected := false } else session).id = session.id := by
    intro session
    split <;> rfl
  unfold session dropped
  rw [under_map _ hkey, Option.map_eq_none_iff]

theorem session_close : (m.close sessionId).session other = if other = sessionId then none else m.session other := by
  unfold session close
  have hfilter : under SftpSession.id other (m.sessions.filter fun session => session.id ≠ sessionId) =
      if decide (other ≠ sessionId) = true then under SftpSession.id other m.sessions else none :=
    under_filter (fun id => decide (id ≠ sessionId)) m.sessions
  rw [hfilter]
  by_cases hsame : other = sessionId
  · simp [hsame]
  · simp [hsame]

end SftpManager

namespace SessionPool

section Histories

variable {h o : List PoolObs} {attempt : Nat}

theorem BeforeCloseAll.connecting_mem (hbefore : BeforeCloseAll h attempt) : .connecting attempt ∈ h := by
  obtain ⟨before, after, rfl, hmem⟩ := hbefore
  exact List.mem_append_left _ hmem

theorem beforeCloseAll_append (hnone : .closingAll ∉ o) :
    BeforeCloseAll (h ++ o) attempt ↔ BeforeCloseAll h attempt := by
  constructor
  · rintro ⟨before, after, heq, hmem⟩
    rcases List.append_eq_append_iff.mp heq with ⟨o', -, ho⟩ | ⟨rest, hh, hrest⟩
    · exact absurd (by rw [ho]; simp) hnone
    · cases rest with
      | nil => exact absurd (by rw [← List.nil_append o, ← hrest]; simp) hnone
      | cons y rest =>
        cases hrest
        exact ⟨before, rest, hh, hmem⟩
  · rintro ⟨before, after, rfl, hmem⟩
    exact ⟨before, after ++ o, by simp, hmem⟩

theorem beforeCloseAll_closingAll : BeforeCloseAll (h ++ [.closingAll]) attempt ↔ .connecting attempt ∈ h := by
  constructor
  · intro hbefore
    simpa using hbefore.connecting_mem
  · intro hmem
    exact ⟨h, [], rfl, hmem⟩

end Histories

variable {s s' : SessionPool} {e : PoolEvent} {o : List PoolObs} {id : String} {attempt pending call : Nat}
  {profile : SshProfile}

theorem under_put {sessions : List (String × Nat)} {other : String} : under Prod.fst other (put sessions id attempt) =
      if other = id then some (id, attempt) else under Prod.fst other sessions := by
  unfold put
  split
  case isTrue hmem =>
    have hreplace : under Prod.fst other (sessions.map fun entry => if entry.1 = id then (id, attempt) else entry) =
        if other = id then (under Prod.fst other sessions).map fun _ => (id, attempt)
        else under Prod.fst other sessions := under_map_replace (id, attempt) sessions
    rw [hreplace]
    by_cases hsame : other = id
    · have hsome : under Prod.fst id sessions ≠ none := by
        rw [Ne, under_eq_none, not_not]
        exact hmem
      obtain ⟨entry, hentry⟩ := Option.ne_none_iff_exists'.mp hsome
      rw [if_pos hsame, if_pos hsame, hsame, hentry]
      rfl
    · rw [if_neg hsame, if_neg hsame]
  case isFalse hmem =>
    rw [under_append, under_cons, under_nil]
    by_cases hsame : other = id
    · have hnone : under Prod.fst id sessions = none := under_eq_none.mpr hmem
      rw [hsame, hnone, if_pos rfl]
      rfl
    · rw [if_neg (Ne.symm hsame), if_neg hsame, Option.or_none]

theorem entry_connect {other : String} :
    (s.connect profile).entry other = if other = profile.id then some s.attempts.length else s.entry other := by
  unfold entry connect
  rw [under_put]
  split <;> rfl

theorem mem_of_entry (hentry : s.entry id = some attempt) : attempt ∈ s.sessions.map Prod.snd := by
  obtain ⟨entry, hunder, rfl⟩ := Option.map_eq_some_iff.mp hentry
  exact List.mem_map_of_mem (mem_of_under hunder)

theorem resultOf_eq_some {result : Except AppFailure Nat} :
    s.resultOf attempt = some result ↔ ∃ profile, s.attempts[attempt]? = some ⟨profile, some result⟩ := by
  unfold resultOf
  split
  case h_1 attempt hattempt =>
    rw [hattempt]
    obtain ⟨profile, _⟩ := attempt
    constructor
    · rintro rfl
      exact ⟨profile, rfl⟩
    · rintro ⟨profile, ⟨⟩⟩
      rfl
  case h_2 hnone =>
    rw [hnone]
    simp

theorem judge_eq (s : SessionPool) (profile : SshProfile) (pending : Option Nat) :
    (s.usable (pending.bind s.resultOf) = false ∧ s.entry profile.id = pending ∧
      s.judge profile pending = (s.connect profile, [.connecting s.attempts.length])) ∨
    ((s.usable (pending.bind s.resultOf) = true ∨ s.entry profile.id ≠ pending) ∧
      s.judge profile pending = (s, [])) := by
  unfold judge
  split
  case isTrue hanew => exact .inl ⟨hanew.1, hanew.2, rfl⟩
  case isFalse hkeep =>
    refine .inr ⟨?_, rfl⟩
    by_cases husable : s.usable (pending.bind s.resultOf) = true
    · exact .inl husable
    · exact .inr fun hsame => hkeep ⟨by simpa using husable, hsame⟩

@[simp] theorem answer_connect : (s.connect profile).answer profile = .returning s.attempts.length := by
  unfold answer
  rw [entry_connect, if_pos rfl]

theorem step_cases (hstep : s.step e = some (s', o)) :
    (∃ profile pending, e = .call profile ∧ s.entry profile.id = some pending ∧
      s' = { s with calls := s.calls ++ [⟨profile, .waiting pending⟩] } ∧ o = []) ∨
    (∃ profile, e = .call profile ∧ s.entry profile.id = none ∧
      s' = { s.connect profile with calls := s.calls ++ [⟨profile, .returning s.attempts.length⟩] } ∧
      o = [.connecting s.attempts.length]) ∨
    (∃ call profile pending result, e = .resume call ∧ s.calls[call]? = some ⟨profile, .waiting pending⟩ ∧
      s.resultOf pending = some result ∧
      ((s.usable (some result) = false ∧ s.entry profile.id = some pending ∧ s' = { s.connect profile with
            calls := s.calls.set call ⟨profile, .returning s.attempts.length⟩ } ∧
          o = [.connecting s.attempts.length]) ∨
        (s' = { s with calls := s.calls.set call ⟨profile, s.answer profile⟩ } ∧ o = []))) ∨
    (∃ attempt profile result manager, e.isTask = false ∧ s.attempts[attempt]? = some ⟨profile, none⟩ ∧
      ((result = .ok attempt ∧ manager = s.manager.connected attempt profile) ∨
        ((∃ failure, result = .error failure) ∧ manager = s.manager)) ∧
      s' = { s with manager := manager, attempts := s.attempts.set attempt ⟨profile, some result⟩ } ∧ o = []) ∨
    (∃ sessionId, e = .drops sessionId ∧ s' = { s with manager := s.manager.dropped sessionId } ∧ o = []) ∨
    (e = .closeAll ∧ s' = { s with closers := s.closers ++ s.sessions.map Prod.snd, sessions := [] } ∧
      o = [.closingAll]) ∨
    (∃ attempt result, e = .closes attempt ∧ attempt ∈ s.closers ∧ s.resultOf attempt = some result ∧
      ((∃ sessionId, result = .ok sessionId ∧
          s' = { s with manager := s.manager.close sessionId, closers := s.closers.erase attempt } ∧
          o = [.disconnected sessionId]) ∨
        (∃ failure, result = .error failure ∧ s' = { s with closers := s.closers.erase attempt } ∧ o = []))) := by
  cases e with
  | call profile =>
    simp only [step] at hstep
    split at hstep
    case h_1 pending hentry =>
      simp only [Option.some.injEq, Prod.mk.injEq] at hstep
      obtain ⟨rfl, rfl⟩ := hstep
      exact .inl ⟨profile, pending, rfl, hentry, rfl, rfl⟩
    case h_2 hentry =>
      rcases judge_eq s profile none with ⟨-, -, hjudge⟩ | ⟨hkeep, -⟩
      · rw [hjudge] at hstep
        simp only [answer_connect, Option.some.injEq, Prod.mk.injEq] at hstep
        obtain ⟨rfl, rfl⟩ := hstep
        exact .inr (.inl ⟨profile, rfl, hentry, rfl, rfl⟩)
      · rcases hkeep with husable | hne
        · cases husable
        · exact absurd hentry hne
  | resume call =>
    simp only [step] at hstep
    split at hstep
    case h_1 profile pending hcall =>
      rw [Option.ite_none_right_eq_some] at hstep
      obtain ⟨hcomplete, hstep⟩ := hstep
      obtain ⟨result, hresult⟩ := Option.isSome_iff_exists.mp hcomplete
      refine .inr (.inr (.inl ⟨call, profile, pending, result, rfl, hcall, hresult, ?_⟩))
      rcases judge_eq s profile (some pending) with ⟨husable, hentry, hjudge⟩ | ⟨-, hjudge⟩
      · rw [Option.bind_some, hresult] at husable
        rw [hjudge] at hstep
        simp only [answer_connect, Option.some.injEq, Prod.mk.injEq] at hstep
        obtain ⟨rfl, rfl⟩ := hstep
        exact .inl ⟨husable, hentry, rfl, rfl⟩
      · rw [hjudge] at hstep
        simp only [Option.some.injEq, Prod.mk.injEq] at hstep
        obtain ⟨rfl, rfl⟩ := hstep
        exact .inr ⟨rfl, rfl⟩
    case h_2 => cases hstep
  | connects attempt =>
    simp only [step] at hstep
    split at hstep
    case h_1 profile hattempt =>
      simp only [Option.some.injEq, Prod.mk.injEq] at hstep
      obtain ⟨rfl, rfl⟩ := hstep
      exact .inr (.inr (.inr (.inl ⟨attempt, profile, _, _, rfl, hattempt, .inl ⟨rfl, rfl⟩, rfl, rfl⟩)))
    case h_2 => cases hstep
  | fails attempt error =>
    simp only [step] at hstep
    split at hstep
    case h_1 profile hattempt =>
      simp only [Option.some.injEq, Prod.mk.injEq] at hstep
      obtain ⟨rfl, rfl⟩ := hstep
      exact .inr (.inr (.inr (.inl ⟨attempt, profile, _, _, rfl, hattempt, .inr ⟨⟨_, rfl⟩, rfl⟩, rfl, rfl⟩)))
    case h_2 => cases hstep
  | drops sessionId =>
    simp only [step, Option.ite_none_right_eq_some, Option.some.injEq, Prod.mk.injEq] at hstep
    obtain ⟨-, rfl, rfl⟩ := hstep
    exact .inr (.inr (.inr (.inr (.inl ⟨sessionId, rfl, rfl, rfl⟩))))
  | closeAll =>
    simp only [step, Option.some.injEq, Prod.mk.injEq] at hstep
    obtain ⟨rfl, rfl⟩ := hstep
    exact .inr (.inr (.inr (.inr (.inr (.inl ⟨rfl, rfl, rfl⟩)))))
  | closes attempt =>
    simp only [step, Option.ite_none_right_eq_some] at hstep
    obtain ⟨hcloser, hstep⟩ := hstep
    split at hstep
    case h_1 sessionId hresult =>
      simp only [Option.some.injEq, Prod.mk.injEq] at hstep
      obtain ⟨rfl, rfl⟩ := hstep
      exact .inr (.inr (.inr (.inr (.inr (.inr ⟨attempt, _, rfl, hcloser, hresult, .inl ⟨sessionId, rfl, rfl, rfl⟩⟩)))))
    case h_2 failure hresult =>
      simp only [Option.some.injEq, Prod.mk.injEq] at hstep
      obtain ⟨rfl, rfl⟩ := hstep
      exact .inr (.inr (.inr (.inr (.inr (.inr ⟨attempt, _, rfl, hcloser, hresult, .inr ⟨failure, rfl, rfl, rfl⟩⟩)))))
    case h_3 => cases hstep

/-- An attempt of a profile. -/
def IsOf (s : SessionPool) (attempt : Nat) (id : String) : Prop :=
  ∃ profile result, s.attempts[attempt]? = some ⟨profile, result⟩ ∧ profile.id = id

/-- The map has attempts from since the last `closeAll`, under the ids of their profiles; those of them that are
in flight are in the map; the calls have attempts for their profiles; and what was closed is gone. -/
structure Inv (h : List PoolObs) (s : SessionPool) : Prop where
  connecting_iff : ∀ i, .connecting i ∈ h ↔ i < s.attempts.length
  entry_isOf : ∀ id i, s.entry id = some i → s.IsOf i id
  entry_since : ∀ id i, s.entry id = some i → ¬ BeforeCloseAll h i
  in_flight : ∀ i profile, s.attempts[i]? = some ⟨profile, none⟩ → ¬ BeforeCloseAll h i →
    s.entry profile.id = some i
  call_isOf : ∀ call ∈ s.calls, ∀ i, call.phase = .waiting i ∨ call.phase = .returning i →
    s.IsOf i call.profile.id
  own_session : ∀ i sessionId, s.resultOf i = some (.ok sessionId) → sessionId = i
  disconnected_gone : ∀ i, .disconnected i ∈ h → s.resultOf i ≠ none ∧ s.manager.session i = none

variable {h : List PoolObs} {calls : List SessionCall} {result : Except AppFailure Nat}

theorem IsOf.connect (hof : s.IsOf attempt id) : (s.connect profile).IsOf attempt id := by
  obtain ⟨profile', result, hattempt, hid⟩ := hof
  exact ⟨profile', result, getElem?_concat_eq_some.mpr (.inl hattempt), hid⟩

theorem isOf_connect_self : (s.connect profile).IsOf s.attempts.length profile.id :=
  ⟨profile, none, getElem?_concat_eq_some.mpr (.inr ⟨rfl, rfl⟩), rfl⟩

theorem resultOf_connect (hlt : attempt < s.attempts.length) :
    (s.connect profile).resultOf attempt = s.resultOf attempt := by
  unfold resultOf connect
  simp only
  rw [List.getElem?_append_left hlt]

theorem resultOf_connect_self : (s.connect profile).resultOf s.attempts.length = none := by
  unfold resultOf connect
  simp only
  rw [List.getElem?_concat_length]

theorem lt_of_resultOf (hresult : s.resultOf attempt ≠ none) : attempt < s.attempts.length := by
  obtain ⟨result, hresult⟩ := Option.ne_none_iff_exists'.mp hresult
  obtain ⟨profile, hattempt⟩ := resultOf_eq_some.mp hresult
  exact (List.getElem?_eq_some_iff.mp hattempt).1

theorem Inv.of_calls (hinv : Inv h s) (hcalls : ∀ call ∈ calls, ∀ i,
    call.phase = .waiting i ∨ call.phase = .returning i → s.IsOf i call.profile.id) :
    Inv h { s with calls := calls } :=
  { hinv with call_isOf := hcalls }

theorem Inv.connect (hinv : Inv h s)
    (hfree : ∀ pending, s.entry profile.id = some pending → s.resultOf pending ≠ none) :
    Inv (h ++ [.connecting s.attempts.length]) (s.connect profile) := by
  have hbefore : ∀ i, BeforeCloseAll (h ++ [.connecting s.attempts.length]) i ↔ BeforeCloseAll h i :=
    fun i => beforeCloseAll_append (by simp)
  have hlength : (s.connect profile).attempts.length = s.attempts.length + 1 := List.length_append
  refine ⟨?_, ?_, ?_, ?_, ?_, ?_, ?_⟩
  · intro i
    rw [List.mem_append, hinv.connecting_iff, List.mem_singleton, PoolObs.connecting.injEq, hlength]
    omega
  · intro id i hentry
    rw [entry_connect] at hentry
    split at hentry
    case isTrue hid =>
      cases hentry
      exact hid ▸ isOf_connect_self
    case isFalse => exact (hinv.entry_isOf id i hentry).connect
  · intro id i hentry
    rw [hbefore]
    rw [entry_connect] at hentry
    split at hentry
    case isTrue =>
      cases hentry
      intro hold
      have hlt := (hinv.connecting_iff _).mp hold.connecting_mem
      omega
    case isFalse => exact hinv.entry_since id i hentry
  · intro i profile' hattempt hsince
    rw [hbefore] at hsince
    rw [entry_connect]
    rcases getElem?_concat_eq_some.mp hattempt with hattempt | ⟨rfl, heq⟩
    · have hentry := hinv.in_flight i profile' hattempt hsince
      have hother : profile'.id ≠ profile.id := by
        intro hsame
        have hcomplete := hfree i (hsame ▸ hentry)
        unfold resultOf at hcomplete
        rw [hattempt] at hcomplete
        exact hcomplete rfl
      rw [if_neg hother]
      exact hentry
    · cases heq
      exact if_pos rfl
  · intro call hcall i hphase
    exact (hinv.call_isOf call hcall i hphase).connect
  · intro i sessionId hresult
    have hlt : i < s.attempts.length + 1 := hlength ▸ lt_of_resultOf (by rw [hresult]; simp)
    by_cases hnew : i = s.attempts.length
    · rw [hnew, resultOf_connect_self] at hresult
      cases hresult
    · rw [resultOf_connect (by omega)] at hresult
      exact hinv.own_session i sessionId hresult
  · intro i hmem
    have hold : .disconnected i ∈ h := by simpa using hmem
    obtain ⟨hcomplete, hgone⟩ := hinv.disconnected_gone i hold
    rw [resultOf_connect (lt_of_resultOf hcomplete)]
    exact ⟨hcomplete, hgone⟩

variable {manager : SftpManager}

theorem resultOf_complete (hattempt : s.attempts[attempt]? = some ⟨profile, none⟩) (i : Nat) :
    ({ s with manager := manager, attempts := s.attempts.set attempt ⟨profile, some result⟩ } :
      SessionPool).resultOf i = if i = attempt then some result else s.resultOf i := by
  unfold resultOf
  simp only
  by_cases hsame : i = attempt
  · rw [if_pos hsame, hsame, List.getElem?_set_self (List.getElem?_eq_some_iff.mp hattempt).1]
  · rw [if_neg hsame, List.getElem?_set_ne (Ne.symm hsame)]

theorem isOf_complete (hattempt : s.attempts[attempt]? = some ⟨profile, none⟩) {i : Nat} (hof : s.IsOf i id) :
    ({ s with manager := manager, attempts := s.attempts.set attempt ⟨profile, some result⟩ } :
      SessionPool).IsOf i id := by
  obtain ⟨profile', result', hi, hid⟩ := hof
  by_cases hsame : i = attempt
  · subst hsame
    rw [hattempt] at hi
    cases hi
    exact ⟨profile, some result, (getElem?_set_eq_some hattempt).mpr (.inl ⟨rfl, rfl⟩), hid⟩
  · exact ⟨profile', result', (getElem?_set_eq_some hattempt).mpr (.inr ⟨hsame, hi⟩), hid⟩

theorem Inv.complete (hinv : Inv h s) (hattempt : s.attempts[attempt]? = some ⟨profile, none⟩)
    (hresult : (result = .ok attempt ∧ manager = s.manager.connected attempt profile) ∨
      ((∃ failure, result = .error failure) ∧ manager = s.manager)) :
    Inv h { s with manager := manager, attempts := s.attempts.set attempt ⟨profile, some result⟩ } := by
  have hnone : s.resultOf attempt = none := by
    unfold resultOf
    rw [hattempt]
  refine ⟨?_, ?_, hinv.entry_since, ?_, ?_, ?_, ?_⟩
  · intro i
    rw [hinv.connecting_iff, List.length_set]
  · intro id i hentry
    exact isOf_complete hattempt (hinv.entry_isOf id i hentry)
  · intro i profile' hi hsince
    rcases (getElem?_set_eq_some hattempt).mp hi with ⟨-, heq⟩ | ⟨-, hi⟩
    · cases heq
    · exact hinv.in_flight i profile' hi hsince
  · intro call hcall i hphase
    exact isOf_complete hattempt (hinv.call_isOf call hcall i hphase)
  · intro i sessionId hi
    rw [resultOf_complete hattempt] at hi
    split at hi
    case isTrue hsame =>
      rcases hresult with ⟨rfl, -⟩ | ⟨⟨failure, rfl⟩, -⟩
      · cases hi
        exact hsame.symm
      · cases hi
    case isFalse => exact hinv.own_session i sessionId hi
  · intro i hmem
    obtain ⟨hcomplete, hgone⟩ := hinv.disconnected_gone i hmem
    have hne : i ≠ attempt := by
      rintro rfl
      exact hcomplete hnone
    rw [resultOf_complete hattempt, if_neg hne]
    refine ⟨hcomplete, ?_⟩
    rcases hresult with ⟨-, rfl⟩ | ⟨-, rfl⟩
    · exact (SftpManager.session_connected hne).trans hgone
    · exact hgone

theorem Inv.of_manager (hinv : Inv h s) {closers : List Nat} (hdisconnected : ∀ i,
    .disconnected i ∈ o → s.resultOf i ≠ none ∧ manager.session i = none)
    (hgone : ∀ i, s.manager.session i = none → manager.session i = none)
    (ho : ∀ x ∈ o, ∃ i, x = .disconnected i) :
    Inv (h ++ o) { s with manager := manager, closers := closers } := by
  have hbefore : ∀ i, BeforeCloseAll (h ++ o) i ↔ BeforeCloseAll h i := by
    intro i
    refine beforeCloseAll_append fun hmem => ?_
    obtain ⟨j, ⟨⟩⟩ := ho _ hmem
  have hconnecting : ∀ i, .connecting i ∉ o := by
    intro i hmem
    obtain ⟨j, ⟨⟩⟩ := ho _ hmem
  refine ⟨?_, hinv.entry_isOf, ?_, ?_, hinv.call_isOf, hinv.own_session, ?_⟩
  · intro i
    rw [List.mem_append, hinv.connecting_iff]
    exact or_iff_left (hconnecting i)
  · intro id i hentry
    rw [hbefore]
    exact hinv.entry_since id i hentry
  · intro i profile hattempt hsince
    rw [hbefore] at hsince
    exact hinv.in_flight i profile hattempt hsince
  · intro i hmem
    rcases List.mem_append.mp hmem with hmem | hmem
    · obtain ⟨hcomplete, hnone⟩ := hinv.disconnected_gone i hmem
      exact ⟨hcomplete, hgone i hnone⟩
    · exact hdisconnected i hmem

theorem Inv.closeAll (hinv : Inv h s) {closers : List Nat} :
    Inv (h ++ [.closingAll]) { s with closers := closers, sessions := [] } := by
  refine ⟨?_, ?_, ?_, ?_, hinv.call_isOf, hinv.own_session, ?_⟩
  · intro i
    rw [List.mem_append, hinv.connecting_iff]
    simp
  · rintro id i ⟨⟩
  · rintro id i ⟨⟩
  · intro i profile hattempt hsince
    rw [beforeCloseAll_closingAll, hinv.connecting_iff] at hsince
    exact absurd (List.getElem?_eq_some_iff.mp hattempt).1 hsince
  · intro i hmem
    exact hinv.disconnected_gone i (by simpa using hmem)

theorem Inv.step (hinv : Inv h s) (hstep : s.step e = some (s', o)) : Inv (h ++ o) s' := by
  rcases step_cases hstep with ⟨profile, pending, -, hentry, rfl, rfl⟩ | ⟨profile, -, hentry, rfl, rfl⟩ |
    ⟨call, profile, pending, result, -, hcall, hresult, ⟨-, hentry, rfl, rfl⟩ | ⟨rfl, rfl⟩⟩ |
    ⟨attempt, profile, result, manager, -, hattempt, hresult, rfl, rfl⟩ | ⟨sessionId, -, rfl, rfl⟩ |
    ⟨-, rfl, rfl⟩ |
    ⟨attempt, result, -, -, hresult, ⟨sessionId, rfl, rfl, rfl⟩ | ⟨failure, -, rfl, rfl⟩⟩
  · rw [List.append_nil]
    refine hinv.of_calls fun call hcall i hphase => ?_
    rcases List.mem_append.mp hcall with hcall | hcall
    · exact hinv.call_isOf call hcall i hphase
    · obtain rfl := List.mem_singleton.mp hcall
      rcases hphase with hphase | hphase
      · cases hphase
        exact hinv.entry_isOf _ _ hentry
      · cases hphase
  · have hconnect : Inv _ (s.connect profile) := hinv.connect fun pending hpending => by
      rw [hentry] at hpending
      cases hpending
    refine hconnect.of_calls fun call hcall i hphase => ?_
    rcases List.mem_append.mp hcall with hcall | hcall
    · exact hconnect.call_isOf call hcall i hphase
    · obtain rfl := List.mem_singleton.mp hcall
      rcases hphase with hphase | hphase
      · cases hphase
      · cases hphase
        exact isOf_connect_self
  · have hconnect : Inv _ (s.connect profile) := hinv.connect fun pending' hpending => by
      rw [hentry] at hpending
      cases hpending
      rw [hresult]
      simp
    refine hconnect.of_calls fun call' hcall' i hphase => ?_
    rcases List.mem_or_eq_of_mem_set hcall' with hcall' | rfl
    · exact hconnect.call_isOf call' hcall' i hphase
    · rcases hphase with hphase | hphase
      · cases hphase
      · cases hphase
        exact isOf_connect_self
  · rw [List.append_nil]
    refine hinv.of_calls fun call' hcall' i hphase => ?_
    rcases List.mem_or_eq_of_mem_set hcall' with hcall' | rfl
    · exact hinv.call_isOf call' hcall' i hphase
    · unfold answer at hphase
      simp only at hphase
      split at hphase
      case h_1 attempt hentry =>
        rcases hphase with hphase | hphase
        · cases hphase
        · cases hphase
          exact hinv.entry_isOf _ _ hentry
      case h_2 => rcases hphase with hphase | hphase <;> cases hphase
  · rw [List.append_nil]
    exact hinv.complete hattempt hresult
  · exact hinv.of_manager (by simp) (fun i => SftpManager.session_dropped_eq_none.mpr) (by simp)
  · exact hinv.closeAll
  · obtain rfl := hinv.own_session _ _ hresult
    refine hinv.of_manager ?_ ?_ (by simp)
    · intro i hmem
      cases List.mem_singleton.mp hmem
      rw [hresult, SftpManager.session_close, if_pos rfl]
      simp
    · intro i hnone
      rw [SftpManager.session_close, hnone, ite_self]
  · have hsame : ∀ i, s.manager.session i = none → s.manager.session i = none := fun _ hnone => hnone
    exact hinv.of_manager (by simp) hsame (by simp)

theorem inv_start : Inv [] {} := by
  refine ⟨by simp, ?_, ?_, by simp, by simp, ?_, by simp⟩
  · rintro id i ⟨⟩
  · rintro id i ⟨⟩
  · rintro i sessionId ⟨⟩

/-- No call has thrown, and no session is forgotten before it is closed. -/
structure Kept (h : List PoolObs) (s : SessionPool) : Prop where
  never_throws : ∀ call ∈ s.calls, call.phase ≠ .threw
  accounted : ∀ i attempt, s.attempts[i]? = some attempt → s.entry attempt.profile.id = some i ∨ i ∈ s.closers ∨
    (∃ failure, attempt.result = some (.error failure)) ∨ .disconnected i ∈ h

theorem Kept.connect (hkept : Kept h s)
    (hfailed : ∀ pending, s.entry profile.id = some pending → ∃ failure, s.resultOf pending = some (.error failure))
    (hcalls : ∀ call ∈ calls, call ∈ s.calls ∨ call.phase = .returning s.attempts.length) :
    Kept (h ++ [.connecting s.attempts.length]) { s.connect profile with calls := calls } := by
  constructor
  · intro call hcall
    rcases hcalls call hcall with hold | hnew
    · exact hkept.never_throws call hold
    · rw [hnew]
      simp
  · intro i attempt hattempt
    show (s.connect profile).entry attempt.profile.id = some i ∨ _
    rw [entry_connect]
    rcases getElem?_concat_eq_some.mp hattempt with hold | ⟨rfl, rfl⟩
    · rcases hkept.accounted i attempt hold with hentry | hcloser | hfailure | hclosed
      · split
        case isTrue hid =>
          obtain ⟨failure, hresult⟩ := hfailed i (hid ▸ hentry)
          obtain ⟨profile', hattempt'⟩ := resultOf_eq_some.mp hresult
          rw [hold] at hattempt'
          cases hattempt'
          exact .inr (.inr (.inl ⟨failure, rfl⟩))
        case isFalse => exact .inl hentry
      · exact .inr (.inl hcloser)
      · exact .inr (.inr (.inl hfailure))
      · exact .inr (.inr (.inr (List.mem_append_left _ hclosed)))
    · exact .inl (if_pos rfl)

theorem meets_resume (hmeets : s.meets (.resume call) = true)
    (hcall : s.calls[call]? = some ⟨profile, .waiting pending⟩) :
    ∃ attempt, s.entry profile.id = some attempt ∧ (attempt = pending → s.hasDropped pending = false) := by
  unfold meets at hmeets
  simp only [hcall] at hmeets
  split at hmeets
  case h_1 attempt hentry =>
    refine ⟨attempt, hentry, ?_⟩
    rintro rfl
    simpa using hmeets
  case h_2 => cases hmeets

theorem Kept.of_calls (hkept : Kept h s) (hcalls : ∀ call ∈ calls, call ∈ s.calls ∨ call.phase ≠ .threw) :
    Kept h { s with calls := calls } := by
  refine ⟨?_, hkept.accounted⟩
  intro call hcall
  rcases hcalls call hcall with hold | hnew
  · exact hkept.never_throws call hold
  · exact hnew

theorem Kept.step (hinv : Inv h s) (hkept : Kept h s) (hmeets : s.meets e = true) (hstep : s.step e = some (s', o)) :
    Kept (h ++ o) s' := by
  rcases step_cases hstep with ⟨profile, pending, -, hentry, rfl, rfl⟩ | ⟨profile, -, hentry, rfl, rfl⟩ |
    ⟨call, profile, pending, result, rfl, hcall, hresult, ⟨husable, hentry, rfl, rfl⟩ | ⟨rfl, rfl⟩⟩ |
    ⟨attempt, profile, result, manager, -, hattempt, hresult, rfl, rfl⟩ | ⟨sessionId, -, rfl, rfl⟩ |
    ⟨-, rfl, rfl⟩ |
    ⟨attempt, result, -, -, hresult, ⟨sessionId, rfl, rfl, rfl⟩ | ⟨failure, rfl, rfl, rfl⟩⟩
  · rw [List.append_nil]
    refine hkept.of_calls fun call hcall => ?_
    rcases List.mem_append.mp hcall with hcall | hcall
    · exact .inl hcall
    · rw [List.mem_singleton.mp hcall]
      simp
  · refine hkept.connect (fun pending hpending => ?_) fun call hcall => ?_
    · rw [hentry] at hpending
      cases hpending
    · rcases List.mem_append.mp hcall with hcall | hcall
      · exact .inl hcall
      · rw [List.mem_singleton.mp hcall]
        exact .inr rfl
  · refine hkept.connect (fun pending' hpending => ?_) fun call' hcall' => ?_
    · rw [hentry] at hpending
      cases hpending
      cases result with
      | error failure => exact ⟨failure, hresult⟩
      | ok sessionId =>
        obtain ⟨attempt, hfound, hkeeps⟩ := meets_resume hmeets hcall
        have hdropped := hkeeps (Option.some.inj (hfound.symm.trans hentry))
        unfold hasDropped at hdropped
        rw [hresult] at hdropped
        have hconnected : s.manager.isConnected sessionId = true := by simpa using hdropped
        unfold usable at husable
        simp only at husable
        rw [hconnected] at husable
        cases husable
    · rcases List.mem_or_eq_of_mem_set hcall' with hcall' | rfl
      · exact .inl hcall'
      · exact .inr rfl
  · rw [List.append_nil]
    refine hkept.of_calls fun call' hcall' => ?_
    rcases List.mem_or_eq_of_mem_set hcall' with hcall' | rfl
    · exact .inl hcall'
    · obtain ⟨attempt, hentry, -⟩ := meets_resume hmeets hcall
      unfold answer
      simp [hentry]
  · rw [List.append_nil]
    refine ⟨hkept.never_throws, ?_⟩
    intro i attempt' hi
    rcases (getElem?_set_eq_some hattempt).mp hi with ⟨rfl, rfl⟩ | ⟨-, hi⟩
    · rcases hkept.accounted i _ hattempt with hentry | hcloser | ⟨failure, hfailure⟩ | hclosed
      · exact .inl hentry
      · exact .inr (.inl hcloser)
      · cases hfailure
      · exact .inr (.inr (.inr hclosed))
    · exact hkept.accounted i attempt' hi
  · rw [List.append_nil]
    exact ⟨hkept.never_throws, hkept.accounted⟩
  · refine ⟨hkept.never_throws, ?_⟩
    intro i attempt hattempt
    rcases hkept.accounted i attempt hattempt with hentry | hcloser | hfailure | hclosed
    · exact .inr (.inl (List.mem_append_right _ (mem_of_entry hentry)))
    · exact .inr (.inl (List.mem_append_left _ hcloser))
    · exact .inr (.inr (.inl hfailure))
    · exact .inr (.inr (.inr (List.mem_append_left _ hclosed)))
  · obtain rfl := hinv.own_session _ _ hresult
    refine ⟨hkept.never_throws, ?_⟩
    intro i attempt hattempt
    rcases hkept.accounted i attempt hattempt with hentry | hcloser | hfailure | hclosed
    · exact .inl hentry
    · by_cases hsame : i = sessionId
      · exact .inr (.inr (.inr (by rw [hsame]; exact List.mem_concat_self)))
      · exact .inr (.inl ((List.mem_erase_of_ne hsame).mpr hcloser))
    · exact .inr (.inr (.inl hfailure))
    · exact .inr (.inr (.inr (List.mem_append_left _ hclosed)))
  · rw [List.append_nil]
    refine ⟨hkept.never_throws, ?_⟩
    intro i attempt' hattempt
    rcases hkept.accounted i attempt' hattempt with hentry | hcloser | hfailure | hclosed
    · exact .inl hentry
    · by_cases hsame : i = attempt
      · obtain ⟨profile', hfailed⟩ := resultOf_eq_some.mp hresult
        rw [hsame, hfailed] at hattempt
        cases hattempt
        exact .inr (.inr (.inl ⟨failure, rfl⟩))
      · exact .inr (.inl ((List.mem_erase_of_ne hsame).mpr hcloser))
    · exact .inr (.inr (.inl hfailure))
    · exact .inr (.inr (.inr hclosed))

theorem Quiet.resultOf_waiting (hquiet : s.Quiet) (hmem : (⟨profile, .waiting pending⟩ : SessionCall) ∈ s.calls) :
    s.resultOf pending = none := by
  obtain ⟨n, hn⟩ := List.getElem?_of_mem hmem
  have hstuck := hquiet (.resume n) rfl
  simp only [SessionPool.step, hn] at hstuck
  rw [ite_eq_right_iff] at hstuck
  by_contra hcomplete
  have hnone := hstuck (Option.isSome_iff_ne_none.mpr hcomplete)
  cases hnone

theorem Quiet.resultOf_closer (hquiet : s.Quiet) (hmem : attempt ∈ s.closers) : s.resultOf attempt = none := by
  have hstuck := hquiet (.closes attempt) rfl
  simp only [SessionPool.step, if_pos hmem] at hstuck
  split at hstuck
  case h_1 => cases hstuck
  case h_2 => cases hstuck
  case h_3 hnone => exact hnone

theorem resultOf_of_getElem? {attempt : Nat} {found : ConnectAttempt} (hattempt : s.attempts[attempt]? = some found) :
    s.resultOf attempt = found.result := by
  unfold resultOf
  rw [hattempt]

theorem Inv.one_in_flight (hinv : Inv h s) (i j : Nat) (attempt attempt' : ConnectAttempt)
    (hi : s.attempts[i]? = some attempt) (hj : s.attempts[j]? = some attempt')
    (hsame : attempt.profile.id = attempt'.profile.id) (hflight : attempt.result = none)
    (hflight' : attempt'.result = none) (hsince : ¬ BeforeCloseAll h i) (hsince' : ¬ BeforeCloseAll h j) :
    i = j := by
  obtain ⟨profile, _⟩ := attempt
  obtain ⟨profile', _⟩ := attempt'
  cases hflight
  cases hflight'
  have hentry := hinv.in_flight i profile hi hsince
  have hentry' := hinv.in_flight j profile' hj hsince'
  rw [← hsame] at hentry'
  exact Option.some.inj (hentry.symm.trans hentry')

theorem safe_of_kept (hinv : Inv h s) (hkept : Kept h s) : Safe h s := by
  refine ⟨hkept.never_throws, ?_, ?_, hinv.one_in_flight, ?_⟩
  · intro hquiet call hcall hcomplete
    obtain ⟨profile, phase⟩ := call
    cases phase with
    | waiting pending =>
      obtain ⟨profile', result, hattempt, hid⟩ := hinv.call_isOf _ hcall pending (.inl rfl)
      have hnone := hquiet.resultOf_waiting hcall
      rw [resultOf_of_getElem? hattempt] at hnone
      exact absurd hnone (hcomplete _ (List.mem_of_getElem? hattempt) hid)
    | returning attempt =>
      obtain ⟨profile', result, hattempt, hid⟩ := hinv.call_isOf _ hcall attempt (.inr rfl)
      have hmem := List.mem_of_getElem? hattempt
      exact ⟨_, hmem, hid, hcomplete _ hmem hid, resultOf_of_getElem? hattempt⟩
    | threw => exact absurd rfl (hkept.never_throws _ hcall)
  · intro call hcall result houtcome
    obtain ⟨profile, phase⟩ := call
    cases phase with
    | waiting => cases houtcome
    | returning attempt =>
      obtain ⟨profile', result', hattempt, hid⟩ := hinv.call_isOf _ hcall attempt (.inr rfl)
      refine ⟨_, List.mem_of_getElem? hattempt, hid, ?_⟩
      rw [← houtcome]
      exact (resultOf_of_getElem? hattempt).symm
    | threw => cases houtcome
  · intro hquiet i sessionId hresult hbefore
    obtain rfl := hinv.own_session i sessionId hresult
    obtain ⟨profile, hattempt⟩ := resultOf_eq_some.mp hresult
    have hclosed : .disconnected sessionId ∈ h := by
      rcases hkept.accounted _ _ hattempt with hentry | hcloser | ⟨failure, hfailure⟩ | hclosed
      · exact absurd hbefore (hinv.entry_since _ _ hentry)
      · rw [hquiet.resultOf_closer hcloser] at hresult
        cases hresult
      · cases hfailure
      · exact hclosed
    exact ⟨hclosed, (hinv.disconnected_gone _ hclosed).2⟩

theorem countP_waits_set {phase : CallPhase} (hcall : s.calls[call]? = some ⟨profile, .waiting pending⟩)
    (hphase : (⟨profile, phase⟩ : SessionCall).waits = false) :
    (s.calls.set call ⟨profile, phase⟩).countP SessionCall.waits < s.calls.countP SessionCall.waits := by
  obtain ⟨hlt, hget⟩ := List.getElem?_eq_some_iff.mp hcall
  have hwaits : SessionCall.waits s.calls[call] = true := by
    rw [hget]
    rfl
  have hpos : 0 < s.calls.countP SessionCall.waits :=
    List.countP_pos_iff.mpr ⟨_, List.getElem_mem hlt, hwaits⟩
  rw [List.countP_set hlt, if_pos hwaits, hphase]
  simp only [Bool.false_eq_true, if_false]
  omega

theorem tasks_lt (htask : e.isTask = true) (hstep : s.step e = some (s', o)) : s'.tasks < s.tasks := by
  have herase : ∀ {attempt}, attempt ∈ s.closers → (s.closers.erase attempt).length < s.closers.length := by
    intro attempt hmem
    have hpos := List.length_pos_of_mem hmem
    rw [List.length_erase_of_mem hmem]
    omega
  unfold tasks
  rcases step_cases hstep with ⟨profile, pending, rfl, -, -, -⟩ | ⟨profile, rfl, -, -, -⟩ |
    ⟨call, profile, pending, result, rfl, hcall, -, ⟨-, -, rfl, -⟩ | ⟨rfl, -⟩⟩ |
    ⟨_, _, _, _, hfalse, -⟩ | ⟨sessionId, rfl, -, -⟩ | ⟨rfl, -, -⟩ |
    ⟨attempt, result, rfl, hmem, -, ⟨sessionId, -, rfl, -⟩ | ⟨failure, -, rfl, -⟩⟩
  · cases htask
  · cases htask
  · have hphase : (⟨profile, .returning s.attempts.length⟩ : SessionCall).waits = false := rfl
    exact Nat.add_lt_add_right (countP_waits_set hcall hphase) _
  · have hphase : (⟨profile, s.answer profile⟩ : SessionCall).waits = false := by
      unfold answer
      split <;> rfl
    exact Nat.add_lt_add_right (countP_waits_set hcall hphase) _
  · rw [hfalse] at htask
    cases htask
  · cases htask
  · cases htask
  · exact Nat.add_lt_add_left (herase hmem) _
  · exact Nat.add_lt_add_left (herase hmem) _

/-- In every run in which each call that goes on finds an entry, and never one whose session has dropped, the pool
is safe, and the event loop gets to the end of what it has to do. -/
theorem pool_safe (hreach : Reaches step (fun s e => s.meets e = true) {} h s) :
    Safe h s ∧ ∀ e s' o, e.isTask = true → s.step e = some (s', o) → s'.tasks < s.tasks := by
  have hboth : Inv h s ∧ Kept h s := by
    refine hreach.invariant (I := fun h s => Inv h s ∧ Kept h s) ⟨inv_start, by simp, by simp⟩ ?_
    intro h s e s' o hboth hmeets hstep
    exact ⟨hboth.1.step hstep, hboth.2.step hboth.1 hmeets hstep⟩
  exact ⟨safe_of_kept hboth.1 hboth.2, fun e s' o htask hstep => tasks_lt htask hstep⟩

def files : SshProfile := quickConnectProfile { user := "ada", host := "files", port := 22 }

theorem pool_safe_files : ∃ h s, Reaches step (fun s e => s.meets e = true) {} h s ∧
    (Safe h s ∧ ∀ e s' o, e.isTask = true → s.step e = some (s', o) → s'.tasks < s.tasks) ∧
    .disconnected 0 ∈ h ∧ .disconnected 1 ∈ h := by
  have hrun := Reaches.exists_history step (G := fun s e => s.meets e = true) {}
    (P := fun h _ => .disconnected 0 ∈ h ∧ .disconnected 1 ∈ h) meets (fun _ _ hmeets => hmeets)
    [.call files, .call files, .connects 0, .resume 1, .closeAll, .call files, .closes 0, .connects 1, .drops 1,
      .closeAll, .closes 1] (by decide)
  obtain ⟨h, s, hreach, hclosed⟩ := hrun
  exact ⟨h, s, hreach, pool_safe hreach, hclosed⟩

/-- A call waits for a connect that another has started, and `closeAll` comes before it is through. -/
theorem waiting_call_throws : ¬ ∀ h s, Reaches step (fun _ _ => True) {} h s → Safe h s := by
  intro hall
  have hrun := Reaches.exists_of_events step {} (P := fun s : SessionPool => ∃ call ∈ s.calls, call.phase = .threw)
    [.call files, .call files, .closeAll, .connects 0, .resume 1] (by decide)
  obtain ⟨h, s, hreach, call, hcall, hthrew⟩ := hrun
  exact (hall h s hreach).never_throws call hcall hthrew

end SessionPool

end Portix.Sftp
