import Portix.Ssh.KeyboardInteractive

/-!
# Proofs: keyboard-interactive login

What one connect sends, by induction on the rounds the server asks; then, by induction on the typed
answers, that the `k`-th connect replays the first `k` of them.
-/

namespace Portix.Ssh

open Domain

variable {A : Type} {host : String} {port : UInt16} {password : Option String}
  {rounds : List PendingPrompts} {verdict : Bool}

theorem userRoundsBefore_cons (round : PendingPrompts) (i : Nat) : userRoundsBefore password (round :: rounds) (i + 1) =
      userRoundsBefore password rounds i + if needsUser password round then 1 else 0 := by
  rw [userRoundsBefore, List.take_succ_cons, List.countP_cons]
  rfl

variable {i j : Nat}

theorem userRoundsBefore_mono (password : Option String) (rounds : List PendingPrompts) (hij : i ≤ j) :
    userRoundsBefore password rounds i ≤ userRoundsBefore password rounds j :=
  (List.take_sublist_take_left hij).countP_le

theorem userRoundsBefore_succ {round : PendingPrompts} (hround : rounds[i]? = some round)
    (hneeds : needsUser password round = true) :
    userRoundsBefore password rounds (i + 1) = userRoundsBefore password rounds i + 1 := by
  rw [userRoundsBefore, List.take_add_one, hround, List.countP_append]
  simp [userRoundsBefore, hneeds]

theorem userRoundsBefore_skip {round : PendingPrompts} (hround : rounds[i]? = some round)
    (hneeds : needsUser password round = false) :
    userRoundsBefore password rounds (i + 1) = userRoundsBefore password rounds i := by
  rw [userRoundsBefore, List.take_add_one, hround, List.countP_append]
  simp [userRoundsBefore, hneeds]

theorem eq_of_userRoundsBefore_eq {round round' : PendingPrompts}
    (hi : rounds[i]? = some round) (hneeds : needsUser password round = true)
    (hj : rounds[j]? = some round') (hneeds' : needsUser password round' = true)
    (heq : userRoundsBefore password rounds i = userRoundsBefore password rounds j) : i = j := by
  have hsucci := userRoundsBefore_succ hi hneeds
  have hsuccj := userRoundsBefore_succ hj hneeds'
  rcases Nat.lt_trichotomy i j with hlt | rfl | hlt
  · have hmono := userRoundsBefore_mono password rounds (show i + 1 ≤ j from hlt)
    omega
  · rfl
  · have hmono := userRoundsBefore_mono password rounds (show j + 1 ≤ i from hlt)
    omega

def ReplyFrom (password : Option String) (answers : Option A) (round : PendingPrompts) :
    Reply A → Prop
  | .empty => round.prompts = []
  | .password saved => password = some saved ∧ isPasswordPrompt round.prompts = true
  | .typed a => needsUser password round = true ∧ answers = some a

theorem turn_cases (password : Option String) (round : PendingPrompts) (answers answered : List A) :
    (needsUser password round = false ∧ ∃ reply, ReplyFrom password none round reply ∧
      turn password round.prompts answers answered = .respond reply answers answered) ∨
    (needsUser password round = true ∧ ((answers = [] ∧ turn password round.prompts answers answered = .required) ∨
      ∃ a rest, answers = a :: rest ∧ turn password round.prompts answers answered =
        .respond (.typed a) rest (answered ++ [a]))) := by
  by_cases hempty : round.prompts = []
  · exact Or.inl ⟨by simp [needsUser, hempty], .empty, hempty, by simp [turn, hempty]⟩
  cases password with
  | none =>
    refine Or.inr ⟨by simp [needsUser, hempty], ?_⟩
    cases answers with
    | nil => exact Or.inl ⟨rfl, by simp [turn, hempty]⟩
    | cons a rest => exact Or.inr ⟨a, rest, rfl, by simp [turn, hempty]⟩
  | some saved =>
    cases hprompt : isPasswordPrompt round.prompts with
    | true =>
      exact Or.inl ⟨by simp [needsUser, hprompt], .password saved, ⟨rfl, hprompt⟩,
        by simp [turn, hempty, hprompt]⟩
    | false =>
      refine Or.inr ⟨by simp [needsUser, hempty, hprompt], ?_⟩
      cases answers with
      | nil => exact Or.inl ⟨rfl, by simp [turn, hempty, hprompt]⟩
      | cons a rest => exact Or.inr ⟨a, rest, rfl, by simp [turn, hempty, hprompt]⟩

/-- The end of a loop over a server's rounds: it stopped at the round whose answers are missing, or
it got through all of them. -/
def StopsAt (host : String) (port : UInt16) (password : Option String)
    (rounds : List PendingPrompts) (verdict : Bool) (answers answered : List A) (n : Nat)
    (result : Except PortixError Bool) (pending : Option (PendingPrompts × List A)) : Prop :=
  (∃ round, rounds[n]? = some round ∧ needsUser password round = true ∧
    userRoundsBefore password rounds n = answers.length ∧
    result = .error (.keyboardInteractiveRequired host port) ∧
    pending = some (round, answered ++ answers)) ∨
  (n = rounds.length ∧ userRoundsBefore password rounds rounds.length ≤ answers.length ∧
    result = .ok verdict ∧ pending = none)

section StopsAt

variable {round : PendingPrompts} {answers answered : List A} {n : Nat}
  {result : Except PortixError Bool} {pending : Option (PendingPrompts × List A)}

theorem StopsAt.cons_skip (hneeds : needsUser password round = false)
    (h : StopsAt host port password rounds verdict answers answered n result pending) :
    StopsAt host port password (round :: rounds) verdict answers answered (n + 1) result pending := by
  rcases h with ⟨round', hround', hneeds', hcount, hres, hpend⟩ | ⟨hlen, hcount, hrest⟩
  · refine Or.inl ⟨round', by simpa using hround', hneeds', ?_, hres, hpend⟩
    rw [userRoundsBefore_cons, hneeds]
    exact hcount
  · refine Or.inr ⟨by simp [hlen], ?_, hrest⟩
    rw [List.length_cons, userRoundsBefore_cons, hneeds]
    exact hcount

theorem StopsAt.cons_use {a : A} (hneeds : needsUser password round = true)
    (h : StopsAt host port password rounds verdict answers (answered ++ [a]) n result pending) :
    StopsAt host port password (round :: rounds) verdict (a :: answers) answered (n + 1) result pending := by
  rcases h with ⟨round', hround', hneeds', hcount, hres, hpend⟩ | ⟨hlen, hcount, hrest⟩
  · refine Or.inl ⟨round', by simpa using hround', hneeds', ?_, hres, ?_⟩
    · rw [userRoundsBefore_cons, hneeds, hcount]
      simp
    · rw [hpend, List.append_assoc]
      rfl
  · refine Or.inr ⟨by simp [hlen], ?_, hrest⟩
    rw [List.length_cons, userRoundsBefore_cons, hneeds, if_pos rfl, List.length_cons]
    omega

end StopsAt

theorem authLoop_asksRounds (host : String) (port : UInt16) (password : Option String)
    (rounds : List PendingPrompts) (verdict : Bool) : ∀ answers answered : List A,
    ∃ replies result pending, authLoop host port password (asksRounds rounds verdict) answers answered =
        (replies, result, pending) ∧
      (∀ i reply, replies[i]? = some reply → ∃ round, rounds[i]? = some round ∧
        ReplyFrom password answers[userRoundsBefore password rounds i]? round reply) ∧
      StopsAt host port password rounds verdict answers answered replies.length result pending := by
  induction rounds with
  | nil =>
    intro answers answered
    refine ⟨[], .ok verdict, none, ?_, by simp, Or.inr ⟨rfl, Nat.zero_le _, rfl, rfl⟩⟩
    cases verdict <;> rfl
  | cons round rounds ih =>
    intro answers answered
    have hasks : asksRounds (round :: rounds) verdict = .ok (.infoRequest round) :: asksRounds rounds verdict := rfl
    rw [hasks, authLoop]
    rcases turn_cases password round answers answered with
      ⟨hneeds, reply, hreply, hturn⟩ | ⟨hneeds, ⟨rfl, hturn⟩ | ⟨a, rest, rfl, hturn⟩⟩
    · obtain ⟨replies, result, pending, hloop, hreplies, hstop⟩ := ih answers answered
      refine ⟨reply :: replies, result, pending, by simp [hturn, hloop], ?_, hstop.cons_skip hneeds⟩
      · intro i r hr
        cases i with
        | zero =>
          obtain rfl : reply = r := by simpa using hr
          refine ⟨round, rfl, ?_⟩
          cases reply with
          | typed a => exact absurd hreply.2 (by simp)
          | _ => exact hreply
        | succ i =>
          obtain ⟨round', hround', hfrom⟩ := hreplies i r (by simpa using hr)
          refine ⟨round', by simpa using hround', ?_⟩
          rwa [userRoundsBefore_cons, hneeds]
    · refine ⟨[], _, some (round, answered), by simp only [hturn], by simp, Or.inl ⟨round, rfl, hneeds, rfl, rfl, ?_⟩⟩
      rw [List.append_nil]
    · obtain ⟨replies, result, pending, hloop, hreplies, hstop⟩ := ih rest (answered ++ [a])
      refine ⟨.typed a :: replies, result, pending, by simp [hturn, hloop], ?_, hstop.cons_use hneeds⟩
      · intro i r hr
        cases i with
        | zero =>
          obtain rfl : Reply.typed a = r := by simpa using hr
          exact ⟨round, rfl, hneeds, rfl⟩
        | succ i =>
          obtain ⟨round', hround', hfrom⟩ := hreplies i r (by simpa using hr)
          refine ⟨round', by simpa using hround', ?_⟩
          rwa [userRoundsBefore_cons, hneeds, if_pos rfl, List.getElem?_cons_succ]

structure Replays (host : String) (port : UInt16) (password : Option String)
    (rounds : List PendingPrompts) (verdict : Bool) (answers : List A) (attempt : Attempt A) :
    Prop where
  replies : ∀ i reply, attempt.replies[i]? = some reply → ∃ round, rounds[i]? = some round ∧
    ReplyFrom password answers[userRoundsBefore password rounds i]? round reply
  stops : StopsAt host port password rounds verdict answers [] attempt.replies.length
    attempt.result attempt.slot.pending
  answers : attempt.slot.answers = none

theorem authenticate_replays (host : String) (port : UInt16) (password : Option String)
    (rounds : List PendingPrompts) (verdict : Bool) (slot : Slot A) :
    Replays host port password rounds verdict (slot.answers.getD [])
      (authenticate host port password (asksRounds rounds verdict) slot) := by
  obtain ⟨replies, result, pending, hloop, hreplies, hstop⟩ :=
    authLoop_asksRounds host port password rounds verdict (slot.answers.getD []) []
  have heq : authenticate host port password (asksRounds rounds verdict) slot = ⟨replies, result, ⟨pending, none⟩⟩ := by
    unfold authenticate takeAnswers Slot.removeAnswers Slot.clearPending
    simp only [hloop]
    cases pending <;> rfl
  rw [heq]
  exact ⟨hreplies, hstop, rfl⟩

theorem iterate_replays (typed : List A) : ∀ {slot : Slot A} {k : Nat} {attempt : Attempt A},
    (iterate host port password (asksRounds rounds verdict) typed slot)[k]? = some attempt →
      k ≤ typed.length ∧ Replays host port password rounds verdict
        (slot.answers.getD [] ++ typed.take k) attempt := by
  induction typed with
  | nil =>
    intro slot k attempt hk
    cases k with
    | zero =>
      cases hk
      refine ⟨Nat.le_refl 0, ?_⟩
      rw [List.take_nil, List.append_nil]
      exact authenticate_replays host port password rounds verdict slot
    | succ k => cases hk
  | cons a rest ih =>
    intro slot k attempt hk
    have hfirst := authenticate_replays host port password rounds verdict slot
    rw [iterate] at hk
    cases k with
    | zero =>
      cases hk
      refine ⟨Nat.zero_le _, ?_⟩
      rw [List.take_zero, List.append_nil]
      exact hfirst
    | succ k =>
      rw [List.getElem?_cons_succ] at hk
      split at hk
      · rename_i hrequired
        obtain ⟨hle, hreplays⟩ := ih hk
        refine ⟨Nat.succ_le_succ hle, ?_⟩
        -- The round that was left to the user is kept with the answers replayed before it.
        rcases hfirst.stops with ⟨round, -, -, -, -, hpending⟩ | ⟨-, -, hok, -⟩
        · have hanswers : (answerPending (authenticate host port password
              (asksRounds rounds verdict) slot).slot a).answers.getD [] = slot.answers.getD [] ++ [a] := by
            simp [answerPending, Slot.storeAnswers, Slot.answered, hpending]
          rw [hanswers, List.append_assoc] at hreplays
          exact hreplays
        · rw [hok] at hrequired
          cases hrequired
      · cases hk

/-- What a connect that has the first `k` typed answers submits for the user was typed for that very
round. -/
theorem typedFor_of_reply {slot : Slot A} {typed : List A} (hslot : slot.answers = none) {k : Nat} {attempt : Attempt A}
    (hk : (iterate host port password (asksRounds rounds verdict) typed slot)[k]? = some attempt) {a : A}
    (hreply : attempt.replies[i]? = some (.typed a)) :
    ∃ round, rounds[i]? = some round ∧ needsUser password round = true ∧
      TypedFor (iterate host port password (asksRounds rounds verdict) typed slot) typed i round a := by
  obtain ⟨hkle, hreplays⟩ := iterate_replays typed hk
  rw [hslot, Option.getD_none, List.nil_append] at hreplays
  obtain ⟨round, hround, hneeds, ha⟩ := hreplays.replies i _ hreply
  refine ⟨round, hround, hneeds, ?_⟩
  generalize hu : userRoundsBefore password rounds i = u at ha
  obtain ⟨hult, hua⟩ : u < k ∧ typed[u]? = some a := by
    rw [List.getElem?_take] at ha
    split at ha
    · exact ⟨‹_›, ha⟩
    · cases ha
  -- The connect before those answers were typed.
  obtain ⟨before, hbefore⟩ : ∃ before,
      (iterate host port password (asksRounds rounds verdict) typed slot)[u]? = some before := by
    obtain ⟨hklt, -⟩ := List.getElem?_eq_some_iff.mp hk
    exact ⟨_, List.getElem?_eq_getElem (Nat.lt_trans hult hklt)⟩
  obtain ⟨hule, hbeforeReplays⟩ := iterate_replays typed hbefore
  rw [hslot, Option.getD_none, List.nil_append] at hbeforeReplays
  have hlen : (typed.take u).length = u := List.length_take_of_le hule
  rcases hbeforeReplays.stops with
    ⟨round', hround', hneeds', hcount, -, hpending⟩ | ⟨-, hcount, -, -⟩
  · have hi : before.replies.length = i :=
      eq_of_userRoundsBefore_eq hround' hneeds' hround hneeds (by rw [hcount, hlen, hu])
    rw [hi, hround, Option.some.injEq] at hround'
    exact ⟨u, before, hbefore, hi, by rw [pendingPrompts, hpending, hround']; rfl, hua⟩
  · -- A connect that got through all rounds had the answers to the `i`-th.
    have hsucc := userRoundsBefore_succ hround hneeds
    obtain ⟨hilt, -⟩ := List.getElem?_eq_some_iff.mp hround
    have hmono := userRoundsBefore_mono password rounds (show i + 1 ≤ rounds.length from hilt)
    omega

/-- Replaying gives each round its own answers. In every connect, an empty round is answered with
nothing, a password round with the saved password, and any other with what was typed for it. The
`k`-th connect stops at the `k`-th round that needs the user, keeping the answers to the rounds
before it and nothing else, or it gets through all rounds and keeps nothing. -/
theorem replay_right (host : String) (port : UInt16) (password : Option String)
    (rounds : List PendingPrompts) (verdict : Bool) (typed : List A) (slot : Slot A)
    (hslot : slot.answers = none) (k : Nat) (attempt : Attempt A)
    (hk : (iterate host port password (asksRounds rounds verdict) typed slot)[k]? = some attempt) :
    (∀ i reply, attempt.replies[i]? = some reply → ∃ round, rounds[i]? = some round ∧
      RightReply (iterate host port password (asksRounds rounds verdict) typed slot) typed password
        i round reply) ∧
    attempt.slot.answers = none ∧
    ((∃ round, rounds[attempt.replies.length]? = some round ∧ needsUser password round = true ∧
        userRoundsBefore password rounds attempt.replies.length = k ∧
        attempt.result = .error (.keyboardInteractiveRequired host port) ∧
        attempt.slot.pending = some (round, typed.take k)) ∨
      (attempt.replies.length = rounds.length ∧ attempt.result = .ok verdict ∧
        attempt.slot.pending = none)) := by
  obtain ⟨hkle, hreplays⟩ := iterate_replays typed hk
  rw [hslot, Option.getD_none, List.nil_append] at hreplays
  refine ⟨fun i reply hreply => ?_, hreplays.answers, ?_⟩
  · obtain ⟨round, hround, hfrom⟩ := hreplays.replies i reply hreply
    cases reply with
    | empty => exact ⟨round, hround, hfrom⟩
    | password saved => exact ⟨round, hround, hfrom⟩
    | typed a => exact typedFor_of_reply hslot hk hreply
  · rcases hreplays.stops with ⟨round, hround, hneeds, hcount, hresult, hpending⟩ |
      ⟨hlen, -, hresult, hpending⟩
    · rw [List.length_take_of_le hkle] at hcount
      exact Or.inl ⟨round, hround, hneeds, hcount, hresult, hpending⟩
    · exact Or.inr ⟨hlen, hresult, hpending⟩

def codeRounds : List PendingPrompts :=
  [⟨"", "Welcome", []⟩, ⟨"", "", [("Password: ", false)]⟩, ⟨"", "", [("Code: ", false)]⟩,
    ⟨"", "", [("Second code: ", true)]⟩]

def codeLogin : List (Attempt (List String)) :=
  iterate "h" 22 (some "secret") (asksRounds codeRounds true) [["111"], ["222"]] ⟨none, none⟩

theorem replay_right_codes :
    ∃ attempt, codeLogin[2]? = some attempt ∧
      attempt.replies = [.empty, .password "secret", .typed ["111"], .typed ["222"]] ∧
      (∀ i reply, attempt.replies[i]? = some reply → ∃ round, codeRounds[i]? = some round ∧
        RightReply codeLogin [["111"], ["222"]] (some "secret") i round reply) ∧
      attempt.slot.answers = none := by
  have hreplies : (codeLogin[2]?).map Attempt.replies =
      some [.empty, .password "secret", .typed ["111"], .typed ["222"]] := by decide
  obtain ⟨attempt, hattempt, hreplies⟩ := Option.map_eq_some_iff.mp hreplies
  have hright := replay_right "h" 22 (some "secret") codeRounds true [["111"], ["222"]]
    ⟨none, none⟩ rfl 2 attempt hattempt
  exact ⟨attempt, hattempt, hreplies, hright.1, hright.2.1⟩

/-- Typed answers that are still kept. -/
def Stored {A : Type} (slot : Slot A) (answers : A) : Prop :=
  answers ∈ slot.answered ∨ answers ∈ slot.answers.getD []

/-- The second connect submits the first code, and keeps it with the round of the second one. -/
theorem submitted_code_stored :
    ¬ ∀ (k : Nat) (attempt : Attempt (List String)), codeLogin[k]? = some attempt →
      ∀ answers, .typed answers ∈ attempt.replies → ¬ Stored attempt.slot answers := by
  intro hclaim
  have hsecond : (codeLogin[1]?).map (fun attempt => (attempt.replies, attempt.slot.answered)) =
      some ([.empty, .password "secret", .typed ["111"]], [["111"]]) := by decide
  obtain ⟨attempt, hattempt, heq⟩ := Option.map_eq_some_iff.mp hsecond
  obtain ⟨hreplies, hanswered⟩ := Prod.mk.inj heq
  refine hclaim 1 attempt hattempt ["111"] ?_ (Or.inl ?_)
  · rw [hreplies]
    simp
  · rw [hanswered]
    simp

end Portix.Ssh
