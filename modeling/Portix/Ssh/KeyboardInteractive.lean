import Portix.Domain.Errors
import Mathlib.Data.List.Infix

/-!
# Keyboard-interactive login

`infrastructure/keyboard_interactive.rs`: the rounds of prompts a connect cannot answer are kept for
the user, and what the user types is kept for the next connect. Both maps are keyed by host and
port, and every function touches only the entries of its own host and port; these two entries are
a `Slot`. What the user types for one round is of the type `A`; in the crate it is a list of texts.
-/

namespace Portix.Ssh

open Domain

/-- A round of prompts; each prompt has its text and whether the typed answer is echoed. -/
structure PendingPrompts where
  name : String
  instructions : String
  prompts : List (String × Bool)

/-- The prompts that wait for an answer, and the answers for the next attempt. -/
structure Slot (A : Type) where
  pending : Option (PendingPrompts × List A)
  answers : Option (List A)

/-- What a prompt is replied. -/
inductive Reply (A : Type) where
  | empty
  | password (saved : String)
  | typed (answers : A)
  deriving DecidableEq

def Reply.texts : Reply (List String) → List String
  | empty => []
  | password saved => [saved]
  | typed answers => answers

/-- A lone hidden prompt mentioning "password". No letter of that word has a lower case outside
ASCII, so lowering ASCII letters is enough. -/
def isPasswordPrompt (prompts : List (String × Bool)) : Bool :=
  match prompts with
  | [(text, false)] => decide ("password".toList <:+: text.toList.map Char.toLower)
  | _ => false

inductive AuthResponse where
  | success
  | failure
  | infoRequest (round : PendingPrompts)

section

variable {A : Type} (slot : Slot A)

def pendingPrompts : Option PendingPrompts := slot.pending.map Prod.fst

def Slot.answered : List A := (slot.pending.map Prod.snd).getD []

def Slot.clearPending : Slot A := { slot with pending := none }

def Slot.storeAnswers (answers : List A) : Slot A :=
  { slot with answers := some answers }

def Slot.removeAnswers : List A × Slot A :=
  (slot.answers.getD [], { slot with answers := none })

/-- The user's answers to the pending round, and the ones before it, are kept for the next
connect. -/
def answerPending (answers : A) : Slot A :=
  slot.clearPending.storeAnswers (slot.answered ++ [answers])

def takeAnswers : List A × Slot A := slot.clearPending.removeAnswers

/-- What a round leads to: a reply, with the answers left to replay and the ones replayed, or the
round is left to the user. -/
inductive Turn (A : Type) where
  | respond (reply : Reply A) (answers answered : List A)
  | required

variable (password : Option String)

def turn (prompts : List (String × Bool)) (answers answered : List A) :
    Turn A :=
  if prompts = [] then .respond .empty answers answered
  else match password, isPasswordPrompt prompts with
    | some saved, true => .respond (.password saved) answers answered
    | _, _ => match answers with
      | reply :: answers => .respond (.typed reply) answers (answered ++ [reply])
      | [] => .required

/-- The loop of `authenticate` over what the server says; a server that says nothing any more runs
into the time limit. -/
def authLoop (host : String) (port : UInt16) (password : Option String) :
    List (Except PortixError AuthResponse) → List A → List A →
      List (Reply A) × Except PortixError Bool × Option (PendingPrompts × List A)
  | [], _, _ => ([], .error .authenticationTimeout, none)
  | .error e :: _, _, _ => ([], .error e, none)
  | .ok .success :: _, _, _ => ([], .ok true, none)
  | .ok .failure :: _, _, _ => ([], .ok false, none)
  | .ok (.infoRequest round) :: rest, answers, answered =>
    match turn password round.prompts answers answered with
    | .respond reply answers answered =>
      let (replies, result, pending) := authLoop host port password rest answers answered
      (reply :: replies, result, pending)
    | .required => ([], .error (.keyboardInteractiveRequired host port), some (round, answered))

structure Attempt (A : Type) where
  replies : List (Reply A)
  result : Except PortixError Bool
  slot : Slot A

def authenticate (host : String) (port : UInt16) (password : Option String)
    (responses : List (Except PortixError AuthResponse)) (slot : Slot A) : Attempt A :=
  let (answers, slot) := takeAnswers slot
  let (replies, result, pending) := authLoop host port password responses answers []
  ⟨replies, result, match pending with
    | some pending => { slot with pending := some pending }
    | none => slot⟩

/-- A server that asks the same rounds whatever it is answered, and then decides. -/
def asksRounds (rounds : List PendingPrompts) (verdict : Bool) :
    List (Except PortixError AuthResponse) :=
  rounds.map (fun round => .ok (.infoRequest round)) ++ [.ok (if verdict then .success else .failure)]

/-- Connect; as long as input is required, give the next typed answers and connect again. -/
def iterate (host : String) (port : UInt16) (password : Option String)
    (responses : List (Except PortixError AuthResponse)) : List A → Slot A → List (Attempt A)
  | [], slot => [authenticate host port password responses slot]
  | typed :: rest, slot =>
    let attempt := authenticate host port password responses slot
    attempt :: if attempt.result = .error (.keyboardInteractiveRequired host port) then
      iterate host port password responses rest (answerPending attempt.slot typed)
    else []

def needsUser (round : PendingPrompts) : Bool :=
  round.prompts ≠ [] && !(password.isSome && isPasswordPrompt round.prompts)

def userRoundsBefore (rounds : List PendingPrompts) (i : Nat) : Nat :=
  (rounds.take i).countP (needsUser password)

/-- The answers were typed for the `i`-th round: some connect stopped at it and showed it, and they
are what the user typed then. -/
def TypedFor (attempts : List (Attempt A)) (typed : List A) (i : Nat) (round : PendingPrompts)
    (answers : A) : Prop :=
  ∃ (j : Nat) (attempt : Attempt A), attempts[j]? = some attempt ∧ attempt.replies.length = i ∧
    pendingPrompts attempt.slot = some round ∧ typed[j]? = some answers

def RightReply (attempts : List (Attempt A)) (typed : List A) (password : Option String) (i : Nat)
    (round : PendingPrompts) : Reply A → Prop
  | .empty => round.prompts = []
  | .password saved => password = some saved ∧ isPasswordPrompt round.prompts = true
  | .typed answers => needsUser password round = true ∧ TypedFor attempts typed i round answers

end

end Portix.Ssh
