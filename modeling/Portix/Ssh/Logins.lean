import Portix.Ssh.KeyboardInteractive
import Portix.Lib.Machine

/-!
# Logins at one host and port

Any number of connects to one host and port, by any users, share the entries of both maps with the
user's dialogs. Each step is one locked section of the code, or one message of the server. What is
typed carries along which round of which login it was typed for; the code never looks at that.
-/

namespace Portix.Ssh

open Lib Domain

structure Login where
  username : String
  password : Option String
  deriving DecidableEq

/-- A round as the user sees it: whose it is, which one, and what was typed for the rounds before. -/
structure Shown where
  login : Login
  round : Nat
  earlier : List (List String)

structure Typed where
  shown : Shown
  texts : List String

inductive Phase where
  | begun
  | cleared
  | running (round : Nat) (answers answered : List Typed)
  | ended (result : Except PortixError Bool)

def Phase.active : Phase → Bool
  | cleared => true
  | running _ _ _ => true
  | _ => false

structure Connect where
  login : Login
  phase : Phase

structure Answering where
  earlier : List Typed
  typed : Typed

/-- The slot that all logins share, the logins, and the dialogs on the screen. -/
structure LoginState where
  slot : Slot Typed
  connects : List Connect
  dialogs : List Shown
  answering : List Answering
  origin : Option (Login × Nat)
  owed : Login → Option Typed

def LoginState.initial : LoginState := ⟨⟨none, none⟩, [], [], [], none, fun _ => none⟩

/-- The steps of the logins and of the dialogs, in any order. -/
inductive LoginEvent where
  | connect (login : Login)
  | clear (c : Nat)
  | take (c : Nat)
  | response (c : Nat) (response : Except PortixError AuthResponse)
  | display
  | cancel (d : Nat)
  | answer (d : Nat) (texts : List String)
  | store (k : Nat)

inductive LoginObs where
  | taken (login : Login) (answers : List Typed)
  | submitted (login : Login) (round : Nat) (reply : Reply Typed)

def LoginState.setPhase (s : LoginState) (c : Nat) (login : Login) (phase : Phase) : LoginState :=
  { s with connects := s.connects.set c ⟨login, phase⟩ }

def onResponse (host : String) (port : UInt16) (s : LoginState) (c : Nat) (login : Login)
    (round : Nat) (answers answered : List Typed) :
    Except PortixError AuthResponse → LoginState × List LoginObs
  | .error e => (s.setPhase c login (.ended (.error e)), [])
  | .ok .success => (s.setPhase c login (.ended (.ok true)), [])
  | .ok .failure => (s.setPhase c login (.ended (.ok false)), [])
  | .ok (.infoRequest prompts) =>
    match turn login.password prompts.prompts answers answered with
    | .respond reply answers answered =>
      (s.setPhase c login (.running (round + 1) answers answered), [.submitted login round reply])
    | .required =>
      ({ s.setPhase c login (.ended (.error (.keyboardInteractiveRequired host port))) with
        slot := { s.slot with pending := some (prompts, answered) }
        origin := some (login, round) }, [])

def loginStep (host : String) (port : UInt16) (s : LoginState) :
    LoginEvent → Option (LoginState × List LoginObs)
  | .connect login => some ({ s with connects := s.connects ++ [⟨login, .begun⟩] }, [])
  | .clear c =>
    match s.connects[c]? with
    | some ⟨login, .begun⟩ =>
      some ({ s.setPhase c login .cleared with slot := s.slot.clearPending }, [])
    | _ => none
  | .take c =>
    match s.connects[c]? with
    | some ⟨login, .cleared⟩ =>
      let (answers, slot) := s.slot.removeAnswers
      some ({ s.setPhase c login (.running 0 answers []) with
        slot := slot
        owed := Function.update s.owed login none }, [.taken login answers])
    | _ => none
  | .response c response =>
    match s.connects[c]? with
    | some ⟨login, .running round answers answered⟩ =>
      some (onResponse host port s c login round answers answered response)
    | _ => none
  | .display =>
    match s.slot.pending, s.origin with
    | some (_, answered), some (login, round) =>
      some ({ s with dialogs := s.dialogs ++ [⟨login, round, answered.map Typed.texts⟩] }, [])
    | _, _ => some (s, [])
  | .cancel d => some ({ s with dialogs := s.dialogs.eraseIdx d }, [])
  | .answer d texts =>
    match s.dialogs[d]? with
    | some shown => some ({ s with
        slot := s.slot.clearPending
        dialogs := s.dialogs.eraseIdx d
        answering := s.answering ++ [⟨s.slot.answered, ⟨shown, texts⟩⟩] }, [])
    | none => none
  | .store k =>
    match s.answering[k]? with
    | some ⟨earlier, typed⟩ => some ({ s with
        slot := s.slot.storeAnswers (earlier ++ [typed])
        answering := s.answering.eraseIdx k
        owed := Function.update s.owed typed.shown.login (some typed) }, [])
    | none => none

/-- Typed answers are submitted by the user name, and as the round, they were typed for. -/
def SubmitsOwn (o : List LoginObs) : Prop :=
  ∀ login round typed, .submitted login round (.typed typed) ∈ o →
    typed.shown.login.username = login.username ∧ typed.shown.round = round

/-- A connect takes what is owed to its login, with what was typed for the rounds before. -/
def TakesOwed (s : LoginState) (o : List LoginObs) : Prop :=
  ∀ login answers, .taken login answers ∈ o → ∀ typed, s.owed login = some typed →
    answers.map Typed.texts = typed.shown.earlier ++ [typed.texts]

/-- Logins do not overlap. A connect starts while no other is under way, no dialog is open, and no
answers are waiting that were typed for another login; a shown round is answered while it is
pending; and the server asks a login the same rounds each time. -/
def NoOverlap (rounds : Login → List PendingPrompts) (s : LoginState) : LoginEvent → Prop
  | .clear c => ∀ login phase, s.connects[c]? = some ⟨login, phase⟩ →
      (∀ connect ∈ s.connects, connect.phase.active = false) ∧ s.answering = [] ∧
      s.dialogs = [] ∧ ∀ typed ∈ s.slot.answers.getD [], typed.shown.login = login
  | .response c (.ok (.infoRequest prompts)) => ∀ login round answers answered,
      s.connects[c]? = some ⟨login, .running round answers answered⟩ →
      (rounds login)[round]? = some prompts
  | .answer _ _ => s.slot.pending.isSome = true
  | _ => True

end Portix.Ssh
