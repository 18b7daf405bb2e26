import Portix.Lib.Keyed
import Portix.Lib.Machine
import Portix.Profiles.SshProfile

/-!
# One SFTP session per profile

`SftpSessionPool` of `sftp_client/sftp_manager.dart` over `connect`, `close` and `isConnected` of `SftpManager`.
A future is the place of the connect attempt it comes from, and a session has the place of its attempt for an id:
the ids of the backend are new ones (`Uuid::new_v4`).
-/

namespace Portix.Sftp

open Lib Profiles

structure AppFailure where
  message : String
  cause : String

structure SftpSession where
  id : Nat
  profileId : String
  isConnected : Bool := true

structure SftpManager where
  sessions : List SftpSession := []

namespace SftpManager

variable (m : SftpManager) (sessionId : Nat)

def session : Option SftpSession := under SftpSession.id sessionId m.sessions

def isConnected : Bool :=
  match m.session sessionId with
  | some session => session.isConnected
  | none => false

def connected (profile : SshProfile) : SftpManager :=
  { m with sessions := m.sessions ++ [{ id := sessionId, profileId := profile.id }] }

def connectFailure (profile : SshProfile) (error : String) : AppFailure :=
  { message := "Failed to connect to " ++ profile.name, cause := error }

def dropped : SftpManager :=
  { m with sessions := m.sessions.map fun session =>
      if session.id = sessionId then { session with isConnected := false } else session }

def close : SftpManager :=
  { m with sessions := m.sessions.filter fun session => session.id ≠ sessionId }

end SftpManager

structure ConnectAttempt where
  profile : SshProfile
  result : Option (Except AppFailure Nat) := none

inductive CallPhase where
  | waiting (pending : Nat)
  | returning (attempt : Nat)
  | threw
  deriving DecidableEq

structure SessionCall where
  profile : SshProfile
  phase : CallPhase

def SessionCall.waits (call : SessionCall) : Bool :=
  match call.phase with
  | .waiting _ => true
  | .returning _ => false
  | .threw => false

/-- The sessions by profile, the attempts to connect, and the calls that wait for them. -/
structure SessionPool where
  manager : SftpManager := {}
  attempts : List ConnectAttempt := []
  sessions : List (String × Nat) := []
  calls : List SessionCall := []
  closers : List Nat := []

/-- The calls, the ends of the attempts, and the drops, in any order. -/
inductive PoolEvent where
  | call (profile : SshProfile)
  | resume (call : Nat)
  | connects (attempt : Nat)
  | fails (attempt : Nat) (error : String)
  | drops (sessionId : Nat)
  | closeAll
  | closes (attempt : Nat)

inductive PoolObs where
  | connecting (attempt : Nat)
  | closingAll
  | disconnected (sessionId : Nat)
  deriving DecidableEq

namespace SessionPool

variable (s : SessionPool)

def entry (id : String) : Option Nat := (under Prod.fst id s.sessions).map Prod.snd

def resultOf (attempt : Nat) : Option (Except AppFailure Nat) :=
  match s.attempts[attempt]? with
  | some attempt => attempt.result
  | none => none

def put (sessions : List (String × Nat)) (id : String) (attempt : Nat) : List (String × Nat) :=
  if id ∈ sessions.map Prod.fst then
    sessions.map fun entry => if entry.1 = id then (id, attempt) else entry
  else sessions ++ [(id, attempt)]

variable (profile : SshProfile)

def connect : SessionPool :=
  { s with
    attempts := s.attempts ++ [{ profile := profile }]
    sessions := put s.sessions profile.id s.attempts.length }

def usable (previous : Option (Except AppFailure Nat)) : Bool :=
  match previous with
  | some (.ok sessionId) => s.manager.isConnected sessionId
  | some (.error _) => false
  | none => false

def judge (pending : Option Nat) : SessionPool × List PoolObs :=
  if s.usable (pending.bind s.resultOf) = false ∧ s.entry profile.id = pending then
    (s.connect profile, [.connecting s.attempts.length])
  else (s, [])

def answer : CallPhase :=
  match s.entry profile.id with
  | some attempt => .returning attempt
  | none => .threw

/-- One step of the pool, with what it does to the sessions. -/
def step : PoolEvent → Option (SessionPool × List PoolObs)
  | .call profile =>
    match s.entry profile.id with
    | some pending => some ({ s with calls := s.calls ++ [⟨profile, .waiting pending⟩] }, [])
    | none =>
      let (s', o) := s.judge profile none
      some ({ s' with calls := s.calls ++ [⟨profile, s'.answer profile⟩] }, o)
  | .resume call =>
    match s.calls[call]? with
    | some ⟨profile, .waiting pending⟩ =>
      if (s.resultOf pending).isSome then
        let (s', o) := s.judge profile (some pending)
        some ({ s' with calls := s.calls.set call ⟨profile, s'.answer profile⟩ }, o)
      else none
    | _ => none
  | .connects attempt =>
    match s.attempts[attempt]? with
    | some ⟨profile, none⟩ =>
      some ({ s with
        manager := s.manager.connected attempt profile
        attempts := s.attempts.set attempt ⟨profile, some (.ok attempt)⟩ }, [])
    | _ => none
  | .fails attempt error =>
    match s.attempts[attempt]? with
    | some ⟨profile, none⟩ =>
      some ({ s with
        attempts := s.attempts.set attempt ⟨profile, some (.error (SftpManager.connectFailure profile error))⟩ },
        [])
    | _ => none
  | .drops sessionId =>
    if s.manager.isConnected sessionId = true then some ({ s with manager := s.manager.dropped sessionId }, [])
    else none
  | .closeAll =>
    some ({ s with closers := s.closers ++ s.sessions.map Prod.snd, sessions := [] }, [.closingAll])
  | .closes attempt =>
    if attempt ∈ s.closers then
      match s.resultOf attempt with
      | some (.ok sessionId) =>
        some ({ s with manager := s.manager.close sessionId, closers := s.closers.erase attempt },
          [.disconnected sessionId])
      | some (.error _) => some ({ s with closers := s.closers.erase attempt }, [])
      | none => none
    else none

end SessionPool

def PoolEvent.isTask : PoolEvent → Bool
  | resume _ => true
  | closes _ => true
  | call _ => false
  | connects _ => false
  | fails _ _ => false
  | drops _ => false
  | closeAll => false

namespace SessionPool

/-- The attempt was started before some `closeAll`. -/
def BeforeCloseAll (h : List PoolObs) (attempt : Nat) : Prop :=
  ∃ before after, h = before ++ .closingAll :: after ∧ .connecting attempt ∈ before

/-- Nothing is left for the event loop to do. -/
def Quiet (s : SessionPool) : Prop := ∀ e, e.isTask = true → s.step e = none

def tasks (s : SessionPool) : Nat := s.calls.countP SessionCall.waits + s.closers.length

def outcome (s : SessionPool) (call : SessionCall) : Option (Except AppFailure Nat) :=
  match call.phase with
  | .returning attempt => s.resultOf attempt
  | .waiting _ => none
  | .threw => none

structure Safe (h : List PoolObs) (s : SessionPool) : Prop where
  never_throws : ∀ call ∈ s.calls, call.phase ≠ .threw
  completes : s.Quiet → ∀ call ∈ s.calls,
    (∀ attempt ∈ s.attempts, attempt.profile.id = call.profile.id → attempt.result ≠ none) →
    ∃ attempt ∈ s.attempts, attempt.profile.id = call.profile.id ∧ attempt.result ≠ none ∧
      s.outcome call = attempt.result
  sound : ∀ call ∈ s.calls, ∀ result, s.outcome call = some result →
    ∃ attempt ∈ s.attempts, attempt.profile.id = call.profile.id ∧ attempt.result = some result
  one_in_flight : ∀ i j attempt attempt', s.attempts[i]? = some attempt → s.attempts[j]? = some attempt' →
    attempt.profile.id = attempt'.profile.id → attempt.result = none → attempt'.result = none →
    ¬ BeforeCloseAll h i → ¬ BeforeCloseAll h j → i = j
  closes : s.Quiet → ∀ i sessionId, s.resultOf i = some (.ok sessionId) → BeforeCloseAll h i →
    .disconnected sessionId ∈ h ∧ s.manager.session sessionId = none

def hasDropped (s : SessionPool) (attempt : Nat) : Bool :=
  match s.resultOf attempt with
  | some (.ok sessionId) => !s.manager.isConnected sessionId
  | some (.error _) => false
  | none => false

/-- A call that goes on finds an entry for its profile, and not one that it waited for and whose session has
dropped. -/
def meets (s : SessionPool) : PoolEvent → Bool
  | .resume call =>
    match s.calls[call]? with
    | some ⟨profile, .waiting pending⟩ =>
      match s.entry profile.id with
      | some attempt => attempt ≠ pending || !s.hasDropped pending
      | none => false
    | _ => true
  | _ => true

end SessionPool

end Portix.Sftp
