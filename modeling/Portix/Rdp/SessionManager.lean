import Portix.Lib.Machine
import Portix.Rdp.Runtime

/-!
# The RDP session manager

`RdpSessionManager` of `application/session_manager.rs` with the tasks it spawns. Calls and tasks
take their steps in any order; a step is what happens between two waits, so the sections in which
the session map or the profile index is locked are steps. Only the calls that send input keep the
map locked while they wait.
-/

namespace Portix.Rdp

open Lib

/-- Where the task of a session is, through its runtime to its clean-up. -/
inductive RdpTaskPhase where
  | absent
  | inRuntime (phase : RuntimePhase)
  | finished (result : Except RdpError Unit)
  | reported (error : RdpError)
  | leaving
  | unindexing
  | cleaned
  deriving DecidableEq

def RdpTaskPhase.isOpen : RdpTaskPhase → Bool
  | inRuntime _ => true
  | _ => false

/-- Who holds the handle of a session. -/
inductive HandlePlace where
  | creating
  | listed
  | taken
  | dropped
  deriving DecidableEq

/-- A session: its task, the place of its handle, and its queue. -/
structure RdpSession where
  profile : RdpProfile
  phase : RdpTaskPhase
  handle : HandlePlace
  queue : List RdpCommand
  cancelled : Bool
  told : Bool

def RdpSession.absent : RdpSession where
  profile := ⟨"", "", 0, "", false, false, none, ""⟩
  phase := .absent
  handle := .dropped
  queue := []
  cancelled := false
  told := false

def rdpCommandCapacity : Nat := 32

inductive RdpObs where
  | status (event : RdpStatusEvent)
  | error (event : RdpErrorEvent)
  | connectReturned (call : Nat) (result : Except RdpError RdpSessionInfo)
  | inputReturned (call : Nat) (result : Except RdpError Unit)

def RdpObs.sessionId : RdpObs → Option String
  | status event => some event.sessionId
  | error event => event.sessionId
  | _ => none

def RdpObs.finalStatus (id : String) : RdpObs → Option RdpConnectionStatus
  | status event => if event.sessionId = id ∧ (event.status = .disconnected ∨ event.status = .error)
    then some event.status else none
  | _ => none

def RdpObs.isErrorOf (id : String) : RdpObs → Bool
  | error event => event.sessionId = some id
  | _ => false

def finalStatuses (id : String) (h : List RdpObs) : List RdpConnectionStatus :=
  h.filterMap (RdpObs.finalStatus id)

inductive RdpTaskEvent where
  | stop
  | shutdown
  | runtime (event : RuntimeEvent)
  | report
  | remove
  | unindex

namespace RdpSession

def isClosed (s : RdpSession) : Bool := !s.phase.isOpen

def isLive (s : RdpSession) : Bool := s.phase.isOpen && !s.told

def finish (s : RdpSession) (result : Except RdpError Unit) : RdpSession :=
  { s with phase := .finished result, queue := [] }

def cancel (s : RdpSession) : RdpSession :=
  { s with cancelled := true, told := s.told || s.phase.isOpen }

def turn (s : RdpSession) (id : String) : RuntimeTurn → RdpSession × List RdpObs
  | .goesOn phase queue status => ({ s with phase := .inRuntime phase, queue := queue },
      status.toList.map fun (status, message) => .status ⟨id, status, some message⟩)
  | .returns result => (s.finish result, [])

def unlist (s : RdpSession) : RdpSession :=
  if s.handle = .listed then { s with handle := .dropped } else s

def taskStep (s : RdpSession) (id : String) (globalCancel : Bool) (event : RdpTaskEvent) :
    Option (RdpSession × List RdpObs) :=
  match s.phase, event with
  | .inRuntime _, .stop => if s.cancelled then some (s.finish (.ok ()), []) else none
  | .inRuntime _, .shutdown => if globalCancel then some (s.finish (.ok ()), []) else none
  | .inRuntime phase, .runtime event =>
    (runtimeStep s.profile s.cancelled s.queue (s.handle ≠ .dropped) phase event).map (s.turn id)
  | .finished (.ok ()), .report => some ({ s with phase := .leaving },
      [.status ⟨id, .disconnected, some "disconnected normally"⟩])
  | .finished (.error e), .report =>
    some ({ s with phase := .reported e }, [.error ⟨some id, e.text, "UNKNOWN"⟩])
  | .reported e, .report =>
    some ({ s with phase := .leaving }, [.status ⟨id, .error, some e.text⟩])
  | _, _ => none

end RdpSession

/-- The calls from the app. -/
inductive RdpCall where
  | connect (profile : RdpProfile)
  | disconnect (id : String)
  | disconnectAll
  | input (id : String) (command : RdpCommand)

def sendMouseMove (id : String) (x y : UInt16) : RdpCall := .input id (.mouseMove x y)

def sendMouseButton (id : String) (x y : UInt16) (button : UInt8) (down : Bool) : RdpCall :=
  .input id (.mouseButton x y button down)

def sendMouseWheel (id : String) (x y : UInt16) (delta : Int16) (isVertical : Bool) : RdpCall :=
  .input id (.mouseWheel x y delta isVertical)

def sendKeyboardInput (id : String) (hidUsage : UInt16) (down : Bool) : RdpCall :=
  .input id (.keyboardInput hidUsage down)

/-- Between which two awaits a call is. -/
inductive CallPhase where
  | idle
  | checking (profile : RdpProfile)
  | found (profile : RdpProfile) (existing : String)
  | stale (profile : RdpProfile) (existing : String)
  | staleIndex (profile : RdpProfile)
  | creating (profile : RdpProfile)
  | spawned (profile : RdpProfile) (id : String)
  | inserted (profile : RdpProfile) (id : String)
  | disconnecting (id : String)
  | taken (id : String)
  | closing (id : String)
  | unindexing (id : String)
  | draining
  | drained (ids : List String)
  | closingOne (id : String) (rest : List String)
  | inputting (id : String) (command : RdpCommand)
  | sending (id : String) (command : RdpCommand)
  | returned
  deriving DecidableEq

/-- The sessions, the map of the handles, the index by profile with its lock, and the calls. -/
structure RdpManager where
  sessions : String → RdpSession
  ids : List String
  index : String → Option String
  lock : Option Nat
  globalCancel : Bool
  calls : Nat → CallPhase
  nextCall : Nat

def RdpManager.initial : RdpManager where
  sessions := fun _ => .absent
  ids := []
  index := fun _ => none
  lock := none
  globalCancel := false
  calls := fun _ => .idle
  nextCall := 0

/-- The steps of the calls and of the tasks, in any order. -/
inductive RdpEvent where
  | begin (call : RdpCall)
  | advance (call : Nat)
  | create (call : Nat) (id : String)
  | close (call : Nat) (id : String)
  | task (id : String) (event : RdpTaskEvent)
  | drop

namespace RdpManager

variable (s : RdpManager)

def setSession (id : String) (session : RdpSession) : RdpManager :=
  { s with sessions := Function.update s.sessions id session }

def setCall (c : Nat) (phase : CallPhase) : RdpManager :=
  { s with calls := Function.update s.calls c phase }

def setIndex (profileId : String) (entry : Option String) : RdpManager :=
  { s with index := Function.update s.index profileId entry }

def activeSessionForProfile (profileId : String) : Option String :=
  s.index profileId

def isSessionActive (id : String) : Bool := (s.sessions id).handle = .listed

def profileOf (id : String) : String := (s.sessions id).profile.id

def begin (call : RdpCall) : RdpManager × List RdpObs :=
  let next := { s with nextCall := s.nextCall + 1 }
  match call with
  | .connect profile =>
    match profile.validate with
    | .error e => (next.setCall s.nextCall .returned, [.connectReturned s.nextCall (.error e)])
    | .ok () => (next.setCall s.nextCall (.checking profile), [])
  | .disconnect id => (next.setCall s.nextCall (.disconnecting id), [])
  | .disconnectAll => (next.setCall s.nextCall .draining, [])
  | .input id command => (next.setCall s.nextCall (.inputting id command), [])

/-- `send` on a session's command queue: the session afterwards, and whether it was accepted, unless
there is no room. -/
def send (session : RdpSession) (command : RdpCommand) : Option (RdpSession × Bool) :=
  if session.isClosed then some (session, false)
  else if session.queue.length < rdpCommandCapacity then
    some ({ session with queue := session.queue ++ [command] }, true)
  else none

def take (session : RdpSession) : RdpSession :=
  if session.handle = .listed then { session with handle := .taken } else session

def inputResult (accepted : Bool) : Except RdpError Unit :=
  if accepted then .ok () else .error .disconnected

def advance (c : Nat) : Option (RdpManager × List RdpObs) :=
  match s.calls c with
  | .checking profile =>
    match s.index profile.id with
    | some existing => some (s.setCall c (.found profile existing), [])
    | none => some (s.setCall c (.creating profile), [])
  | .found profile existing =>
    let session := s.sessions existing
    if s.lock ≠ none then none
    else if session.handle ≠ .listed then some (s.setCall c (.creating profile), [])
    else if session.isClosed then some (s.setCall c (.stale profile existing), [])
    else some (s.setCall c .returned,
      [.connectReturned c (.ok ⟨existing, session.profile.id, .connecting⟩)])
  | .stale profile existing =>
    if s.lock ≠ none then none
    else some ((s.setSession existing (s.sessions existing).unlist).setCall c (.staleIndex profile),
      [])
  | .staleIndex profile => some ((s.setIndex profile.id none).setCall c (.creating profile), [])
  | .spawned profile id =>
    if s.lock ≠ none then none
    else some ((s.setSession id { s.sessions id with handle := .listed }).setCall c
      (.inserted profile id), [])
  | .inserted profile id => some ((s.setIndex profile.id (some id)).setCall c .returned,
      [.connectReturned c (.ok ⟨id, profile.id, .connecting⟩)])
  | .disconnecting id =>
    if s.lock ≠ none then none
    else if (s.sessions id).handle = .listed then
      some ((s.setSession id (take (s.sessions id))).setCall c (.taken id), [])
    else some (s.setCall c .returned, [])
  | .taken id => some ((s.setSession id (s.sessions id).cancel).setCall c (.closing id), [])
  | .closing id => (send (s.sessions id) .disconnect).map fun r =>
      ((s.setSession id r.1).setCall c (.unindexing id), [])
  | .unindexing id => some (((s.setIndex (s.profileOf id) none).setSession id
      { s.sessions id with handle := .dropped }).setCall c .returned, [])
  | .draining =>
    if s.lock ≠ none then none
    else some ({ s with sessions := fun id => take (s.sessions id) }.setCall c
      (.drained (s.ids.filter s.isSessionActive)), [])
  | .drained [] => some ({ s with index := fun _ => none }.setCall c .returned, [])
  | .closingOne id rest => (send (s.sessions id) .disconnect).map fun r =>
      ((s.setSession id { r.1 with handle := .dropped }).setCall c (.drained rest), [])
  | .inputting id command =>
    let session := s.sessions id
    if s.lock ≠ none then none
    else if session.handle ≠ .listed then some (s.setCall c .returned, [.inputReturned c (.ok ())])
    else match send session command with
      | some (session, accepted) =>
        some ((s.setSession id session).setCall c .returned,
          [.inputReturned c (inputResult accepted)])
      | none => some ({ s with lock := some c }.setCall c (.sending id command), [])
  | .sending id command => (send (s.sessions id) command).map fun r =>
      (({ s with lock := none }.setSession id r.1).setCall c .returned,
        [.inputReturned c (inputResult r.2)])
  | _ => none

def create (c : Nat) (id : String) : Option (RdpManager × List RdpObs) :=
  match s.calls c with
  | .creating profile =>
    if (s.sessions id).phase = .absent then
      some (({ s with ids := s.ids ++ [id] }.setSession id { RdpSession.absent with
        profile := profile
        phase := .inRuntime .starting
        handle := .creating
        told := s.globalCancel }).setCall c (.spawned profile id), [])
    else none
  | _ => none

/-- The `disconnect_all` `c` cancels the token of a session it has taken. -/
def close (c : Nat) (id : String) : Option (RdpManager × List RdpObs) :=
  match s.calls c with
  | .drained ids =>
    if id ∈ ids then
      some ((s.setSession id (s.sessions id).cancel).setCall c (.closingOne id (ids.erase id)), [])
    else none
  | _ => none

def task (id : String) (event : RdpTaskEvent) : Option (RdpManager × List RdpObs) :=
  match (s.sessions id).phase, event with
  | .leaving, .remove =>
    if s.lock ≠ none then none
    else some (s.setSession id { (s.sessions id).unlist with phase := .unindexing }, [])
  | .unindexing, .unindex =>
    some ((s.setIndex (s.profileOf id) none).setSession id
      { s.sessions id with phase := .cleaned }, [])
  | _, event => ((s.sessions id).taskStep id s.globalCancel event).map fun r =>
      (s.setSession id r.1, r.2)

def drop : Option (RdpManager × List RdpObs) :=
  if ∀ c < s.nextCall, s.calls c = .returned then
    some ({ s with
      globalCancel := true
      sessions := fun id => { s.sessions id with
        told := (s.sessions id).told || (s.sessions id).phase.isOpen } }, [])
  else none

end RdpManager

/-- One step of a call or of a task, with what is sent to the app. -/
def rdpStep (s : RdpManager) : RdpEvent → Option (RdpManager × List RdpObs)
  | .begin call => if s.globalCancel then none else some (s.begin call)
  | .advance c => s.advance c
  | .create c id => s.create c id
  | .close c id => s.close c id
  | .task id event => s.task id event
  | .drop => s.drop

/-- The call makes a session for the profile, and has not put it in the index yet. -/
def CallPhase.Makes (profileId : String) : CallPhase → Prop
  | creating profile => profile.id = profileId
  | spawned profile _ => profile.id = profileId
  | inserted profile _ => profile.id = profileId
  | _ => False

namespace RdpManager

/-- The runtime of the session is running and has not been told to stop. -/
def Live (s : RdpManager) (id : String) : Prop := (s.sessions id).isLive = true

/-- The index does not name a live session for the profile. -/
def NamesNoLive (s : RdpManager) (profileId : String) : Prop :=
  ∀ id, s.index profileId = some id → ¬ s.Live id

/-- No connect is making a session for the profile, and the index names no live one. -/
def MayMake (s : RdpManager) (profileId : String) : Prop :=
  (∀ c, ¬ (s.calls c).Makes profileId) ∧ s.NamesNoLive profileId

/-- A connect goes on to make a session only while no other does for the profile and the index
names no live one, and the index loses only entries that name no live session. -/
def KeepsIndex (s : RdpManager) : RdpEvent → Prop
  | .advance c => match s.calls c with
    | .checking profile => s.index profile.id = none → s.MayMake profile.id
    | .found profile existing => s.isSessionActive existing = false → s.MayMake profile.id
    | .staleIndex profile => s.MayMake profile.id
    | .unindexing id => s.NamesNoLive (s.profileOf id)
    | .drained [] => ∀ profileId, s.NamesNoLive profileId
    | _ => True
  | .task id .unindex => s.NamesNoLive (s.profileOf id)
  | _ => True

/-- The connect that made the session has put it in the map, but not in the index. -/
def BetweenInsertions (s : RdpManager) (id : String) : Prop :=
  ∃ c profile, s.calls c = .inserted profile id

/-- A connect puts its session in the map while the task has not removed it from there, and in the
index while the task has not ended its cleanup. -/
def InsertsInTime (s : RdpManager) : RdpEvent → Prop
  | .advance c => match s.calls c with
    | .spawned _ id => (s.sessions id).phase ≠ .unindexing ∧ (s.sessions id).phase ≠ .cleaned
    | .inserted _ id => (s.sessions id).phase ≠ .cleaned
    | _ => True
  | _ => True

/-- Once a session was told to stop, its runtime does not fail any more. -/
def StopsQuietly (s : RdpManager) : RdpEvent → Prop
  | .task id (.runtime event) => (s.sessions id).told = true → ∀ phase,
    (s.sessions id).phase = .inRuntime phase →
      event.fails (s.sessions id).profile (s.sessions id).cancelled phase = false
  | _ => True

/-- An input locks the session map only while its command can be sent at once, or need not be. -/
def FindsRoom (s : RdpManager) : RdpEvent → Prop
  | .advance c => match s.calls c with
    | .inputting id command =>
      (s.sessions id).handle = .listed → (send (s.sessions id) command).isSome = true
    | _ => True
  | _ => True

end RdpManager

end Portix.Rdp
