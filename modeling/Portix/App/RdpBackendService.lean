import Portix.Rdp.SessionManager

/-!
# The RDP service of the app

`RdpBackendService` of `rdp_backend_service.dart`, over the session manager it calls. Every window of
the app has a service of its own, so the manager is also called from elsewhere. The replies and the
two streams of events reach the service in any order relative to each other; a stream loses what is sent
before the service has subscribed to it, and what the service reads too slowly.
-/

namespace Portix.App

open Lib Rdp

/-- The two maps of the service, from a profile to its session and back. -/
structure RdpBackendService where
  activeSessions : String → Option String
  sessionToProfile : String → Option String

structure RdpConnectionResult where
  sessionId : String
  profileId : String
  host : String
  port : UInt16

namespace RdpBackendService

variable (service : RdpBackendService)

def record (profileId sessionId : String) : RdpBackendService where
  activeSessions := Function.update service.activeSessions profileId (some sessionId)
  sessionToProfile := Function.update service.sessionToProfile sessionId (some profileId)

def forget (sessionId : String) : RdpBackendService where
  activeSessions := match service.sessionToProfile sessionId with
    | some profileId => Function.update service.activeSessions profileId none
    | none => service.activeSessions
  sessionToProfile := Function.update service.sessionToProfile sessionId none

def attachExistingSession (profileId sessionId : String) :
    RdpBackendService := service.record profileId sessionId

def onStatus (event : RdpStatusEvent) : RdpBackendService :=
  match event.status with
  | .connected => service
  | .disconnected => service.forget event.sessionId
  | .error => service.forget event.sessionId
  | .connecting => service

def onError (event : RdpErrorEvent) : RdpBackendService :=
  match event.sessionId with
  | some sessionId => service.forget sessionId
  | none => service

end RdpBackendService

/-- How far a `connect` of the service has got, with its retries. -/
inductive ConnectPhase where
  | idle
  | preparing (profile : RdpProfile)
  | waiting (profile : RdpProfile) (attempt : Nat) (call : Nat)
  | delaying (profile : RdpProfile) (attempt : Nat) (error : String)
  | returned

/-- What the service answers and passes on. -/
inductive AppObs where
  | connectReturned (connect : Nat) (result : Except String RdpConnectionResult)
  | status (event : RdpStatusEvent)
  | error (event : RdpErrorEvent)

/-- The service over the manager of the native side, with what is on its way between them. -/
structure RdpApp where
  manager : RdpManager
  service : RdpBackendService
  made : Bool
  listensStatus : Bool
  listensError : Bool
  connects : Nat → ConnectPhase
  nextConnect : Nat
  replies : List (Nat × Except RdpError RdpSessionInfo)
  statuses : List RdpStatusEvent
  errors : List RdpErrorEvent
  missed : List RdpObs
  ended : List String
  disconnected : List String

def RdpApp.initial : RdpApp where
  manager := .initial
  service := ⟨fun _ => none, fun _ => none⟩
  made := false
  listensStatus := false
  listensError := false
  connects := fun _ => .idle
  nextConnect := 0
  replies := []
  statuses := []
  errors := []
  missed := []
  ended := []
  disconnected := []

/-- The steps of the service, in any order. -/
inductive AppEvent where
  | start
  | listenStatus
  | listenError
  | manager (event : RdpEvent)
  | connect (profile : RdpProfile)
  | prepared (connect : Nat) (result : Except String Unit)
  | reply (connect : Nat) (text : String)
  | waited (connect : Nat)
  | disconnect (id : String)
  | attach (profileId id : String)
  | status
  | error
  | missStatus
  | missError

def statusOf : RdpObs → Option RdpStatusEvent
  | .status event => some event
  | _ => none

def errorOf : RdpObs → Option RdpErrorEvent
  | .error event => some event
  | _ => none

def replyOf : RdpObs → Option (Nat × Except RdpError RdpSessionInfo)
  | .connectReturned call result => some (call, result)
  | _ => none

def endedOf : RdpObs → Option String
  | .status event => if event.status = .disconnected ∨ event.status = .error
    then some event.sessionId else none
  | .error event => event.sessionId
  | _ => none

namespace RdpApp

variable (s : RdpApp) (c : Nat)

def setConnect (phase : ConnectPhase) : RdpApp :=
  { s with connects := Function.update s.connects c phase }

def hears : RdpObs → Bool
  | .status _ => s.listensStatus
  | .error _ => s.listensError
  | _ => true

def receive (o : List RdpObs) : RdpApp :=
  { s with
    replies := s.replies ++ o.filterMap replyOf
    statuses := s.statuses ++ (o.filter s.hears).filterMap statusOf
    errors := s.errors ++ (o.filter s.hears).filterMap errorOf
    missed := s.missed ++ if s.made then o.filter fun obs => !s.hears obs else []
    ended := s.ended ++ o.filterMap endedOf }

def managerStep (event : RdpEvent) : Option RdpApp :=
  (rdpStep s.manager event).map fun r => { s with manager := r.1 }.receive r.2

def rdpConnect (profile : RdpProfile) (attempt : Nat) : Option RdpApp :=
  (s.setConnect c (.waiting profile attempt s.manager.nextCall)).managerStep (.begin (.connect profile))

def finish (result : Except String RdpConnectionResult) :
    RdpApp × List AppObs :=
  (s.setConnect c .returned, [.connectReturned c result])

/-- `connect`, up to where it first waits; `profile` is what `toRustProfile` makes of the profile of
the app. -/
def connect (profile : RdpProfile) : Option (RdpApp × List AppObs) :=
  let c := s.nextConnect
  let next := { s with nextConnect := c + 1 }
  match s.service.activeSessions profile.id with
  | some existing => some (next.finish c (.ok ⟨existing, profile.id, profile.host, profile.port⟩))
  | none =>
    if profile.redirectDrives ∧ profile.localSharePath ≠ none then
      some (next.setConnect c (.preparing profile), [])
    else (next.rdpConnect c profile 0).map fun s => (s, [])

def couldNotConnect (text : String) : String := s!"Could not connect to the RDP server: {text}"

def isStillActive (text : String) : Bool :=
  decide ("already has active session".toList <:+: text.toList)

def prepared (result : Except String Unit) : Option (RdpApp × List AppObs) :=
  match s.connects c, result with
  | .preparing profile, .ok () => (s.rdpConnect c profile 0).map fun s => (s, [])
  | .preparing _, .error text => some (s.finish c (.error (couldNotConnect text)))
  | _, _ => none

def reply (text : String) : Option (RdpApp × List AppObs) :=
  match s.connects c with
  | .waiting profile attempt call =>
    match s.replies.lookup call with
    | some (.ok info) => some ({ s with service := s.service.record profile.id info.id }.finish c
        (.ok ⟨info.id, info.profileId, profile.host, profile.port⟩))
    | some (.error _) =>
      if isStillActive text then some (s.setConnect c (.delaying profile attempt text), [])
      else some (s.finish c (.error (couldNotConnect text)))
    | none => none
  | _ => none

def waited : Option (RdpApp × List AppObs) :=
  match s.connects c with
  | .delaying profile attempt error =>
    if attempt + 1 < 3 then (s.rdpConnect c profile (attempt + 1)).map fun s => (s, [])
    else some (s.finish c (.error error))
  | _ => none

def disconnect (id : String) : Option RdpApp :=
  { s with
    service := s.service.forget id
    disconnected := s.disconnected ++ [id] }.managerStep (.begin (.disconnect id))

end RdpApp

def appStep (s : RdpApp) : AppEvent → Option (RdpApp × List AppObs)
  | .start => some ({ s with made := true }, [])
  | .listenStatus => if s.made then some ({ s with listensStatus := true }, []) else none
  | .listenError => if s.made then some ({ s with listensError := true }, []) else none
  | .manager event => (s.managerStep event).map fun s => (s, [])
  | .connect profile => if s.made then s.connect profile else none
  | .prepared c result => if s.made then s.prepared c result else none
  | .reply c text => if s.made then s.reply c text else none
  | .waited c => if s.made then s.waited c else none
  | .disconnect id => if s.made then (s.disconnect id).map fun s => (s, []) else none
  | .attach profileId id =>
    if s.made then
      some ({ s with service := s.service.attachExistingSession profileId id }, [])
    else none
  | .status =>
    match s.statuses with
    | [] => none
    | event :: rest =>
      some ({ s with statuses := rest, service := s.service.onStatus event }, [.status event])
  | .error =>
    match s.errors with
    | [] => none
    | event :: rest =>
      some ({ s with errors := rest, service := s.service.onError event }, [.error event])
  | .missStatus =>
    match s.statuses with
    | [] => none
    | event :: rest => some ({ s with statuses := rest, missed := s.missed ++ [.status event] }, [])
  | .missError =>
    match s.errors with
    | [] => none
    | event :: rest => some ({ s with errors := rest, missed := s.missed ++ [.error event] }, [])

namespace RdpApp

/-- The events that were sent to the service and that it has not handled. -/
def unhandled (s : RdpApp) : List RdpObs :=
  s.statuses.map .status ++ s.errors.map .error ++ s.missed

def hasReply (s : RdpApp) (c : Nat) : Bool :=
  match s.connects c with
  | .waiting _ _ call => (s.replies.lookup call).isSome
  | _ => false

/-- All replies and events sent so far have been handled. -/
def Settled (s : RdpApp) : Prop := s.unhandled = [] ∧ ∀ c < s.nextConnect, s.hasReply c = false

instance (s : RdpApp) : Decidable s.Settled := inferInstanceAs (Decidable (_ ∧ _))

/-- The session has sent no final status or error event and was not disconnected. -/
def Alive (s : RdpApp) (id : String) : Prop := id ∉ s.ended ∧ id ∉ s.disconnected

/-- The session was not disconnected, and if it has ended, the service still has to handle an event
that says so. -/
def MayBeAlive (s : RdpApp) (id : String) : Prop :=
  id ∉ s.disconnected ∧ (id ∈ s.ended → ∃ obs ∈ s.unhandled, endedOf obs = some id)

instance (s : RdpApp) (id : String) : Decidable (s.MayBeAlive id) := inferInstanceAs (Decidable (_ ∧ _))

/-- A session may be recorded for a profile: it may be alive, and neither of the two goes with
another. -/
def MayRecord (s : RdpApp) (profileId id : String) : Prop :=
  s.MayBeAlive id ∧
  (s.service.activeSessions profileId = none ∨ s.service.activeSessions profileId = some id) ∧
  (s.service.sessionToProfile id = none ∨ s.service.sessionToProfile id = some profileId)

instance (s : RdpApp) (profileId id : String) : Decidable (s.MayRecord profileId id) :=
  inferInstanceAs (Decidable (_ ∧ _ ∧ _))

def RecordsAlive (s : RdpApp) : AppEvent → Prop
  | .reply c _ => ∀ profile attempt call info, s.connects c = .waiting profile attempt call →
    s.replies.lookup call = some (.ok info) → s.MayRecord profile.id info.id
  | .attach profileId id => s.MayRecord profileId id
  | _ => True

end RdpApp

end Portix.App
