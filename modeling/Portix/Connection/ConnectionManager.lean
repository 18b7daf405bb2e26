import Portix.Lib.Keyed
import Portix.Ssh.Events
import Portix.Connection.Credentials

/-!
# The connection manager

`ConnectionManager` of `connection_manager.dart`: the terminal sessions of the app, each over a session
of a backend. A session is in the list before the backend is asked for it; the reply of the backend and
the statuses it sends come in over channels of their own, in any order relative to each other. What the
backend does is left open, but for the ids of its sessions, which are new.
-/

namespace Portix.Connection

open Lib

open Ssh (ConnectionStatus ConnectionStatusEvent)

structure TerminalSession where
  id : String
  profileId : String
  title : String
  status : ConnectionStatus
  deriving DecidableEq

structure ConnectionErrorEvent where
  message : String
  sessionId : Option String
  deriving DecidableEq

structure Endpoint where
  host : String
  port : Int64

/-- The terminal sessions, and which session of the backend belongs to which. -/
structure ConnectionManager where
  sessions : List TerminalSession := []
  sessionEndpoints : String → Option Endpoint := fun _ => none
  backendToUiSessionIds : List (String × String) := []
  commandSessions : List String := []
  heartbeatInFlight : List String := []
  recordings : String → Option String := fun _ => none

/-- What the manager tells its listeners and asks of the backend. -/
inductive ConnectionObs where
  | returned (call : Nat) (result : Except String (Option String))
  | shown (id : String) (previous status : ConnectionStatus)
  | closed (id : String)
  | error (event : ConnectionErrorEvent)
  | sessionLost (id : String)
  | commandStatus (sessionId : String) (status : ConnectionStatus) (message : Option String)
  | disconnect (id : String)
  | input (id : String) (data : String)
  deriving DecidableEq

def isUnexpectedDrop : ConnectionStatus → Bool
  | .disconnected => true
  | .connecting => false
  | .connected => false
  | .error => true

def wasActive : ConnectionStatus → Bool
  | .disconnected => false
  | .connecting => true
  | .connected => true
  | .error => false

namespace ConnectionManager

variable (m : ConnectionManager) (id : String)

def sessionById : Option TerminalSession :=
  under TerminalSession.id id m.sessions

def ids : List String := m.sessions.map TerminalSession.id

/-- The session is still in the list. -/
def Listed : Prop := id ∈ m.sessions.map TerminalSession.id

instance : Decidable (m.Listed id) := inferInstanceAs (Decidable (id ∈ m.sessions.map TerminalSession.id))

def uiSessionId (backendId : String) : Option String :=
  (under Prod.fst backendId m.backendToUiSessionIds).map Prod.snd

def backendSessionId (uiId : String) : Option String :=
  (under Prod.snd uiId m.backendToUiSessionIds).map Prod.fst

def backendId (uiId : String) : String := (m.backendSessionId uiId).getD uiId

def titleFor (profile : Hop) : String :=
  let duplicateCount := (m.sessions.filter fun session => session.profileId = profile.id).length
  if duplicateCount = 0 then profile.name else s!"{profile.name} {duplicateCount + 1}"

def addSession (profile : Hop) : ConnectionManager :=
  { m with
    sessionEndpoints := Function.update m.sessionEndpoints id (some ⟨dartTrim profile.host, profile.port⟩)
    sessions := m.sessions ++ [⟨id, profile.id, m.titleFor profile, .connecting⟩] }

def setEntryPoint (entry : Hop) : ConnectionManager :=
  if (m.sessionEndpoints id).isSome then
    { m with
      sessionEndpoints := Function.update m.sessionEndpoints id (some ⟨dartTrim entry.host, entry.port⟩) }
  else m

def mapSession (backendId id : String) : ConnectionManager :=
  { m with
    backendToUiSessionIds :=
      m.backendToUiSessionIds.filter (fun entry => entry.1 ≠ backendId) ++ [(backendId, id)] }

def setStatus (status : ConnectionStatus) : ConnectionManager :=
  { m with
    sessions := m.sessions.map fun session =>
      if session.id = id then { session with status := status } else session }

def setFailed : ConnectionManager × List ConnectionObs :=
  match m.sessionById id with
  | some session => (m.setStatus id .error, [.shown id session.status .error])
  | none => (m, [])

def renameSession (id title : String) : ConnectionManager :=
  if dartTrim title = "" then m
  else { m with
    sessions := m.sessions.map fun session =>
      if session.id = id then { session with title := dartTrim title } else session }

def startRecording (id path : String) : ConnectionManager :=
  if (m.recordings id).isSome then m
  else { m with recordings := Function.update m.recordings id (some path) }

/-- `closeSession`; whether the backend can disconnect the session makes no difference. -/
def closeSession : ConnectionManager × List ConnectionObs :=
  match m.sessionById id with
  | none => (m, [])
  | some _ =>
    ({ m with
        recordings := Function.update m.recordings id none
        sessions := m.sessions.filter fun session => session.id ≠ id
        sessionEndpoints := Function.update m.sessionEndpoints id none
        backendToUiSessionIds :=
          m.backendToUiSessionIds.filter fun entry => some entry.1 ≠ m.backendSessionId id },
      [.closed id, .disconnect (m.backendId id)])

def probed : List String :=
  (m.sessions.filter fun session => session.status = .connected ∧ session.id ∉ m.heartbeatInFlight ∧
    (m.sessionEndpoints session.id).any fun endpoint => endpoint.host ≠ "").map TerminalSession.id

def runHeartbeat : ConnectionManager :=
  { m with heartbeatInFlight := m.heartbeatInFlight ++ m.probed }

def markSessionDead (id message : String) :
    ConnectionManager × List ConnectionObs :=
  match m.sessionById id with
  | none => (m, [])
  | some session =>
    if session.status = .connected then
      (m.setStatus id .error,
        [.shown id .connected .error, .error ⟨message, some id⟩, .sessionLost id,
          .disconnect (m.backendId id)])
    else (m, [])

def endProbe : ConnectionManager :=
  { m with heartbeatInFlight := m.heartbeatInFlight.filter fun other => other ≠ id }

def probeSession (failure : Option String) :
    ConnectionManager × List ConnectionObs :=
  match failure with
  | none => (m.endProbe id, [])
  | some message => (m.endProbe id).markSessionDead id message

def dropMessage (message : Option String) : String :=
  match message with
  | none => "Connection lost. Check your network or VPN, then reconnect."
  | some message =>
    if message = "" then "Connection lost. Check your network or VPN, then reconnect." else message

def dropObs (previous : ConnectionStatus) (event : ConnectionStatusEvent) :
    List ConnectionObs :=
  if wasActive previous ∧ isUnexpectedDrop event.status then
    .error ⟨dropMessage event.message, some id⟩ ::
      if previous = .connected then [.sessionLost id] else []
  else []

def handleSessionStatus (event : ConnectionStatusEvent) :
    ConnectionManager × List ConnectionObs :=
  match m.sessionById id with
  | none => (m, [])
  | some previous =>
    (m.setStatus id event.status,
      .shown id previous.status event.status :: dropObs id previous.status event)

def handleStatus (event : ConnectionStatusEvent) :
    ConnectionManager × List ConnectionObs :=
  if event.sessionId ∈ m.commandSessions then
    (if isUnexpectedDrop event.status then
      { m with commandSessions := m.commandSessions.filter fun other => other ≠ event.sessionId }
      else m, [.commandStatus event.sessionId event.status event.message])
  else m.handleSessionStatus ((m.uiSessionId event.sessionId).getD event.sessionId) event

end ConnectionManager

/-- What a session of the backend is opened for. -/
inductive Purpose where
  | tab (id : String)
  | command (command : String)
  deriving DecidableEq

/-- How far a login has got on the side of the app. -/
inductive ConnectPhase where
  | resolving
  | waiting
  | returned
  deriving DecidableEq

/-- How far the backend is with a login, and whether the app has its answer. -/
inductive BackendReply where
  | unasked
  | pending
  | replied (result : Except String String)
  | handled (result : Except String String)
  deriving DecidableEq

def BackendReply.session : BackendReply → Option String
  | .unasked => none
  | .pending => none
  | .replied result => result.toOption
  | .handled result => result.toOption

/-- One login that was begun. -/
structure ConnectCall where
  purpose : Purpose
  profile : Hop
  phase : ConnectPhase
  reply : BackendReply
  deriving DecidableEq

/-- The manager with the logins under way, the ids ever used and the statuses not yet handled. -/
structure Connections where
  manager : ConnectionManager := {}
  calls : List ConnectCall := []
  used : List String := []
  statuses : List ConnectionStatusEvent := []
  handled : List ConnectionStatusEvent := []

/-- The calls, the answers of the backend and the timers, in any order. -/
inductive ConnectionEvent where
  | connect (id : String) (profile : Hop)
  | openCommandSession (profile : Hop) (command : String)
  | resolved (call : Nat) (result : Except String SshProfile)
  | accept (call : Nat) (id : String)
  | refuse (call : Nat) (error : String)
  | emit (event : ConnectionStatusEvent)
  | reply (call : Nat)
  | timeout (call : Nat)
  | status
  | closeSession (id : String)
  | disconnect (id : String)
  | renameSession (id title : String)
  | heartbeat
  | probe (id : String) (failure : Option String)

namespace Connections

def initial : Connections := {}

variable (s : Connections) (c : Nat) (call : ConnectCall)

def setCall : Connections :=
  { s with calls := s.calls.set c call }

def withManager (r : ConnectionManager × List ConnectionObs) :
    Connections × List ConnectionObs := ({ s with manager := r.1 }, r.2)

def connect (id : String) (profile : Hop) : Connections × List ConnectionObs :=
  if dartTrim profile.host = "" ∨ dartTrim profile.username = "" then
    ({ s with
        calls := s.calls ++ [⟨.tab id, profile, .returned, .unasked⟩]
        used := s.used ++ [id] },
      [.returned s.calls.length (.error "Host and username are required before connecting.")])
  else
    ({ s with
        manager := s.manager.addSession id profile
        calls := s.calls ++ [⟨.tab id, profile, .resolving, .unasked⟩]
        used := s.used ++ [id] }, [])

def failureObs : ConnectionObs :=
  .returned c (.error s!"Failed to connect to {call.profile.name}")

def failed : Connections × List ConnectionObs :=
  match call.purpose with
  | .tab id =>
    ({ s.setCall c { call with phase := .returned } with manager := (s.manager.setFailed id).1 },
      (s.manager.setFailed id).2 ++ [failureObs c call])
  | .command _ => (s.setCall c { call with phase := .returned }, [failureObs c call])

def resolved :
    Except String SshProfile → Connections × List ConnectionObs
  | .error _ => s.failed c call
  | .ok profile =>
    let s := s.setCall c { call with phase := .waiting, reply := .pending }
    match call.purpose with
    | .tab id => (s.withManager (s.manager.setEntryPoint id profile.entryPoint.hop, []))
    | .command _ => (s, [])

def startupInput (profile : Hop) (backendId : String) : List ConnectionObs :=
  (profile.startupCommand.map fun startup => .input backendId (startup ++ "\r")).toList

def replied :
    Except String String → Connections × List ConnectionObs
  | .error error => s.failed c { call with reply := .handled (.error error) }
  | .ok backendId =>
    let s := s.setCall c { call with phase := .returned, reply := .handled (.ok backendId) }
    match call.purpose with
    | .tab id =>
      ({ s with manager := s.manager.mapSession backendId id },
        startupInput call.profile backendId ++ [.returned c (.ok none)])
    | .command _ =>
      ({ s with manager := { s.manager with
          commandSessions := s.manager.commandSessions ++ [backendId] } },
        [.returned c (.ok (some backendId))])

def At : Prop := s.calls[c]? = some call

def isOpened (id : String) : Bool :=
  s.calls.any fun call => call.reply.session = some id

/-- One step of the app or the backend, with what it tells. -/
def step : ConnectionEvent → Option (Connections × List ConnectionObs)
  | .connect id profile => if id ∈ s.used then none else some (s.connect id profile)
  | .openCommandSession profile command =>
    some ({ s with calls := s.calls ++ [⟨.command command, profile, .resolving, .unasked⟩] }, [])
  | .resolved c result => match s.calls[c]? with
    | some call => if call.phase = .resolving then some (s.resolved c call result) else none
    | none => none
  | .accept c id => match s.calls[c]? with
    | some call => if call.reply = .pending ∧ id ∉ s.used then
        some ({ s with used := s.used ++ [id] }.setCall c { call with reply := .replied (.ok id) }, [])
      else none
    | none => none
  | .refuse c error => match s.calls[c]? with
    | some call => if call.reply = .pending then
        some (s.setCall c { call with reply := .replied (.error error) }, [])
      else none
    | none => none
  | .emit event =>
    if s.isOpened event.sessionId then some ({ s with statuses := s.statuses ++ [event] }, []) else none
  | .reply c => match s.calls[c]? with
    | some call => match call.reply with
      | .replied result =>
        if call.phase = .waiting then some (s.replied c call result)
        else some (s.setCall c { call with reply := .handled result }, [])
      | _ => none
    | none => none
  | .timeout c => match s.calls[c]? with
    | some call => if call.phase = .waiting then some (s.failed c call) else none
    | none => none
  | .status => match s.statuses with
    | [] => none
    | event :: rest =>
      some ({ s with statuses := rest, handled := s.handled ++ [event] }.withManager
        (s.manager.handleStatus event))
  | .closeSession id => some (s.withManager (s.manager.closeSession id))
  | .disconnect id => some (s, [.disconnect id])
  | .renameSession id title => some (s.withManager (s.manager.renameSession id title, []))
  | .heartbeat => some (s.withManager (s.manager.runHeartbeat, []))
  | .probe id failure =>
    if id ∈ s.manager.heartbeatInFlight then
      some (s.withManager (s.manager.probeSession id failure))
    else none

/-- The failure of a call is shown, if its terminal session is still in the list. -/
def failureNotifies : Bool :=
  match s.calls[c]? with
  | some ⟨.tab id, _, _, _⟩ => (s.manager.sessionById id).isSome
  | _ => false

def notifies : ConnectionEvent → Bool
  | .connect _ profile => dartTrim profile.host ≠ "" ∧ dartTrim profile.username ≠ ""
  | .resolved c (.error _) => s.failureNotifies c
  | .timeout c => s.failureNotifies c
  | .reply c => match s.calls[c]? with
    | some ⟨.tab _, _, .waiting, .replied (.ok _)⟩ => true
    | some ⟨_, _, .waiting, .replied (.error _)⟩ => s.failureNotifies c
    | _ => false
  | .status => match s.statuses with
    | [] => false
    | event :: _ => event.sessionId ∉ s.manager.commandSessions ∧
        (s.manager.sessionById ((s.manager.uiSessionId event.sessionId).getD event.sessionId)).isSome
  | .closeSession id => (s.manager.sessionById id).isSome
  | .renameSession id title => (s.manager.sessionById id).isSome ∧ dartTrim title ≠ ""
  | .probe id (some _) => (s.manager.sessionById id).any fun session => session.status = .connected
  | _ => false

/-- The backend has said that the session is over. -/
def Ended (id : String) : Prop :=
  ∃ event ∈ s.handled ++ s.statuses, event.sessionId = id ∧ isUnexpectedDrop event.status = true

/-- The session belongs to a terminal session that is still in the list. -/
def Owned (id : String) : Prop :=
  ∃ ui, s.manager.uiSessionId id = some ui ∧ s.manager.Listed ui

/-- No login is left running: once the reply is handled, a session that was opened for a terminal session
and is not over belongs to it, or is to be disconnected. -/
def NoOrphans (h : List ConnectionObs) (s : Connections) : Prop :=
  ∀ id c call ui, s.At c call →
    call.purpose = .tab ui → call.reply = .handled (.ok id) → ¬s.Ended id →
    s.Owned id ∨ .disconnect id ∈ h

/-- The reply to a request for a session comes in time and finds the terminal session still in the list,
unless the session is over already. -/
def Welcome : ConnectionEvent → Prop
  | .reply c => ∀ (call : ConnectCall) (id ui : String), s.At c call →
      call.reply = .replied (.ok id) → call.purpose = .tab ui → ¬s.Ended id → call.phase = .waiting ∧
        s.manager.Listed ui
  | _ => True

/-- All statuses of the session that were sent are handled. -/
def Heard (id : String) : Prop := ∀ event ∈ s.statuses, event.sessionId ≠ id

def statusesOf (id : String) (events : List ConnectionStatusEvent) : List ConnectionStatus :=
  (events.filter fun event => event.sessionId = id).map fun event => event.status

def dropsOf (id : String) (events : List ConnectionStatusEvent) : List ConnectionStatus :=
  (statusesOf id events).filter isUnexpectedDrop

def delivered (id : String) (h : List ConnectionObs) : List ConnectionStatus :=
  h.filterMap fun
    | .commandStatus sessionId status _ =>
      if sessionId = id ∧ isUnexpectedDrop status then some status else none
    | _ => none

/-- Once the reply and all statuses of a session are handled, its terminal session has the last status
that was sent, and of a command session the end was delivered, once. -/
def StatusShown (h : List ConnectionObs) (s : Connections) : Prop :=
  ∀ (id : String) (c : Nat) (call : ConnectCall), s.At c call →
    call.reply = .handled (.ok id) → s.Heard id →
    match call.purpose with
    | .tab ui => ∀ status, (statusesOf id s.handled).getLast? = some status →
        ∀ session, s.manager.sessionById ui = some session → session.status = status
    | .command _ => delivered id h = (dropsOf id s.handled).head?.toList

/-- Nothing of a session is missed.
* When its reply is handled, no status of it waits, and its terminal session is in the list, the last one
  sent is what is shown: connecting, or error once the 40 seconds are over. The end of a command session
  is not handled before its reply.
* A status of a session whose reply was too late is the last one only if it is an error; it is not the end
  of a command session.
* A probe fails for a connected session only while a status of it waits. -/
def Prompt : ConnectionEvent → Prop
  | .reply c => ∀ (call : ConnectCall) (id : String), s.At c call →
      call.reply = .replied (.ok id) →
      match call.purpose with
      | .tab ui => s.Heard id → s.manager.Listed ui →
          ∀ status, (statusesOf id s.handled).getLast? = some status →
            status = if call.phase = .waiting then .connecting else .error
      | .command _ => dropsOf id s.handled = []
  | .status => ∀ (event : ConnectionStatusEvent) (rest : List ConnectionStatusEvent) (c : Nat)
      (call : ConnectCall), s.statuses = event :: rest → s.At c call →
      call.reply = .handled (.ok event.sessionId) →
      match call.purpose with
      | .tab ui => s.manager.uiSessionId event.sessionId = none → s.manager.Listed ui →
          (∀ later ∈ rest, later.sessionId ≠ event.sessionId) → event.status = .error
      | .command _ => isUnexpectedDrop event.status → dropsOf event.sessionId s.handled = [] →
          event.sessionId ∈ s.manager.commandSessions
  | .probe ui failure => failure.isSome → ∀ session, s.manager.sessionById ui = some session →
      session.status = .connected →
        ∃ event ∈ s.statuses, s.manager.uiSessionId event.sessionId = some ui
  | _ => True

/-- What a session has last been through, as far as `sessionLostStream` tells: it has got connected, or
was reported lost. -/
def linkOf (id : String) : ConnectionObs → Option Bool
  | .shown session previous status =>
    if session = id ∧ previous ≠ .connected ∧ status = .connected then some true else none
  | .sessionLost session => if session = id then some false else none
  | _ => none

/-- The session was connected since it was last reported lost. -/
def Linked (h : List ConnectionObs) (id : String) : Prop := (h.filterMap (linkOf id)).getLast? = some true

/-- `sessionLostStream` fires for a session only once it is connected, once for each time, it fires right
after each drop of a connected session, and not any more after the session was closed. -/
structure LostExactly (h : List ConnectionObs) : Prop where
  once {h1 h2 : List ConnectionObs} {id : String} : h = h1 ++ .sessionLost id :: h2 → Linked h1 id
  every {h1 h2 : List ConnectionObs} {id : String} {status : ConnectionStatus} :
    h = h1 ++ .shown id .connected status :: h2 → isUnexpectedDrop status = true →
      ∃ message h3, h2 = .error ⟨message, some id⟩ :: .sessionLost id :: h3
  never {h1 h2 : List ConnectionObs} {id : String} :
    h = h1 ++ .closed id :: h2 → .sessionLost id ∉ h2

/-- A step drops a connected session that is in the list: a probe of it fails, or the next status to be handled is the
end of the backend's session that its call got. -/
def Drops (id : String) (event : ConnectionEvent) : Prop :=
  (∃ session, s.manager.sessionById id = some session ∧ session.status = .connected) ∧
    match event with
    | .probe probed failure => probed = id ∧ failure.isSome
    | .status => ∃ told rest c call, s.statuses = told :: rest ∧ told.status ∈ [.error, .disconnected] ∧
        s.At c call ∧ call.purpose = .tab id ∧ call.reply.session = some told.sessionId
    | _ => False

end Connections

end Portix.Connection
