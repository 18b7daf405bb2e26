import Portix.Ssh.Events

/-!
# The session manager

`SessionManager` of `application/session_manager.rs` with the tasks it spawns: `SshRuntime::run` of
`infrastructure/ssh_client.rs`, one for each session, and its exec worker. Calls look a session up
and queue a command; the loop of the session takes the commands one by one.
-/

namespace Portix.Ssh

open Lib Domain

structure SshProfile where
  id : String
  host : String
  port : UInt16
  username : String
  forwardAgent : Bool
  command : Option String

def SshProfile.validate (profile : SshProfile) : Except PortixError Unit :=
  if trim profile.id = "" then .error (.invalidProfile "profile id is required")
  else if trim profile.host = "" then .error (.invalidProfile "host is required")
  else if trim profile.username = "" then .error (.invalidProfile "username is required")
  else if profile.port = 0 then .error (.invalidProfile "port must be greater than 0")
  else .ok ()

structure SessionInfo where
  id : String
  profileId : String
  status : ConnectionStatus

def minCols : UInt32 := 20
def minRows : UInt32 := 5
def maxCols : UInt32 := 512
def maxRows : UInt32 := 256

def normalizeTerminalSize (cols rows : UInt32) : UInt32 × UInt32 :=
  (max minCols (min cols maxCols), max minRows (min rows maxRows))

/-- `SshCommand`. The sender of the reply to `exec` is the number of its call. -/
inductive SshCommand where
  | input (data : List UInt8)
  | resize (cols rows : UInt32)
  | exec (command : String)
  | disconnect
  deriving DecidableEq

structure Queued where
  call : Nat
  command : SshCommand
  deriving DecidableEq

inductive TerminalRequest where
  | openSession
  | pty (term : String) (cols rows : UInt32)
  | agentForward
  | exec (command : String)
  | shell

def openingRequests (profile : SshProfile) (cols rows : UInt32) : List TerminalRequest :=
  let (cols, rows) := normalizeTerminalSize cols rows
  [.openSession, .pty "xterm-256color" cols rows] ++
    (if profile.forwardAgent then [.agentForward] else []) ++
    [profile.command.elim .shell .exec]

inductive CommandMsg where
  | data (bytes : List UInt8)
  | windowChange (cols rows : UInt32)
  | exec (message : Sent)

/-- Where the task of a session is. -/
inductive TaskPhase where
  | absent
  | connecting (profile : SshProfile) (cols rows : UInt32)
  | opening (requests : List TerminalRequest)
  | running
  | handing (request : ExecRequest)
  | failed (error : PortixError)
  | leaving (result : Except PortixError Unit)
  | ending (result : Except PortixError Unit)
  | ended

namespace TaskPhase

def isOpen : TaskPhase → Bool
  | connecting _ _ _ => true
  | opening _ => true
  | running => true
  | handing _ => true
  | _ => false

def session : TaskPhase → SessionPhase
  | absent => .absent
  | connecting _ _ _ => .connecting
  | opening _ => .connecting
  | running => .running
  | handing _ => .running
  | failed error => .failed error
  | leaving result => .ending result
  | ending result => .ending result
  | ended => .ended

end TaskPhase

/-- Where the task is that runs the commands beside the terminal. -/
inductive WorkerPhase where
  | absent
  | starting
  | idle (session : Bool)
  | serving (session : Bool) (request : ExecRequest)
  | stuck

/-- A session: its task, its queues, and its worker. -/
structure ManagedSession where
  phase : TaskPhase
  listed : Bool
  sending : List Queued
  queue : List Queued
  execQueue : List ExecRequest
  worker : WorkerPhase

def ManagedSession.absent : ManagedSession where
  phase := .absent
  listed := false
  sending := []
  queue := []
  execQueue := []
  worker := .absent

def commandCapacity : Nat := 512

def execCapacity : Nat := 64

inductive ManagerObs where
  | emitted (event : Σ k, EventKind.Event k)
  | connectReturned (result : Except PortixError SessionInfo)
  | called (call : Nat) (id : String) (command : SshCommand)
  | returned (call : Nat) (id : String) (command : SshCommand)
      (result : Except PortixError (Option String))
  | requested (id : String) (request : TerminalRequest)
  | sent (id : String) (call : Nat) (message : CommandMsg)

inductive TaskEvent where
  | authenticate (result : Except PortixError Unit)
  | request (result : Except String Unit)
  | receive (result : Except String Unit)
  | message (msg : Option ChannelMsg)
  | hand
  | reportError
  | remove
  | finish

inductive ServeEvent where
  | start (session : Bool)
  | take
  | serve (service : Service)

namespace ManagedSession

variable (id : String)

/-- A command that is dropped with its queue: who waits for its reply learns of it. -/
def dropped (queued : Queued) : List ManagerObs :=
  match queued.command with
  | .exec _ => [.returned queued.call id queued.command (.error (.sessionNotFound id))]
  | _ => []

def returns (s : ManagedSession) (id : String) (phase : TaskPhase) :
    ManagedSession × List ManagerObs :=
  ({ s with phase := phase, queue := [] }, s.queue.flatMap (dropped id))

def emitStatus (status : ConnectionStatus) (message : String) : ManagerObs :=
  .emitted ⟨.status, ⟨id, status, some message⟩⟩

def sendCommand (s : ManagedSession) (id : String) (call : Nat) (message : CommandMsg) :
    Except String Unit → ManagedSession × List ManagerObs
  | .ok () => (s, [.sent id call message])
  | .error e => s.returns id (.failed (.russh e))

/-- The arm of the loop for a command, which has been taken from the queue. -/
def onCommand (s : ManagedSession) (id : String) (queued : Queued) (result : Except String Unit) :
    ManagedSession × List ManagerObs :=
  match queued.command with
  | .input data => s.sendCommand id queued.call (.data data) result
  | .resize cols rows =>
    let (cols, rows) := normalizeTerminalSize cols rows
    s.sendCommand id queued.call (.windowChange cols rows) result
  | .exec command => ({ s with phase := .handing ⟨command, none, queued.call⟩ }, [])
  | .disconnect => s.returns id (.leaving (.ok ()))

def taskStep (s : ManagedSession) (event : TaskEvent) :
    Option (ManagedSession × List ManagerObs) :=
  match s.phase, event with
  | .connecting profile cols rows, .authenticate (.ok ()) =>
    some ({ s with phase := .opening (openingRequests profile cols rows) }, [])
  | .connecting _ _ _, .authenticate (.error error) => some (s.returns id (.failed error))
  | .opening (request :: rest), .request (.ok ()) =>
    if rest = [] then
      some ({ s with phase := .running, worker := .starting },
        [.requested id request, emitStatus id .connected "connected"])
    else some ({ s with phase := .opening rest }, [.requested id request])
  | .opening _, .request (.error e) => some (s.returns id (.failed (.russh e)))
  -- while the session is in the map the queue has a sender, so an empty queue is waited for
  | .running, .receive result =>
    match s.queue with
    | [] => none
    | queued :: rest => some ({ s with queue := rest }.onCommand id queued result)
  | .running, .message msg =>
    match runtimeMessage msg with
    | (true, output) =>
      some (s, output.toList.map fun data => .emitted ⟨.output, ⟨id, data⟩⟩)
    | (false, _) => some (s.returns id (.leaving (.ok ())))
  | .handing request, .hand =>
    if s.execQueue.length < execCapacity then
      some ({ s with phase := .running, execQueue := s.execQueue ++ [request] }, [])
    else none
  | .failed error, .reportError =>
    some ({ s with phase := .leaving (.error error) },
      [.emitted ⟨.error, ⟨some id, error.text⟩⟩])
  | .leaving result, .remove => some ({ s with phase := .ending result, listed := false }, [])
  | .ending result, .finish =>
    some ({ s with phase := .ended }, [.emitted ⟨.status, finalEvent id result⟩])
  | _, _ => none

def workerStep (s : ManagedSession) (event : ServeEvent) :
    Option (ManagedSession × List ManagerObs) :=
  match s.worker, event with
  | .starting, .start session => some ({ s with worker := .idle session }, [])
  | .idle session, .take =>
    match s.execQueue with
    | [] => none
    | request :: rest =>
      some ({ s with worker := .serving session request, execQueue := rest }, [])
  | .serving session request, .serve service =>
    let sentObs := fun messages : List Sent =>
      messages.map fun message => ManagerObs.sent id request.responseTx (.exec message)
    match Ssh.serve session request service with
    | (messages, _, none) => some ({ s with worker := .stuck }, sentObs messages)
    | (messages, session, some result) =>
      some ({ s with worker := .idle session }, sentObs messages ++
        [.returned request.responseTx id (.exec request.command) (result.map some)])
  | _, _ => none

/-- A call puts its command in the queue, unless there is no room or nobody to take it. -/
def push (s : ManagedSession) (queued : Queued) :
    Option (ManagedSession × List ManagerObs) :=
  if queued ∈ s.sending then
    let left := { s with sending := s.sending.erase queued }
    if s.phase.isOpen then
      if s.queue.length < commandCapacity then
        some ({ left with queue := s.queue ++ [queued] },
          match queued.command with
          | .exec _ => []
          | _ => [.returned queued.call id queued.command (.ok none)])
      else none
    else some (left, [.returned queued.call id queued.command (.error (.sessionNotFound id))])
  else none

end ManagedSession

/-- The sessions by their ids. -/
structure SessionManager where
  sessions : String → ManagedSession
  nextCall : Nat

def SessionManager.initial : SessionManager where
  sessions := fun _ => .absent
  nextCall := 0

/-- The calls of the app, and the steps of the tasks. -/
inductive ManagerEvent where
  | connect (id : String) (profile : SshProfile) (cols rows : UInt32)
  | call (id : String) (command : SshCommand)
  | push (id : String) (queued : Queued)
  | task (id : String) (event : TaskEvent)
  | worker (id : String) (event : ServeEvent)

namespace SessionManager

variable (s : SessionManager)

def setSession (id : String) (session : ManagedSession) : SessionManager :=
  { s with sessions := Function.update s.sessions id session }

def inSession (id : String)
    (step : ManagedSession → Option (ManagedSession × List ManagerObs)) :
    Option (SessionManager × List ManagerObs) :=
  (step (s.sessions id)).map fun r => (s.setSession id r.1, r.2)

/-- `connect`. The id gets known only when the status `connecting` is sent. -/
def connect (id : String) (profile : SshProfile) (cols rows : UInt32) :
    Option (SessionManager × List ManagerObs) :=
  match profile.validate with
  | .error e => some (s, [.connectReturned (.error e)])
  | .ok () =>
    match (s.sessions id).phase with
    | .absent =>
      some (s.setSession id
          { ManagedSession.absent with phase := .connecting profile cols rows, listed := true },
        [ManagedSession.emitStatus id .connecting "connecting",
          .connectReturned (.ok ⟨id, profile.id, .connecting⟩)])
    | _ => none

def call (id : String) (command : SshCommand) :
    SessionManager × List ManagerObs :=
  let next := { s with nextCall := s.nextCall + 1 }
  let session := s.sessions id
  if command = .input [] then
    (next, [.called s.nextCall id command, .returned s.nextCall id command (.ok none)])
  else if session.listed then
    (next.setSession id { session with sending := session.sending ++ [⟨s.nextCall, command⟩] },
      [.called s.nextCall id command])
  else
    (next, [.called s.nextCall id command,
      .returned s.nextCall id command (.error (.sessionNotFound id))])

end SessionManager

/-- One step of a call, a task or a worker, with what it emits. -/
def managerStep (s : SessionManager) : ManagerEvent → Option (SessionManager × List ManagerObs)
  | .connect id profile cols rows => s.connect id profile cols rows
  | .call id command => some (s.call id command)
  | .push id queued => s.inSession id fun session => session.push id queued
  | .task id event => s.inSession id fun session => session.taskStep id event
  | .worker id event => s.inSession id fun session => session.workerStep id event

def emissions (h : List ManagerObs) : List (Σ k, EventKind.Event k) :=
  h.filterMap fun
    | .emitted event => some event
    | _ => none

def statusOf (id : String) : (Σ k, EventKind.Event k) → Option ConnectionStatus
  | ⟨.status, event⟩ => if event.sessionId = id then some event.status else none
  | _ => none

def isErrorOf (id : String) : (Σ k, EventKind.Event k) → Bool
  | ⟨.error, event⟩ => event.sessionId = some id
  | _ => false

def statuses (id : String) (h : List ManagerObs) : List ConnectionStatus :=
  (emissions h).filterMap (statusOf id)

def errorEvents (id : String) (h : List ManagerObs) : Nat := (emissions h).countP (isErrorOf id)

namespace ConnectionStatus

def isFinal : ConnectionStatus → Bool
  | disconnected => true
  | error => true
  | _ => false

/-- The statuses of a whole session. -/
inductive Life : List ConnectionStatus → Prop where
  | unconnected (final : ConnectionStatus) (hfinal : final.isFinal) : Life [.connecting, final]
  | connected (final : ConnectionStatus) (hfinal : final.isFinal) :
    Life [.connecting, .connected, final]

end ConnectionStatus

/-- `SshRuntime::run` of the session has returned. -/
def SessionManager.Returned (s : SessionManager) (id : String) : Prop :=
  (s.sessions id).phase ≠ .absent ∧ (s.sessions id).phase.isOpen = false

/-- What is seen after a disconnect that is final: the session does not get connected, nothing that is submitted later
is sent to its server, and its next status is its last. -/
def Final (id : String) (h : List ManagerObs) : Prop :=
  .connected ∉ statuses id h ∧
    (∀ later command message, .called later id command ∈ h → .sent id later message ∉ h) ∧
    ∀ status, (statuses id h).head? = some status → status.isFinal = true

end Portix.Ssh
