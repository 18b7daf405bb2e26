import Portix.Domain.Errors
import Portix.Lib.Text

/-!
# Running a command

`run_exec` of `infrastructure/ssh_client.rs`, given how the connection and the server behave. The
server's messages are handed over one by one; after the last of them the channel either ends, the
connection being lost, or stays open in silence.
-/

namespace Portix.Ssh

open Lib Domain

/-- What the server sends on a channel. -/
inductive ChannelMsg where
  | data (bytes : List UInt8)
  | extendedData (code : UInt32) (bytes : List UInt8)
  | eof
  | close
  | exitStatus (status : UInt32)
  | exitSignal (name : String)
  | success
  | failure
  | windowAdjusted (size : UInt32)
  deriving DecidableEq

/-- What follows the last message: an end, or nothing more. -/
inductive Ending where
  | lost
  | silent
  deriving DecidableEq

/-- What comes of sending something: an error of the SSH library where it cannot be sent, nothing at all where the
call never returns, as that for the input, which waits until the server lets more of it in. -/
abbrev Sending := Option (Except String Unit)

/-- How the connection and the server behave while one command runs. -/
structure ExecScript where
  openSession : Sending
  exec : Sending
  data : Sending
  eof : Sending
  messages : List ChannelMsg
  ending : Ending

def ExecScript.allSent (messages : List ChannelMsg) (ending : Ending) : ExecScript where
  openSession := some (.ok ())
  exec := some (.ok ())
  data := some (.ok ())
  eof := some (.ok ())
  messages := messages
  ending := ending

/-- What is sent to the server. -/
inductive Sent where
  | openSession
  | exec (command : String)
  | data (bytes : List UInt8)
  | eof
  | close
  deriving DecidableEq

/-- Try to send the messages one after the other, up to the first that cannot be sent. -/
def sendAll : List (Sent × Sending) → List Sent × Option (Except PortixError Unit)
  | [] => ([], some (.ok ()))
  | (_, none) :: _ => ([], none)
  | (_, some (.error e)) :: _ => ([], some (.error (.russh e)))
  | (m, some (.ok ())) :: rest => (m :: (sendAll rest).1, (sendAll rest).2)

def execSends (command : String) (input : Option String) (script : ExecScript) : List (Sent × Sending) :=
  [(.openSession, script.openSession), (.exec command, script.exec)] ++
    match input with
    | some input => [(.data input.toUTF8.toList, script.data), (.eof, script.eof)]
    | none => []

/-- The loop of `run_exec`: the output and the exit status, unless no more messages come. -/
def waitLoop (ending : Ending) :
    List ChannelMsg → List UInt8 → Option UInt32 → Option (List UInt8 × Option UInt32)
  | [], output, status => if ending = .lost then some (output, status) else none
  | .data bytes :: rest, output, status => waitLoop ending rest (output ++ bytes) status
  | .extendedData _ bytes :: rest, output, status => waitLoop ending rest (output ++ bytes) status
  | .eof :: _, output, status => some (output, status)
  | .close :: _, output, status => some (output, status)
  | .exitStatus status :: rest, output, _ => waitLoop ending rest output (some status)
  | _ :: rest, output, status => waitLoop ending rest output status

def execResult (output : List UInt8) (status : Option UInt32) : Except PortixError String :=
  let output := fromUtf8Lossy output
  let ok : Except PortixError String := .ok output
  match status with
  | some status =>
    if status ≠ 0 then
      let detail := (((lines output).reverse.find? fun line => trim line ≠ "").map trim).getD
        "remote command failed"
      .error (.invalidRequest s!"remote command exited with {status}: {detail}")
    else ok
  | none => ok

def runExec (command : String) (input : Option String) (script : ExecScript) :
    List Sent × Option (Except PortixError String) :=
  match sendAll (execSends command input script) with
  | (sent, none) => (sent, none)
  | (sent, some (.error e)) => (sent, some (.error e))
  | (sent, some (.ok ())) =>
    match waitLoop script.ending script.messages [] none with
    | some (output, status) => (sent ++ [.close], some (execResult output status))
    | none => (sent, none)

namespace ChannelMsg

def bytes : ChannelMsg → List UInt8
  | data bytes => bytes
  | extendedData _ bytes => bytes
  | _ => []

def status? : ChannelMsg → Option UInt32
  | exitStatus status => some status
  | _ => none

def isData : ChannelMsg → Bool
  | data _ => true
  | extendedData _ _ => true
  | _ => false

def isEnd : ChannelMsg → Bool
  | eof => true
  | close => true
  | _ => false

end ChannelMsg

/-- The messages a server may send in answer to one request: nothing after CLOSE, no data after EOF,
at most one exit status, and neither data nor a status for a request that it refused. -/
structure Permitted (messages : List ChannelMsg) : Prop where
  order : messages.Pairwise fun m m' => m ≠ .close ∧ (m = .eof → m'.isData = false)
  status : (messages.filterMap ChannelMsg.status?).length ≤ 1
  refused : .failure ∈ messages → ∀ m ∈ messages, m.isData = false ∧ m.status? = none

section

variable (command : String) (input : Option String) (script : ExecScript)

/-- Something could not be sent. -/
def SendFails : Prop := ∃ e, (sendAll (execSends command input script)).2 = some (.error e)

/-- Something waits for ever to be sent. -/
def SendHangs : Prop := (sendAll (execSends command input script)).2 = none

/-- The connection was lost before the server closed the channel. -/
def LostOpen : Prop := script.ending = .lost ∧ .close ∉ script.messages

/-- The command exited non-zero. -/
def ExitsNonZero (messages : List ChannelMsg) : Prop := ∃ status, .exitStatus status ∈ messages ∧
  status ≠ 0

/-- `run_exec` has to report an error. -/
def Fails : Prop :=
  SendFails command input script ∨ .failure ∈ script.messages ∨ ExitsNonZero script.messages ∨
    LostOpen script

/-- `run_exec` has to return. -/
def Answered : Prop :=
  SendFails command input script ∨ .failure ∈ script.messages ∨ .close ∈ script.messages ∨
    script.ending = .lost

/-- `run_exec` reports what happened to the command. -/
def ReportsOutcome : Prop :=
  (Answered command input script → (runExec command input script).2 ≠ none) ∧
  ∀ r, (runExec command input script).2 = some r →
    (Fails command input script → ∃ e, r = .error e) ∧
    (¬ Fails command input script → r = .ok (fromUtf8Lossy (script.messages.flatMap ChannelMsg.bytes)))

end

/- The exec worker: `run_exec_worker` of `infrastructure/ssh_client.rs`: one task for each profile or terminal session,
which takes the exec requests one after the other and keeps a connection open between them. How
connecting and the server behave is given for each request. -/

structure ExecRequest where
  command : String
  input : Option String
  responseTx : Nat

/-- What the server does with one request, by the connection it comes on. -/
structure Service where
  connect : Except PortixError Unit
  connectAgain : Except PortixError Unit
  first : ExecScript
  reconnect : Except PortixError Unit
  second : ExecScript

inductive WorkerEvent where
  | request (request : ExecRequest) (service : Service)
  | keepalive

inductive WorkerObs where
  | keepalive
  | sent (m : Sent)
  | reply (responseTx : Nat) (result : Except PortixError String)
  deriving DecidableEq

/-- Connect if there is no connection yet, with one retry: whether there is one now, and the error
if not. -/
def connectTwice (session : Bool) (service : Service) : Bool × Option PortixError :=
  if session then (true, none)
  else
    match service.connect, service.connectAgain with
    | .ok (), _ => (true, none)
    | .error _, .ok () => (true, none)
    | .error _, .error err => (false, some err)

/-- The error of a broken connection; a command that ran and exited non-zero is an answer. -/
def isBroken : Except PortixError String → Bool
  | .error (.invalidRequest _) => false
  | .error _ => true
  | .ok _ => false

/-- One turn of the loop: what is sent, whether there is a connection afterwards, and the result,
unless `run_exec` does not return. -/
def serve (session : Bool) (request : ExecRequest) (service : Service) :
    List Sent × Bool × Option (Except PortixError String) :=
  match connectTwice session service with
  | (false, connectError) => ([], false, some (.error (connectError.getD .connectionTimeout)))
  | (true, _) =>
    match runExec request.command request.input service.first with
    | (sent, none) => (sent, true, none)
    | (sent, some result) =>
      if isBroken result then
        match service.reconnect with
        | .ok () =>
          let again := runExec request.command request.input service.second
          (sent ++ again.1, true, again.2)
        | .error err => (sent, false, some (.error err))
      else (sent, true, some result)

def runExecWorker : Bool → List WorkerEvent → List WorkerObs
  | _, [] => []
  | session, .keepalive :: rest =>
    (if session then [.keepalive] else []) ++ runExecWorker session rest
  | session, .request request service :: rest =>
    match serve session request service with
    | (sent, _, none) => sent.map .sent
    | (sent, session, some result) =>
      sent.map .sent ++ .reply request.responseTx result :: runExecWorker session rest

def WorkerObs.reply? : WorkerObs → Option (Nat × Except PortixError String)
  | reply responseTx result => some (responseTx, result)
  | _ => none

def Sent.isExec : Sent → Bool
  | exec _ => true
  | _ => false

def WorkerObs.isExec : WorkerObs → Bool
  | sent m => m.isExec
  | _ => false

def execs (obs : List WorkerObs) : Nat := obs.countP WorkerObs.isExec

section

variable (request : ExecRequest) (service : Service)

/-- The result comes from the command of the request, or from not getting a connection for it. -/
def StemsFrom (result : Except PortixError String) : Prop :=
  (runExec request.command request.input service.first).2 = some result ∨
    (runExec request.command request.input service.second).2 = some result ∨
    ∃ e, result = .error e ∧ (service.connectAgain = .error e ∨ service.reconnect = .error e)

/-- The request to run the command is sent. -/
def ExecSent (script : ExecScript) : Prop := script.openSession = some (.ok ()) ∧ script.exec = some (.ok ())

/-- The connection breaks while the first attempt sends the input of its command or the EOF after it, and there is a
new one. -/
def BreaksInInput : Prop :=
  ExecSent service.first ∧ SendFails request.command request.input service.first ∧
    service.reconnect = .ok () ∧ ExecSent service.second

/-- Only the command of the request is sent, once, or twice if the connection breaks while its
input and the EOF are sent. -/
structure Sends (obs : List WorkerObs) : Prop where
  own : ∀ command, .sent (.exec command) ∈ obs → command = request.command
  most : execs obs ≤ 2
  again : execs obs = 2 ↔ execs obs ≠ 0 ∧ BreaksInInput request service

/-- What the worker does for a request. -/
structure Answers (obs : List WorkerObs) : Prop extends Sends request service obs where
  reply : ∃ result, obs.filterMap WorkerObs.reply? = [(request.responseTx, result)] ∧
    obs.getLast? = some (.reply request.responseTx result) ∧ StemsFrom request service result

/-- `run_exec` does not return. -/
def Hangs : Prop :=
  (runExec request.command request.input service.first).2 = none ∨
    (runExec request.command request.input service.second).2 = none

end

def Handles : WorkerEvent → List WorkerObs → Prop
  | .request request service, obs => Answers request service obs
  | .keepalive, obs => obs.filterMap WorkerObs.reply? = [] ∧ execs obs = 0

end Portix.Ssh
