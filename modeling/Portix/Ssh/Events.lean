import Portix.Lib.Broadcast
import Portix.Lib.Machine
import Portix.Ssh.Exec

/-!
# Events of the sessions

What the tasks of the terminal sessions send (`SessionManager::connect` in
`application/session_manager.rs`, `SshRuntime::run` in `infrastructure/ssh_client.rs`) and how it
gets to the app (`forward_json_stream` in `api/ssh.rs`). The three kinds of events have a broadcast
channel each, shared by all sessions; of each channel one forwarding task is followed.
-/

namespace Portix.Ssh

open Lib Domain

inductive ConnectionStatus where
  | disconnected
  | connecting
  | connected
  | error
  deriving DecidableEq

structure TerminalOutputEvent where
  sessionId : String
  data : List UInt8

structure ConnectionStatusEvent where
  sessionId : String
  status : ConnectionStatus
  message : Option String

structure ErrorEvent where
  sessionId : Option String
  message : String

inductive EventKind where
  | output
  | status
  | error
  deriving DecidableEq

namespace EventKind

abbrev Event : EventKind → Type
  | output => TerminalOutputEvent
  | status => ConnectionStatusEvent
  | error => ErrorEvent

def capacity : EventKind → Nat
  | output => 1024
  | status => 256
  | error => 256

end EventKind

/-- How far a session has got. -/
inductive SessionPhase where
  | absent
  | connecting
  | running
  | failed (error : PortixError)
  | ending (result : Except PortixError Unit)
  | ended
  deriving DecidableEq

/-- What happens to a session. -/
inductive SessionEvent where
  | connect
  | connected
  | message (msg : Option ChannelMsg)
  | disconnect
  | fail (error : PortixError)
  | reportError
  | finish

/-- The arm of the loop of `SshRuntime::run` for messages: whether the loop goes on, and what is
output. -/
def runtimeMessage : Option ChannelMsg → Bool × Option (List UInt8)
  | some (.data data) => (true, some data)
  | some (.extendedData _ data) => (true, some data)
  | some .eof => (false, none)
  | some .close => (false, none)
  | none => (false, none)
  | some (.exitStatus _) => (false, none)
  | some _ => (true, none)

def finalStatus : Except PortixError Unit → ConnectionStatus × Option String
  | .ok () => (.disconnected, none)
  | .error error => (.error, some error.text)

def finalEvent (id : String) (result : Except PortixError Unit) : ConnectionStatusEvent where
  sessionId := id
  status := (finalStatus result).1
  message := (finalStatus result).2

def sessionStep (id : String) :
    SessionPhase → SessionEvent → Option (SessionPhase × Option (Σ k, EventKind.Event k))
  | .absent, .connect =>
    some (.connecting, some ⟨.status, ⟨id, .connecting, some "connecting"⟩⟩)
  | .connecting, .connected =>
    some (.running, some ⟨.status, ⟨id, .connected, some "connected"⟩⟩)
  | .running, .message msg =>
    match runtimeMessage msg with
    | (true, output) => some (.running, output.map fun data => ⟨.output, ⟨id, data⟩⟩)
    | (false, _) => some (.ending (.ok ()), none)
  | .running, .disconnect => some (.ending (.ok ()), none)
  | .connecting, .fail error => some (.failed error, none)
  | .running, .fail error => some (.failed error, none)
  | .failed error, .reportError =>
    some (.ending (.error error), some ⟨.error, ⟨some id, error.text⟩⟩)
  | .ending result, .finish => some (.ended, some ⟨.status, finalEvent id result⟩)
  | _, _ => none

/-- A channel, with one task that forwards its events and the sink it forwards them to. -/
structure EventStream (S R : Type) where
  channel : S
  rx : R
  sink : List String
  accepts : Bool
  forwarding : Bool

/-- One turn of the loop of `forward_json_stream`: what is added to the sink, and whether the loop
goes on. -/
def forwardTurn {E : Type} (toJson : E → Option String) (accepts : Bool) :
    Recv E → Option String × Bool
  | .ok event =>
    match toJson event with
    | none => (none, true)
    | some json => if accepts then (some json, true) else (none, false)
  | .lagged _ => (none, true)
  | .closed => (none, false)
  | .empty => (none, true)

def EventStream.poll {E S R : Type} (B : Broadcast E S R) (toJson : E → Option String)
    (s : EventStream S R) : EventStream S R :=
  let (received, rx) := B.recv s.channel s.rx
  let (json, forwarding) := forwardTurn toJson s.accepts received
  { s with rx := rx, sink := s.sink ++ json.toList, forwarding := forwarding }

section

variable {S R : EventKind → Type}

/-- The sessions and the channels. The messages of a server come in by themselves: they wait in `inbox` until the loop
of their session takes them. -/
structure EventState (S R : EventKind → Type) where
  phase : String → SessionPhase
  inbox : String → List ChannelMsg
  streams : (k : EventKind) → EventStream (S k) (R k)

inductive Happening where
  | arrive (id : String) (msg : ChannelMsg)
  | session (id : String) (event : SessionEvent)
  | poll (k : EventKind)
  | closeSink (k : EventKind)

inductive EventObs where
  | arrived (id : String) (msg : ChannelMsg)
  | sent (k : EventKind) (event : k.Event)

def EventState.setStream (s : EventState S R) (k : EventKind) (stream : EventStream (S k) (R k)) :
    EventState S R :=
  { s with streams := Function.update s.streams k stream }

/-- What is left of the messages of a session once its loop has taken the next: they are taken in order, and the end
of the channel is seen only after the last. -/
def takeMessage (inbox : List ChannelMsg) : SessionEvent → Option (List ChannelMsg)
  | .message (some msg) => if inbox.head? = some msg then some inbox.tail else none
  | .message none => if inbox = [] then some [] else none
  | _ => some inbox

variable (B : (k : EventKind) → Broadcast k.Event (S k) (R k))
  (toJson : (k : EventKind) → k.Event → Option String)

def EventState.send (s : EventState S R) (event : Σ k, EventKind.Event k) : EventState S R :=
  s.setStream event.1
    { s.streams event.1 with channel := (B event.1).send (s.streams event.1).channel event.2 }

def EventObs.ofEvent (event : Σ k, EventKind.Event k) : EventObs := .sent event.1 event.2

def eventStep (s : EventState S R) : Happening → Option (EventState S R × List EventObs)
  | .arrive id msg =>
    some ({ s with inbox := Function.update s.inbox id (s.inbox id ++ [msg]) }, [.arrived id msg])
  | .session id event =>
    match sessionStep id (s.phase id) event, takeMessage (s.inbox id) event with
    | some (phase, emitted), some left =>
      let s := { s with phase := Function.update s.phase id phase, inbox := Function.update s.inbox id left }
      some (emitted.elim s (s.send B), emitted.toList.map .ofEvent)
    | _, _ => none
  | .poll k =>
    if (s.streams k).forwarding then
      some (s.setStream k ((s.streams k).poll (B k) (toJson k)), [])
    else none
  | .closeSink k => some (s.setStream k { s.streams k with accepts := false }, [])

def EventObs.event? (k : EventKind) : EventObs → Option k.Event
  | sent k' event => if h : k' = k then some (h ▸ event) else none
  | arrived _ _ => none

def sentTo (k : EventKind) (h : List EventObs) : List k.Event := h.filterMap (EventObs.event? k)

def EventObs.message? (id : String) : EventObs → Option ChannelMsg
  | arrived id' msg => if id' = id then some msg else none
  | sent _ _ => none

/-- The messages that have come from the server of a session. -/
def arrivedIn (id : String) (h : List EventObs) : List ChannelMsg := h.filterMap (EventObs.message? id)

def outputOf (id : String) (events : List TerminalOutputEvent) : List UInt8 :=
  (events.filter fun event => event.sessionId = id).flatMap TerminalOutputEvent.data

/-- A forwarding task has just subscribed to a channel that was sent some events. -/
structure Subscribed (Holds : (k : EventKind) → S k → List k.Event → Prop) (k : EventKind)
    (s : EventState S R) : Prop where
  holds : ∃ log, Holds k (s.streams k).channel log
  rx : (s.streams k).rx = (B k).subscribe (s.streams k).channel
  sink : (s.streams k).sink = []
  forwarding : (s.streams k).forwarding = true

/-- The task of `k` asks for an event only while no more are outstanding than the channel keeps. -/
def KeepsUp (Holds : (k : EventKind) → S k → List k.Event → Prop) (pos : (k : EventKind) → R k → Nat)
    (k : EventKind) (s : EventState S R) (happening : Happening) : Prop :=
  happening = .poll k → ∀ front outstanding,
    Broadcast.At (Holds k) (pos k) (s.streams k).channel (s.streams k).rx front outstanding →
      outstanding.length ≤ k.capacity

/-- What became of the events sent: `taken` were, each kept or lost, and `outstanding` not yet. The
kept ones were added to the sink. -/
structure Forwarded (k : EventKind) (h : List EventObs) (sink : List String)
    (taken : List (k.Event × Bool)) (outstanding : List k.Event) : Prop where
  sent : taken.map Prod.fst ++ outstanding = sentTo k h
  sink : sink.map some = (taken.filter Prod.snd).map fun event => toJson k event.1

/-- The output of a session is that of the messages which its loop took: all up to where it is, in order; only the
last of them can be an EOF, a CLOSE or an exit status. -/
def OutputTaken (id : String) (h : List EventObs) (inbox left : List ChannelMsg) : Prop :=
  ∃ taken, inbox ++ arrivedIn id h = taken ++ left ∧
    outputOf id (sentTo .output h) = taken.flatMap ChannelMsg.bytes ∧
    ∀ msg ∈ taken.dropLast, msg.isEnd = false ∧ msg.status? = none

end

end Portix.Ssh
