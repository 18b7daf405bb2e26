import Portix.Lib.Machine

/-!
# The registry of tunnels

`register`, `stop_local_forward` and `active_local_forwards` of `port_forward.rs` over the map `ACTIVE`, and
the tasks that run the tunnels. A call of `register` spawns the task while it holds the lock, so that the task
goes on running between the spawn and the insertion; every other use of the lock is one step.
-/

namespace Portix.Forward

open Lib

structure LocalForward where
  id : String
  profileId : String := ""
  localPort : UInt16 := 0
  remoteHost : String := ""
  remotePort : UInt16 := 0
  socks : Bool := false
  reverse : Bool := false
  deriving DecidableEq

/-- How far the task of a forward has got. -/
inductive TaskPhase where
  | running
  | finished
  | over
  deriving DecidableEq

structure TunnelTask where
  id : String
  phase : TaskPhase := .running
  aborted : Bool := false
  deriving DecidableEq

/-- The forwards listed, the tasks that serve them, and a `start` between its two steps. -/
structure Tunnels where
  registering : Option (LocalForward × Nat) := none
  active : List (LocalForward × Nat) := []
  tasks : List TunnelTask := []
  deriving DecidableEq

/-- The steps of `start`, `stop` and `list`, and those of the tasks. -/
inductive TunnelEvent where
  | spawn (forward : LocalForward)
  | insert
  | finish (task : Nat)
  | drop (task : Nat) (panicked : Bool)
  | remove (task : Nat)
  | stop (id : String)
  | list

inductive TunnelObs where
  | registered (forward : LocalForward)
  | removed (id : String)
  | stopped (id : String)
  | listed (forwards : List LocalForward)
  deriving DecidableEq

namespace Tunnels

variable (s : Tunnels)

def without (id : String) : List (LocalForward × Nat) :=
  s.active.filter fun entry => entry.1.id ≠ id

def ids : List String := s.active.map fun entry => entry.1.id

def abort (n : Nat) : List TunnelTask :=
  match s.tasks[n]? with
  | some task => s.tasks.set n { task with aborted := true }
  | none => s.tasks

def stop (id : String) : Tunnels :=
  match s.active.find? fun entry => entry.1.id = id with
  | some (_, n) => { s with active := s.without id, tasks := s.abort n }
  | none => s

/-- One step. The id of a new tunnel is one that no tunnel had (`Uuid::new_v4`). -/
def step : TunnelEvent → Option (Tunnels × List TunnelObs)
  | .spawn forward =>
    if s.registering = none ∧ forward.id ∉ s.tasks.map TunnelTask.id then
      some ({ s with
        registering := some (forward, s.tasks.length)
        tasks := s.tasks ++ [{ id := forward.id }] }, [])
    else none
  | .insert =>
    match s.registering with
    | some (forward, n) =>
      some ({ s with registering := none, active := s.without forward.id ++ [(forward, n)] },
        [.registered forward])
    | none => none
  | .finish n =>
    match s.tasks[n]? with
    | some task =>
      if task.phase = .running then
        some ({ s with tasks := s.tasks.set n { task with phase := .finished } }, [])
      else none
    | none => none
  | .drop n panicked =>
    match s.tasks[n]? with
    | some task =>
      if task.phase = .running ∧ (task.aborted = true ∨ panicked = true) then
        some ({ s with tasks := s.tasks.set n { task with phase := .over } }, [])
      else none
    | none => none
  | .remove n =>
    match s.tasks[n]? with
    | some task =>
      if task.phase = .finished ∧ s.registering = none then
        some ({ s with active := s.without task.id, tasks := s.tasks.set n { task with phase := .over } },
          [.removed task.id])
      else none
    | none => none
  | .stop id => if s.registering = none then some (s.stop id, [.stopped id]) else none
  | .list => if s.registering = none then some (s, [.listed (s.active.map Prod.fst)]) else none

end Tunnels

def TunnelEvent.task : TunnelEvent → Option Nat
  | finish n => some n
  | drop n _ => some n
  | remove n => some n
  | _ => none

def Registered (id : String) (h : List TunnelObs) : Prop := ∃ forward, .registered forward ∈ h ∧ forward.id = id

/-- The tunnel was registered, its task has not removed it, and no stop was made for it. -/
def Live (id : String) (h : List TunnelObs) : Prop :=
  (∃ before forward after, h = before ++ .registered forward :: after ∧ forward.id = id ∧ .stopped id ∉ after) ∧
    .removed id ∉ h

end Portix.Forward
