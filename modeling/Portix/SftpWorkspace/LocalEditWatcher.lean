import Portix.Lib.Machine

/-!
# Edited copies of remote files

`LocalEditWatcher` of `local_edit_watcher.dart`. A timer looks at the modification time of the copy
every two seconds, and calls `onSaved` when it has changed; the ticks of a timer overlap when looking
takes long or the call is not over. What `onSaved` does is left open: it returns or throws some time
after it was called.
-/

namespace Portix.SftpWorkspace

open Lib

/-- The timer of a file that is watched. -/
structure WatchTimer where
  path : String
  lastSeen : Nat
  running : Bool := false
  cancelled : Bool := false

/-- How far a tick has got. -/
inductive WatchCall where
  | stating (path : String) (modified : Option Nat) (stopped : Bool)
  | watching

inductive Tick where
  | stating (timer : Nat) (modified : Option Nat)
  | saving (timer : Nat) (modified : Nat)
  | completed
  deriving DecidableEq

/-- The files that are watched, and the ticks under way. -/
structure LocalEditWatcher where
  modified : String → Nat
  clock : Nat
  made : List WatchTimer
  timers : String → Option Nat
  watches : List WatchCall
  ticks : List Tick
  lastSave : String → Option Nat

inductive WatchEvent where
  | save (path : String)
  | watch (path : String)
  | readWatch (call : Nat)
  | startWatch (call : Nat)
  | fire (timer : Nat)
  | readTick (tick : Nat)
  | resumeTick (tick : Nat)
  | returned (tick : Nat)
  | thrown (tick : Nat)
  | unwatch (path : String)
  | dispose

inductive WatchObs where
  | watched (path : String)
  | unwatched (path : String)
  | disposed
  | began (path : String) (now : Nat)
  | ticked (path : String) (modified : Nat)
  deriving DecidableEq

namespace LocalEditWatcher

def initial : LocalEditWatcher where
  modified := fun _ => 0
  clock := 0
  made := []
  timers := fun _ => none
  watches := []
  ticks := []
  lastSave := fun _ => none

variable (s : LocalEditWatcher)

def setTimer (t : Nat) (timer : WatchTimer) : LocalEditWatcher :=
  { s with made := s.made.set t timer }

def setTick (k : Nat) (tick : Tick) : LocalEditWatcher :=
  { s with ticks := s.ticks.set k tick }

def setWatch (i : Nat) (call : WatchCall) : LocalEditWatcher :=
  { s with watches := s.watches.set i call }

variable (path : String)

def save : LocalEditWatcher :=
  { s with
    clock := s.clock + 1
    modified := Function.update s.modified path (s.clock + 1)
    lastSave := if (s.timers path).isSome then Function.update s.lastSave path (some (s.clock + 1))
      else s.lastSave }

variable (which : String → Bool)

def cancel : List WatchTimer :=
  s.made.mapIdx fun t timer =>
    if which timer.path ∧ s.timers timer.path = some t then { timer with cancelled := true } else timer

def startWatch (i : Nat) (path : String) (modified : Nat) : LocalEditWatcher :=
  { s with
    made := s.cancel (fun p => p = path) ++ [WatchTimer.mk path modified false false]
    timers := Function.update s.timers path (some s.made.length) }.setWatch i .watching

def stopCall : WatchCall → WatchCall
  | .stating path modified stopped => .stating path modified (stopped || which path)
  | .watching => .watching

def stop : LocalEditWatcher :=
  { s with
    made := s.cancel which
    timers := fun path => if which path then none else s.timers path
    watches := s.watches.map (stopCall which)
    lastSave := fun path => if which path then none else s.lastSave path }

def unwatch : LocalEditWatcher := s.stop fun p => p = path

def dispose : LocalEditWatcher := s.stop fun _ => true

def resumeTick (k t : Nat) (timer : WatchTimer) (modified : Nat) :
    LocalEditWatcher × List WatchObs :=
  if modified ≤ timer.lastSeen then (s.setTick k .completed, [.ticked timer.path modified])
  else if timer.running then
    (s.setTimer t { timer with lastSeen := modified } |>.setTick k .completed,
      [.ticked timer.path modified])
  else
    (s.setTimer t { timer with lastSeen := modified, running := true } |>.setTick k
      (.saving t modified), [.began timer.path s.clock])

def returned (k t : Nat) (timer : WatchTimer) (modified : Nat) :
    LocalEditWatcher × List WatchObs :=
  (s.setTimer t { timer with running := false } |>.setTick k .completed,
    [.ticked timer.path modified])

def forget : LocalEditWatcher :=
  { s with
    timers := Function.update s.timers path none
    lastSave := Function.update s.lastSave path none }

def thrown (k t : Nat) (timer : WatchTimer) (modified : Nat) :
    LocalEditWatcher × List WatchObs :=
  (s.forget timer.path |>.setTimer t { timer with cancelled := true } |>.setTick k .completed,
    [.ticked timer.path modified])

def step : WatchEvent → Option (LocalEditWatcher × List WatchObs)
  | .save path => some (s.save path, [])
  | .watch path =>
    some ({ s with watches := s.watches ++ [.stating path none false] }, [.watched path])
  | .readWatch i => match s.watches[i]? with
    | some (.stating path none stopped) =>
      some (s.setWatch i (.stating path (some (s.modified path)) stopped), [])
    | _ => none
  | .startWatch i => match s.watches[i]? with
    | some (.stating path (some modified) _) => some (s.startWatch i path modified, [])
    | _ => none
  | .fire t => match s.made[t]? with
    | some timer =>
      if timer.cancelled then none else some ({ s with ticks := s.ticks ++ [.stating t none] }, [])
    | none => none
  | .readTick k => match s.ticks[k]? with
    | some (.stating t none) => (s.made[t]?).map fun timer =>
      (s.setTick k (.stating t (some (s.modified timer.path))), [])
    | _ => none
  | .resumeTick k => match s.ticks[k]? with
    | some (.stating t (some modified)) => (s.made[t]?).map fun timer =>
      s.resumeTick k t timer modified
    | _ => none
  | .returned k => match s.ticks[k]? with
    | some (.saving t modified) => (s.made[t]?).map fun timer => s.returned k t timer modified
    | _ => none
  | .thrown k => match s.ticks[k]? with
    | some (.saving t modified) => (s.made[t]?).map fun timer => s.thrown k t timer modified
    | _ => none
  | .unwatch path => some (s.unwatch path, [.unwatched path])
  | .dispose => some (s.dispose, [.disposed])

/-- A tick is in `onSaved` for a path. -/
def SavingAt (k : Nat) (path : String) : Prop :=
  ∃ t modified timer, s.ticks[k]? = some (.saving t modified) ∧ s.made[t]? = some timer ∧
    timer.path = path

/-- No `onSaved` of a path is running. -/
def Quiet : Prop := ∀ k, ¬s.SavingAt k path

/-- `onSaved` was called for a path at a time or after it. -/
def BeganSince (h : List WatchObs) (path : String) (time : Nat) : Prop :=
  ∃ now, time ≤ now ∧ .began path now ∈ h

/-- A tick that has looked at the path at a time or after it is over. -/
def TickedSince (h : List WatchObs) (path : String) (time : Nat) : Prop :=
  ∃ modified, time ≤ modified ∧ .ticked path modified ∈ h

/-- No save is lost: while the path is watched, no `onSaved` is running for it and a tick is over since
the last save, `onSaved` was called after that save. -/
def NoneLost (h : List WatchObs) (s : LocalEditWatcher) : Prop :=
  ∀ path time, (s.timers path).isSome → s.Quiet path → s.lastSave path = some time →
    TickedSince h path time → BeganSince h path time

/-- The calls of `onSaved` for one path do not overlap. -/
def Apart : Prop :=
  ∀ path k k', s.SavingAt k path → s.SavingAt k' path → k = k'

def wantedBy : WatchObs → Option Bool
  | .watched p => if p = path then some true else none
  | .unwatched p => if p = path then some false else none
  | .disposed => some false
  | .began _ _ => none
  | .ticked _ _ => none

/-- The last thing a path was asked for is to be watched. -/
def Wanted (h : List WatchObs) (path : String) : Prop :=
  (h.filterMap (wantedBy path)).getLast? = some true

/-- No `onSaved` is called after `unwatch` or `dispose`. -/
def StopsAtOnce (h : List WatchObs) : Prop :=
  ∀ h1 h2 path now, h = h1 ++ .began path now :: h2 → Wanted h1 path

/-- What a step must not come upon.
* A tick finds a save while `onSaved` is running for its path, or after its timer was cancelled.
* A call of `watch` goes on for a path that was unwatched since, or has read the last save of a path
  whose timer has not seen that save yet.
* `onSaved` throws after the path has got another timer. -/
def Undisturbed : WatchEvent → Prop
  | .resumeTick k => ∀ t modified timer, s.ticks[k]? = some (.stating t (some modified)) →
      s.made[t]? = some timer → timer.lastSeen < modified →
      s.Quiet timer.path ∧ s.timers timer.path = some t
  | .startWatch i => ∀ path modified stopped,
      s.watches[i]? = some (.stating path (some modified) stopped) → stopped = false ∧
        ∀ t timer time, s.timers path = some t → s.made[t]? = some timer →
          s.lastSave path = some time → modified < time ∨ time ≤ timer.lastSeen
  | .thrown k => ∀ t modified timer, s.ticks[k]? = some (.saving t modified) →
      s.made[t]? = some timer → s.timers timer.path = some t ∨ s.timers timer.path = none
  | _ => True

end LocalEditWatcher

end Portix.SftpWorkspace
