import Portix.Kubernetes.KubeLogs

/-!
# The log view

`_KubeLogViewState` of `kubernetes_page.dart` with the `KubeCluster` of its tab, as a machine: the calls
of the page and the commands they wait for, which a server runs and answers in any order.

What is only shown (the search, the scroll position, titles, the replacement of a pod) is left out, and so
is the end of the page.
-/

namespace Portix.Kubernetes

open Lib

/-- What the logs are read from: where kubectl ran, and what it was asked for. -/
structure LogOrigin where
  server : String
  context : String
  namespaceName : String
  pod : Option String
  workload : Option Workload
  deriving DecidableEq

/-- The time of the lines to be shown. -/
inductive LogRange where
  | relative (range : Int)
  | absolute (start upTo : Int)

namespace LogRange

def since : LogRange → Option Int
  | relative range => some range
  | absolute _ _ => none

def sinceTime : LogRange → Option Int
  | relative _ => none
  | absolute start _ => some start

def upTo : LogRange → Option Int
  | relative _ => none
  | absolute _ upTo => some upTo

end LogRange

def relativeRanges : List Int :=
  [15, 60, 4 * 60, 24 * 60, 7 * 24 * 60].map fun minutes => minutes * 60 * DateTime.microsecondsPerSecond

/-- What the view waits for from the server. -/
inductive LogWaiting where
  | namespaces (id : String) (namespaceName pod : Option String)
  | pods (namespaceName : String) (pod : Option String)
  | logs
  | tick (generation : Nat)
  | podGone (pod : String)

/-- A command that a server was sent, and the context it was run in, once it was run. -/
structure LogCommand where
  server : String
  text : String
  namespaceName : String
  pod : Option String
  workload : Option Workload
  context : Option String := none
  waiting : LogWaiting

/-- What is picked, the lines loaded, and what is waited for. -/
structure KubeLogView where
  contexts : String → String
  profiles : List String
  profileId : Option String := none
  kubeGeneration : Nat := 0
  initialNamespace : Option String := none
  initialPod : Option String := none
  clusterGeneration : Option Nat := none
  namespaces : List String := []
  pods : List String := []
  namespaceName : Option String := none
  pod : Option String := none
  workload : Option Workload := none
  gonePod : Option String := none
  range : LogRange
  lines : List (LogLine LogOrigin) := []
  loading : Bool := false
  error : Option String := none
  ticking : Bool := false
  generation : Nat := 0
  commands : List LogCommand := []

/-- What the user does, the timer, and the answers of the server. -/
inductive LogEvent where
  | firstFrame
  | pickServer (id : String)
  | reload (context : String)
  | retry
  | selectNamespace (namespaceName : String)
  | setTarget (pod : Option String) (workload : Option Workload)
  | setRange (range : LogRange)
  | loadLogs
  | tick
  | run (i : Nat)
  | answer (i : Nat) (result : Except String String) (keepFrom : Option Int)

namespace KubeLogView

variable (s : KubeLogView)

def profile : Option String := s.profileId.filter (· ∈ s.profiles)

def send (command : LogCommand) : KubeLogView :=
  { s with commands := s.commands ++ [command] }

def run (text namespaceName : String) (waiting : LogWaiting) : KubeLogView :=
  match s.profile with
  | none => s
  | some server => { s with loading := true, error := none }.send
      { server := server, text := text, namespaceName := namespaceName, pod := s.pod, workload := s.workload,
        waiting := waiting }

def ran (result : Except String String) : KubeLogView :=
  { s with
    loading := false
    error := match result with
      | .ok _ => none
      | .error error => some error }

def selectProfile (id : String) (namespaceName pod : Option String) : KubeLogView :=
  { s with
    generation := s.generation + 1
    lines := []
    namespaces := []
    namespaceName := none
    pods := []
    pod := none
    workload := none
    gonePod := none }.run "kubectl get namespaces --no-headers" "" (.namespaces id namespaceName pod)

def onCluster : KubeLogView :=
  match s.profileId with
  | none => s
  | some id =>
    if s.clusterGeneration = some s.kubeGeneration then s
    else
      let first := s.clusterGeneration.isNone
      { s with clusterGeneration := some s.kubeGeneration }.selectProfile id
        (if first then s.initialNamespace else none) (if first then s.initialPod else none)

variable (namespaceName : String)

def podsCommand : String :=
  "kubectl get pods -n " ++ shellQuote namespaceName ++ " --no-headers"

def selectNamespace (pod : Option String) : KubeLogView :=
  { s with
    generation := s.generation + 1
    namespaceName := some namespaceName
    pod := none
    workload := none
    gonePod := none
    pods := [] }.run (podsCommand namespaceName) namespaceName (.pods namespaceName pod)

def setTarget (pod : Option String) (workload : Option Workload) : KubeLogView :=
  { s with
    generation := s.generation + 1
    pod := pod
    workload := if pod.isNone then workload else none
    gonePod := none
    lines := [] }

def loadLogs : KubeLogView :=
  match s.namespaceName with
  | none => s
  | some namespaceName => { s with generation := s.generation + 1 }.run
      (kubeLogsCommand namespaceName s.pod s.workload s.range.since s.range.sinceTime) namespaceName .logs

def tick : KubeLogView :=
  match s.namespaceName, s.profile with
  | some namespaceName, some server =>
    if s.ticking || s.loading then s
    else
      let last := lastStamp s.lines
      { s with ticking := true }.send
        { server := server
          text := kubeLogsCommand namespaceName s.pod s.workload
            (if last.isNone then s.range.since else none) (last.or s.range.sinceTime)
          namespaceName := namespaceName
          pod := s.pod
          workload := s.workload
          waiting := .tick s.generation }
  | _, _ => s

def handlePodGone (gone : String) : KubeLogView :=
  match s.profile, s.namespaceName with
  | some server, some namespaceName => s.send
      { server := server, text := podsCommand namespaceName, namespaceName := namespaceName, pod := s.pod,
        workload := s.workload, waiting := .podGone gone }
  | _, _ => s

def saysNotFound (error : String) : Bool := decide ("NotFound".toList <:+: error.toList)

def pickNamespace (namespaces : List String) (namespaceName : Option String) : Option String :=
  match namespaces with
  | [] => none
  | first :: _ =>
    match namespaceName with
    | some name => if name ∈ namespaces then some name
      else if "default" ∈ namespaces then some "default" else some first
    | none => if "default" ∈ namespaces then some "default" else some first

def gotNamespaces (id : String) (namespaceName pod : Option String)
    (result : Except String String) : KubeLogView :=
  let s := s.ran result
  match result with
  | .error _ => s
  | .ok output =>
    if s.profileId ≠ some id then s
    else
      let s := { s with namespaces := parseNamespaces output }
      match pickNamespace s.namespaces namespaceName with
      | none => s
      | some picked => s.selectNamespace picked pod

/-- `_selectNamespace` after its answer, and `_selectProfile` after that. -/
def gotPods (pod : Option String) (result : Except String String) :
    KubeLogView :=
  let s := s.ran result
  let s := match result with
    | .ok output => if s.namespaceName = some namespaceName then { s with pods := parsePods output } else s
    | .error _ => s
  match pod with
  | none => s
  | some pod =>
    if s.namespaceName = some namespaceName ∧ pod ∈ s.pods then (s.setTarget (some pod) none).loadLogs else s

def gotLogs (tryParse : String → Option Int) (s : KubeLogView) (origin : LogOrigin)
    (result : Except String String) : KubeLogView :=
  let s := s.ran result
  match result with
  | .ok output => { s with lines := parseLogLines tryParse origin output, gonePod := none }
  | .error error =>
    match s.pod with
    | some pod => if saysNotFound error then s.handlePodGone pod else s
    | none => s

def ticked (tryParse : String → Option Int) (s : KubeLogView) (origin : LogOrigin) (generation : Nat)
    (result : Except String String) (keepFrom : Option Int) : KubeLogView :=
  let s := { s with ticking := false }
  if generation ≠ s.generation then s
  else
    match result with
    | .ok output => { s with
        error := none
        lines := appendNewLines s.lines (parseLogLines tryParse origin output) keepFrom }
    | .error error =>
      match s.pod with
      | some pod => if saysNotFound error then s.handlePodGone pod else { s with error := some error }
      | none => { s with error := some error }

def gotPodGone (gone : String) (result : Except String String) : KubeLogView :=
  if s.pod ≠ some gone then s
  else
    { s with
      pods := match result with
        | .ok output => parsePods output
        | .error _ => s.pods
      gonePod := some gone
      error := none }

def originOf (command : LogCommand) (context : String) : LogOrigin :=
  ⟨command.server, context, command.namespaceName, command.pod, command.workload⟩

def goOn (tryParse : String → Option Int) (s : KubeLogView) (command : LogCommand) (context : String)
    (result : Except String String) (keepFrom : Option Int) : KubeLogView :=
  match command.waiting with
  | .namespaces id namespaceName pod => s.gotNamespaces id namespaceName pod result
  | .pods namespaceName pod => s.gotPods namespaceName pod result
  | .logs => s.gotLogs tryParse (originOf command context) result
  | .tick generation => s.ticked tryParse (originOf command context) generation result keepFrom
  | .podGone pod => s.gotPodGone pod result

/-- One step of the view or of a server. -/
def step (tryParse : String → Option Int) (s : KubeLogView) : LogEvent → Option (KubeLogView × List Unit)
  | .firstFrame => some (s.onCluster, [])
  | .pickServer id =>
    some ({ s with profileId := some id, kubeGeneration := s.kubeGeneration + 1 }.onCluster, [])
  | .reload context => s.profileId.map fun id =>
    ({ s with
        contexts := fun server => if server = id then context else s.contexts server
        kubeGeneration := s.kubeGeneration + 1 }.onCluster, [])
  | .retry => some (match s.namespaceName, s.profileId with
    | some _, _ => s.loadLogs
    | none, some id => s.selectProfile id none none
    | none, none => s, [])
  | .selectNamespace namespaceName => some (s.selectNamespace namespaceName none, [])
  | .setTarget pod workload => some (s.setTarget pod workload, [])
  | .setRange range => some ({ s with range := range }, [])
  | .loadLogs => some (s.loadLogs, [])
  | .tick => some (s.tick, [])
  | .run i => (s.commands[i]?).bind fun command =>
    if command.context.isNone then
      let ran := { command with context := some (s.contexts command.server) }
      some ({ s with commands := s.commands.set i ran }, [])
    else none
  | .answer i result keepFrom => (s.commands[i]?).bind fun command => command.context.map fun context =>
    ({ s with commands := s.commands.eraseIdx i }.goOn tryParse command context result keepFrom, [])

end KubeLogView

-- Pods that write stamped lines, and the log view of `kubernetes_page.dart` while it follows them: `_loadLogs` once,
-- and then `_tick` after `_tick`. Each reads the pods one after the other.

/-- A line that a pod writes, with the stamp that kubectl gives it; `tryParse` is `DateTime.tryParse`. -/
structure WrittenLine (tryParse : String → Option Int) where
  stamp : String
  time : Int
  text : String
  parsed : tryParse stamp = some time
  not_empty : stamp ≠ ""
  one_word : ' ' ∉ stamp.toList ∧ '\n' ∉ stamp.toList
  one_line : '\n' ∉ text.toList

def WrittenLine.content {tryParse : String → Option Int} (line : WrittenLine tryParse) : Option Int × String :=
  (some line.time, line.text)

def WrittenLine.printed {tryParse : String → Option Int} (line : WrittenLine tryParse) : String :=
  line.stamp ++ " " ++ line.text ++ "\n"

structure PodLogs (tryParse : String → Option Int) where
  count : Nat
  lines : Fin count → List (WrittenLine tryParse)
  distinct : (((List.finRange count).flatMap lines).map WrittenLine.content).Nodup

def wholeSecond (time : Int) : Int :=
  time / DateTime.microsecondsPerSecond * DateTime.microsecondsPerSecond

/-- The time that `kubectl logs` starts from when it reads a pod at a moment, with the arguments of
`kubeLogsCommand`. -/
def startOf (since sinceTime : Option Int) (moment : Int) : Option Int :=
  match sinceTime, since with
  | some sinceTime, _ => some (wholeSecond sinceTime)
  | none, some since =>
    some (moment - since.tdiv DateTime.microsecondsPerSecond * DateTime.microsecondsPerSecond)
  | none, none => none

structure Refresh (count : Nat) where
  moments : Fin count → Int
  ended : Int
  following : Bool := true
  increasing : Monotone moments
  read_before : ∀ i, moments i ≤ ended

namespace PodLogs

variable {tryParse : String → Option Int} (logs : PodLogs tryParse)

/-- What kubectl returns of a pod: its lines from a time on, up to the moment it reads them. -/
def readPod (since sinceTime : Option Int) (r : Refresh logs.count) (i : Fin logs.count) :
    List (WrittenLine tryParse) :=
  (logs.lines i).filter fun line =>
    (startOf since sinceTime (r.moments i)).all (· ≤ line.time) && decide (line.time ≤ r.moments i)

def output (since sinceTime : Option Int) (r : Refresh logs.count) : String :=
  String.join (((List.finRange logs.count).flatMap (logs.readPod since sinceTime r)).map WrittenLine.printed)

end PodLogs

namespace LogRange

def Offered : LogRange → Prop
  | relative range => range ∈ relativeRanges
  | absolute _ _ => True

/-- A time is inside the range, at a moment. -/
def Covers (range : LogRange) (now time : Int) : Prop :=
  match range with
  | relative range => now - range ≤ time
  | absolute start upTo => start ≤ time ∧ time ≤ upTo

instance (range : LogRange) : Decidable range.Offered :=
  match range with
  | relative _ => inferInstanceAs (Decidable (_ ∈ relativeRanges))
  | absolute _ _ => inferInstanceAs (Decidable True)

instance (range : LogRange) (now time : Int) : Decidable (range.Covers now time) :=
  match range with
  | relative _ => inferInstanceAs (Decidable (_ ≤ _))
  | absolute _ _ => inferInstanceAs (Decidable (_ ∧ _))

end LogRange

namespace KubeLogView

/-- The page has a namespace, and waits for nothing. -/
def Ready (s : KubeLogView) : Prop :=
  s.namespaceName.isSome ∧ s.profile.isSome ∧ s.ticking = false ∧ s.loading = false

def tickSince (s : KubeLogView) : Option Int := if (lastStamp s.lines).isNone then s.range.since else none

def tickSinceTime (s : KubeLogView) : Option Int := (lastStamp s.lines).or s.range.sinceTime

def answered (tryParse : String → Option Int) (s : KubeLogView) (output : String) (keepFrom : Option Int) :
    KubeLogView :=
  match s.commands.getLast? with
  | none => s
  | some command => { s with commands := s.commands.dropLast }.goOn tryParse command (s.contexts command.server)
      (.ok output) keepFrom

end KubeLogView

/-- The page while it follows the pods, and when it last read each of them. -/
structure LogFollow {tryParse : String → Option Int} (logs : PodLogs tryParse) where
  view : KubeLogView
  readAt : Fin logs.count → Int
  now : Int

namespace LogFollow

variable {tryParse : String → Option Int} {logs : PodLogs tryParse}

def load (logs : PodLogs tryParse) (view : KubeLogView) (r : Refresh logs.count) : LogFollow logs where
  view := view.loadLogs.answered tryParse (logs.output view.range.since view.range.sinceTime r) none
  readAt := r.moments
  now := r.ended

/-- `_tick`; a relative range drops what is older while the page follows. -/
def tick (s : LogFollow logs) (r : Refresh logs.count) : LogFollow logs where
  view := s.view.tick.answered tryParse (logs.output s.view.tickSince s.view.tickSinceTime r)
    (if r.following then s.view.range.since.map (r.ended - ·) else none)
  readAt := r.moments
  now := r.ended

def step (s : LogFollow logs) (r : Refresh logs.count) : Option (LogFollow logs × List Unit) :=
  if s.now ≤ r.ended ∧ ∀ i, s.now ≤ r.moments i then some (s.tick r, []) else none

end LogFollow

end Portix.Kubernetes
