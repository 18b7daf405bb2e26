import Portix.Kubernetes.KubeDetail

/-!
# The status of a pod

`podStatus` and `podHealthOf` of `kube_resources.dart`, and the column STATUS of `kubectl get pods`.
-/

namespace Portix.Kubernetes

open Lib

inductive PodHealth where
  | ok
  | pending
  | failing
  | done

def stateReason (c : Item) : Json :=
  Json.orElse (field c "state.waiting.reason") (field c "state.terminated.reason")

/-- The first reason in a list of statuses, each cast when it is looked at: `none` is a `TypeError`. -/
def firstReason (skipCompleted : Bool) : List Json → Option (Option String)
  | [] => some none
  | c :: rest => c.asMap?.bind fun c => match stateReason c with
    | .null => firstReason skipCompleted rest
    | .string reason =>
      if skipCompleted ∧ reason = "Completed" then firstReason skipCompleted rest else some (some reason)
    | reason => some (some reason.toText)

def podStatus (pod : Item) : Option String :=
  match field pod "metadata.deletionTimestamp" with
  | .null => (listField pod "status.initContainerStatuses").bind fun inits => (firstReason true inits).bind fun
    | some reason => some ("Init:" ++ reason)
    | none => (listField pod "status.containerStatuses").bind fun statuses => (firstReason false statuses).map fun
      | some reason => reason
      | none => strField pod "status.phase"
  | _ => some "Terminating"

def isReady (c : Item) : Bool := match Json.get c "ready" with
  | .bool ready => ready
  | _ => false

def podReady (pod : Item) : Option String :=
  (listField pod "status.containerStatuses").bind fun statuses => (statuses.mapM Json.asMap?).bind fun statuses =>
    (listField pod "spec.containers").map fun containers =>
      toString (statuses.countP isReady) ++ "/" ++ toString containers.length

def podHealthOf (pod : Item) : Option PodHealth :=
  (podStatus pod).bind fun status =>
    if status = "Completed" ∨ status = "Succeeded" then some .done
    else if status = "Running" then
      (podReady pod).bind fun text => match splitChar '/' text with
        | [ready, total] => some (if ready = total then .ok else .pending)
        | _ => none
    else if status ∈ ["Pending", "ContainerCreating", "PodInitializing", "Terminating"] ∨
        "Init:".toList <+: status.toList then some .pending
    else some .failing

/-- A reason has no colon, and is not how many init containers are done. -/
structure Reason where
  text : String
  noColon : ':' ∉ text.toList
  noCount : ∀ i n : Nat, text ≠ toString i ++ "/" ++ toString n

def Reason.ofText (text : String) (hcolon : ':' ∉ text.toList) (hslash : '/' ∉ text.toList) : Reason where
  text := text
  noColon := hcolon
  noCount := by
    rintro i n rfl
    simp at hslash

/-- The state a container is in, as `kubectl` prints it. -/
inductive ContainerState where
  | waiting (reason : Option Reason)
  | running
  | terminated (exitCode : Int) (reason : Reason)

def ContainerState.reason : ContainerState → Option Reason
  | .waiting reason => reason
  | .running => none
  | .terminated _ reason => some reason

structure InitStatus where
  state : ContainerState
  startedRestartable : Bool

structure ContainerStatus where
  state : ContainerState
  ready : Bool

inductive PodPhase where
  | pending
  | running
  | succeeded
  | failed
  | unknown

namespace PodPhase

def text : PodPhase → String
  | .pending => "Pending"
  | .running => "Running"
  | .succeeded => "Succeeded"
  | .failed => "Failed"
  | .unknown => "Unknown"

def isTerminal : PodPhase → Bool
  | .succeeded => true
  | .failed => true
  | _ => false

end PodPhase

/-- What the status of a pod is made of. -/
structure Pod where
  deleted : Bool
  reason : Option Reason
  phase : PodPhase
  ready : Bool
  inits : List InitStatus
  initCount : Nat
  statuses : List ContainerStatus
  containerCount : Nat

def InitStatus.over (s : InitStatus) : Bool := s.startedRestartable || match s.state with
  | .terminated exitCode _ => exitCode = 0
  | _ => false

def InitStatus.named (s : InitStatus) : Option Reason := match s.state with
  | .terminated _ reason => some reason
  | .waiting reason => reason.filter fun reason => reason.text ≠ "PodInitializing"
  | .running => none

namespace Pod

variable (p : Pod)

def settled (shown : String) : String :=
  if shown = "Completed" ∧ ∃ s ∈ p.statuses, s.ready = true ∧ s.state matches .running then
    if p.ready then "Running" else "NotReady"
  else shown

def initializing : Option (InitStatus × Nat) := p.inits.zipIdx.find? fun entry => !entry.1.over

def firstReason : Option Reason := p.statuses.findSome? fun s => s.state.reason

def state : String := match p.initializing with
  | some (s, i) => "Init:" ++ match s.named with
    | some reason => reason.text
    | none => toString i ++ "/" ++ toString p.initCount
  | none => p.settled (match p.firstReason with
    | some reason => reason.text
    | none => (p.reason.map Reason.text).getD p.phase.text)

def kubectlStatus : String :=
  if p.deleted = true ∧ p.phase.isTerminal = false then "Terminating" else p.state

def AllReady : Prop := (∀ s ∈ p.statuses, s.ready = true) ∧ p.statuses.length = p.containerCount

def initReason : Option Reason :=
  p.inits.findSome? fun s => s.state.reason.filter fun reason => reason.text ≠ "Completed"

/-- Where the app prints what `kubectl` does. -/
def Agrees : Prop :=
  if p.deleted then p.phase.isTerminal = true → p.state = "Terminating"
  else match p.initializing with
    | some (s, _) => ∃ reason, s.named = some reason ∧ p.initReason = some reason
    | none => p.initReason = none ∧ match p.firstReason with
      | some reason => p.settled reason.text = reason.text
      | none => ∀ reason, p.reason = some reason → p.settled reason.text = p.phase.text

end Pod

def reasonJson (reason : Option Reason) : Json := (reason.map fun reason => Json.string reason.text).getD .null

structure StateSaid (c : Item) (state : ContainerState) : Prop where
  waiting : field c "state.waiting.reason" = reasonJson (match state with
    | .waiting reason => reason
    | _ => none)
  terminated : field c "state.terminated.reason" = reasonJson (match state with
    | .terminated _ reason => some reason
    | _ => none)

/-- What a JSON text says of a pod; what the app does not read is left open. -/
structure PodSaid (pod : Item) (p : Pod) : Prop where
  deleted : field pod "metadata.deletionTimestamp" = .null ↔ p.deleted = false
  phase : field pod "status.phase" = .string p.phase.text
  inits : ∃ items, listField pod "status.initContainerStatuses" = some (items.map .map) ∧
    List.Forall₂ (fun c s => StateSaid c s.state) items p.inits
  statuses : ∃ items, listField pod "status.containerStatuses" = some (items.map .map) ∧
    List.Forall₂ (fun c s => StateSaid c s.state ∧ Json.get c "ready" = .bool s.ready) items p.statuses
  containers : ∃ items, listField pod "spec.containers" = some items ∧ items.length = p.containerCount

end Portix.Kubernetes
