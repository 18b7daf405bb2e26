import Portix.Kubernetes.KubeResources
import Portix.Lib.JsonPath

/-!
# The form of a workload

What the form of `kube_resources.dart` shows of an item, and how its edits are written back.
-/

namespace Portix.Kubernetes

open Lib Json

variable (kind : KubeKind)

def podTemplate : Option String :=
  if kind.type = "cronjobs" then some "spec.jobTemplate.spec.template"
  else if kind.ownsPods then some "spec.template" else none

def kubeFormSpec : Option String :=
  if kind.type = "pods" then some "spec"
  else if kind.type = "jobs" then none
  else (podTemplate kind).map fun template => template ++ ".spec"

def kubeFormImageOnly : Bool := kind.type = "pods"

def containersPath : List String :=
  splitChar '.' ((kubeFormSpec kind).getD "null" ++ ".containers")

/-- A variable as the form shows it; with a source its value is not its own. -/
structure KubeEnvVar where
  name : String
  value : String
  source : Option String
  deriving DecidableEq

/-- What the form shows and edits of a container. -/
structure KubeContainerEdit where
  name : String
  image : String
  env : List KubeEnvVar
  cpuRequest : String
  memoryRequest : String
  cpuLimit : String
  memoryLimit : String
  deriving DecidableEq

def refKeys (refs : JsonMap) (key first second : String) : Option (Json × Json) :=
  match refs.lookup key with
  | some (.map ref) => (ref.lookup first).bind fun a => (ref.lookup second).map fun b => (a, b)
  | _ => none

def envSource (env : JsonMap) : Option String :=
  match Json.get env "valueFrom" with
  | .map refs =>
    match refKeys refs "secretKeyRef" "name" "key" with
    | some (name, key) => some ("secret " ++ name.toText ++ "/" ++ key.toText)
    | none => match refKeys refs "configMapKeyRef" "name" "key" with
      | some (name, key) => some ("configmap " ++ name.toText ++ "/" ++ key.toText)
      | none => match (match refs.lookup "fieldRef" with
          | some (.map ref) => ref.lookup "fieldPath"
          | _ => none) with
        | some path => some ("field " ++ path.toText)
        | none => some (", ".intercalate (refs.map Prod.fst))
  | _ => none

def envVar (env : JsonMap) : KubeEnvVar :=
  ⟨strField env "name", strField env "value", envSource env⟩

def asMaps (items : List Json) : Option (List JsonMap) := items.mapM asMap?

variable (container : JsonMap)

def containerEdit : Option KubeContainerEdit :=
  (listField container "env").bind fun items => (asMaps items).map fun env =>
    { name := strField container "name"
      image := strField container "image"
      env := env.map envVar
      cpuRequest := strField container "resources.requests.cpu"
      memoryRequest := strField container "resources.requests.memory"
      cpuLimit := strField container "resources.limits.cpu"
      memoryLimit := strField container "resources.limits.memory" }

variable (item : JsonMap)

def formContainers : Option (List Json) :=
  (getPath (.map item) (containersPath kind)).asList?

def containerEdits : Option (List KubeContainerEdit) :=
  (formContainers kind item).bind fun items => items.mapM fun container =>
    container.asMap?.bind containerEdit

def mapOrNew (entries : JsonMap) (key : String) : Option JsonMap :=
  match Json.get entries key with
  | .null => some []
  | value => value.asMap?

def setOrRemove (key : String) (value : JsonMap) (entries : JsonMap) :
    JsonMap :=
  if value = [] then Json.erase key entries else Json.set key (.map value) entries

def setQuantity (group key value : String) (container : JsonMap) :
    Option JsonMap :=
  (mapOrNew container "resources").bind fun resources =>
    (mapOrNew resources group).map fun quantities =>
      let quantities := if value = "" then Json.erase key quantities
        else Json.set key (.string value) quantities
      setOrRemove "resources" (setOrRemove group quantities resources) container

/-- The first variable with a name: `none` is an error, as there is none or what comes before it is no
map. -/
def firstNamed (name : String) : List Json → Option Json
  | .map old :: rest => if (Json.get old "name").isString name then some (.map old) else firstNamed name rest
  | _ => none

/-- A variable as it is written: one with a source is taken from the container. -/
def writtenVar (env : KubeEnvVar) : Option Json :=
  match env.source with
  | none => some (.map [("name", .string env.name), ("value", .string env.value)])
  | some _ => (listField container "env").bind (firstNamed env.name)

def writeSettings (edit : KubeContainerEdit) (container : JsonMap) :
    Option JsonMap := do
  let env ← edit.env.mapM (writtenVar container)
  let container := if env = [] then Json.erase "env" container else Json.set "env" (.list env) container
  let container ← setQuantity "requests" "cpu" edit.cpuRequest container
  let container ← setQuantity "requests" "memory" edit.memoryRequest container
  let container ← setQuantity "limits" "cpu" edit.cpuLimit container
  setQuantity "limits" "memory" edit.memoryLimit container

variable (imageOnly : Bool)

def editContainer (containers : List KubeContainerEdit) (container : Json) :
    Option Json :=
  container.asMap?.bind fun entries =>
    match containers.find? fun edit => (Json.get entries "name").isString edit.name with
    | none => some container
    | some edit =>
      let entries := Json.set "image" (.string edit.image) entries
      if imageOnly then some (.map entries) else (writeSettings edit entries).map .map

/-- The containers of a list, edited; without a list there is nothing to edit. -/
def editContainers (containers : List KubeContainerEdit) : Json → Option Json
  | .null => some .null
  | .list items => (items.mapM (editContainer imageOnly containers)).map .list
  | _ => none

def setReplicas (replicas : Option Int64) (item : JsonMap) : Option JsonMap :=
  match replicas with
  | none => some item
  | some replicas => match Json.get item "spec" with
    | .map spec => some (Json.set "spec" (.map (Json.set "replicas" (.int replicas) spec)) item)
    | _ => none

variable (containers : List KubeContainerEdit)

/-- `withFormEdits`: `none` is an error. The item itself is copied through its text first, and is left alone; an
infinite number, which has no text, is not in it. -/
def withFormEdits (replicas : Option Int64) : Option JsonMap :=
  (setReplicas replicas item).bind fun copy =>
    (modify (editContainers (kubeFormImageOnly kind) containers) (containersPath kind) (.map copy)).bind
      asMap?

def editOf (name : String) : Option KubeContainerEdit :=
  containers.find? fun edit => edit.name = name

/-- What the form shows of a container after saving: its edit, of which a pod takes only the image. -/
def shownAfter (containers : List KubeContainerEdit) (old : KubeContainerEdit) :
    KubeContainerEdit :=
  match editOf containers old.name with
  | none => old
  | some edit => if imageOnly then { old with image := edit.image } else edit

/-- Where the requests and limits of a container are, from its resources on. -/
def ResourcePlace (path : List Step) : Prop :=
  path = [] ∨ ∃ group rest, path = .key group :: rest ∧ group ∈ ["requests", "limits"] ∧
    (rest = [] ∨ ∃ unit last, rest = .key unit :: last ∧ unit ∈ ["cpu", "memory"])

/-- Where the form writes, from a container on. -/
def FormPlace (path : List Step) : Prop :=
  ∃ key rest, path = .key key :: rest ∧
    (key = "image" ∨ imageOnly = false ∧ (key = "env" ∨ key = "resources" ∧ ResourcePlace rest))

/-- Where the form writes, from the item on: the replicas, if they are given, and the edited
containers. -/
def EditPlace (replicas : Option Int64) (path : List Step) : Prop :=
  (replicas ≠ none ∧ ∃ rest, path = .key "spec" :: .key "replicas" :: rest) ∨
    Under (containersPath kind) (fun path => ∃ index rest shown old, path = .index index :: rest ∧
      containerEdits kind item = some shown ∧ shown[index]? = some old ∧
      editOf containers old.name ≠ none ∧ FormPlace (kubeFormImageOnly kind) rest) path

def envItems : List Json := (listField container "env").getD []

/-- Each variable of an edit with a source has the source that it had in the container. -/
def SourcesKept (edit : KubeContainerEdit) (container container' : JsonMap) : Prop :=
  ∀ (i : Nat) (env : KubeEnvVar), edit.env[i]? = some env → env.source ≠ none →
    ∀ old, .map old ∈ envItems container → envVar old = env →
      ∃ new, (envItems container')[i]? = some (.map new) ∧ new.lookup "valueFrom" = old.lookup "valueFrom"

structure Saved (kind : KubeKind) (item : JsonMap) (containers : List KubeContainerEdit)
    (replicas : Option Int64) (result : JsonMap) : Prop where
  shows : ∀ shown, containerEdits kind item = some shown → containerEdits kind result =
    some (shown.map (shownAfter (kubeFormImageOnly kind) containers))
  frame : Agree some (EditPlace kind item containers replicas) (some (.map result)) (some (.map item))
  sources : kubeFormImageOnly kind = false → ∀ (index : Nat) (container container' : JsonMap),
    ((formContainers kind item).getD [])[index]? = some (.map container) →
    ((formContainers kind result).getD [])[index]? = some (.map container') →
    ∀ edit, editOf containers (strField container "name") = some edit →
      SourcesKept edit container container'

def SavesWell (replicas : Option Int64) : Prop :=
  ∃ result, withFormEdits kind item containers replicas = some result ∧
    Saved kind item containers replicas result

/-- Saving what the form shows alters nothing but empty maps, lists and texts that may be absent. -/
def KeepsUnchanged (shown : List KubeContainerEdit)
    (replicas : Option Int64) : Prop :=
  ∃ result, withFormEdits kind item shown replicas = some result ∧
    Alike (some (.map result)) (some (.map item))

/-- The resources of a container, their requests and their limits are maps, if they are there. -/
def PlainResources : Prop :=
  ∃ resources, mapOrNew container "resources" = some resources ∧
    (mapOrNew resources "requests").isSome ∧ (mapOrNew resources "limits").isSome

/-- The first variable of a container with the name of an edited one is shown as the edited one is. -/
def FirstShown (env : KubeEnvVar) : Prop :=
  ∃ first, firstNamed env.name (envItems container) = some (.map first) ∧ envVar first = env

/-- All variables of a container that are shown as an edited one is have one source. -/
def OneSource (env : KubeEnvVar) : Prop :=
  ∀ old old', .map old ∈ envItems container → .map old' ∈ envItems container →
    envVar old = env → envVar old' = env → old'.lookup "valueFrom" = old.lookup "valueFrom"

/-- An edit can be written to its container: the name of the container is a text, so that the edit is
written, or the edit is nothing new. -/
def EditFits (container : JsonMap) (edit : KubeContainerEdit) : Prop :=
  (imageOnly = false → ∀ env ∈ edit.env, env.source ≠ none → OneSource container env) ∧
    if (Json.get container "name").isString edit.name then
      imageOnly = false → PlainResources container ∧
        ∀ env ∈ edit.env, env.source ≠ none → FirstShown container env
    else if imageOnly then edit.image = strField container "image"
    else containerEdit container = some edit

def EditsFit (replicas : Option Int64) : Prop :=
  (replicas ≠ none → ∃ spec, Json.get item "spec" = .map spec) ∧
    ∀ container, .map container ∈ (formContainers kind item).getD [] →
      ∀ edit, editOf containers (strField container "name") = some edit →
        EditFits (kubeFormImageOnly kind) container edit

/-- A text, or nothing. -/
def TextOrNull (value : Json) : Prop := value = .null ∨ ∃ text, value = .string text

/-- A variable that the form writes back: one without a source has nothing but a name and a value, and
one with a source is like the first of its name. -/
def EnvReturns (env : JsonMap) : Prop :=
  match envSource env with
  | none => Alike
      (some (.map [("name", .string (strField env "name")), ("value", .string (strField env "value"))]))
      (some (.map env))
  | some _ => ∃ first, firstNamed (strField env "name") (envItems container) = some first ∧
      Alike (some first) (some (.map env))

/-- A container that the form writes back, if its name is a text. -/
def ContainerReturns (container : JsonMap) : Prop :=
  (∃ name, Json.get container "name" = .string name) →
    TextOrNull (Json.get container "image") ∧ (imageOnly = false → PlainResources container ∧
      (∀ group ∈ ["requests", "limits"], ∀ unit ∈ ["cpu", "memory"],
        TextOrNull (getPath (.map container) ["resources", group, unit])) ∧
      ∀ env, .map env ∈ envItems container → EnvReturns container env)

end Portix.Kubernetes
