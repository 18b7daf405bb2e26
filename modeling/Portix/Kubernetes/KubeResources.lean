import Portix.Kubernetes.KubeLogs
import Portix.Lib.Json

/-!
# Resources of a cluster

The kinds of resources of `kube_resources.dart`, and the commands that list, show and change them.
An item is the map that `kubectl -o json` gives.
-/

namespace Portix.Kubernetes

open Lib

/-- `field`: a nested value, `null` where a step of its path is missing. -/
def field (item : JsonMap) (path : String) : Json :=
  (splitChar '.' path).foldl (fun value key => match value with
    | .map entries => Json.get entries key
    | _ => .null) (.map item)

def strField (item : JsonMap) (path : String) : String := (field item path).toTextOr ""

/-- `_list`: `none` is a `TypeError`. Its items are cast when they are read. -/
def listField (item : JsonMap) (path : String) : Option (List Json) :=
  (field item path).asList?

def mapField (item : JsonMap) (path : String) : Option JsonMap :=
  match field item path with
  | .null => some []
  | value => value.asMap?

def nameOf (item : JsonMap) : String := strField item "metadata.name"

def namespaceOf (item : JsonMap) : Option (Option String) :=
  (field item "metadata.namespace").asString?

inductive KubeAction where
  | scale
  | restart
  | rollback
  | runNow
  | suspend
  | resume
  | cordon
  | uncordon
  | drain
  | shell
  | logs
  deriving DecidableEq

structure KubeKind where
  type : String
  namespaced : Bool := true
  ownsPods : Bool := false
  deriving DecidableEq

def kubeKinds : List KubeKind :=
  [{ type := "nodes", namespaced := false },
    { type := "namespaces", namespaced := false },
    { type := "events" },
    { type := "deployments", ownsPods := true },
    { type := "statefulsets", ownsPods := true },
    { type := "daemonsets", ownsPods := true },
    { type := "jobs", ownsPods := true },
    { type := "cronjobs" },
    { type := "pods" },
    { type := "services" },
    { type := "ingresses" },
    { type := "horizontalpodautoscalers" },
    { type := "persistentvolumes", namespaced := false },
    { type := "persistentvolumeclaims" },
    { type := "storageclasses", namespaced := false },
    { type := "configmaps" },
    { type := "secrets" },
    { type := "networkpolicies" },
    { type := "poddisruptionbudgets" },
    { type := "resourcequotas" },
    { type := "serviceaccounts" },
    { type := "roles" },
    { type := "rolebindings" },
    { type := "clusterroles", namespaced := false },
    { type := "clusterrolebindings", namespaced := false }]

def nsFlag : Option String → String
  | none => ""
  | some namespaceName => " -n " ++ shellQuote namespaceName

variable (kind : KubeKind)

def listCommand (namespaceName : Option String) : String :=
  "kubectl get " ++ kind.type ++
    (if !kind.namespaced then "" else if namespaceName = none then " -A" else nsFlag namespaceName) ++
    " -o json"

def target (item : JsonMap) : Option String :=
  (namespaceOf item).map fun ns => kind.type ++ " " ++ shellQuote (nameOf item) ++ nsFlag ns

def yamlCommand (item : JsonMap) : Option String :=
  (target kind item).map fun target => "kubectl get " ++ target ++ " -o yaml"

def describeCommand (item : JsonMap) : Option String :=
  (target kind item).map fun target => "kubectl describe " ++ target

def deleteCommand (item : JsonMap) : Option String :=
  (target kind item).map fun target => "kubectl delete " ++ target ++ " --wait=false"

def applyCommand (namespaceName : Option String) : String :=
  "kubectl apply" ++ nsFlag namespaceName ++ " -f -"

def itemCommand (item : JsonMap) : Option String :=
  (target kind item).map fun target => "kubectl get " ++ target ++ " -o json"

def scaleCommand (item : JsonMap) (replicas : Int64) : Option String :=
  (target kind item).map fun target => "kubectl scale " ++ target ++ " --replicas=" ++ intText replicas

def manualJobName (cronJob : String) (now : Int) : String :=
  let suffix := "-manual-" ++ toString ((DateTime.millisecondsSinceEpoch now).tdiv 1000)
  -- A time has few enough digits that something is kept.
  let keep := 63 - suffix.length
  (if unitLength cronJob > keep then String.ofList (takeUnits keep cronJob.toList) else cronJob) ++ suffix

/-- `actionCommand`: `none` is a `TypeError`, and `some none` is no command. -/
def actionCommand (action : KubeAction) (kind : KubeKind) (item : JsonMap) (now : Int) :
    Option (Option String) :=
  let name := nameOf item
  (namespaceOf item).map fun itemNamespace =>
    let ns := nsFlag itemNamespace
    let ref := shellQuote (kind.type ++ "/" ++ name)
    match action with
    | .restart => some ("kubectl rollout restart " ++ ref ++ ns)
    | .rollback => some ("kubectl rollout undo " ++ ref ++ ns)
    | .runNow => some ("kubectl create job " ++ ns ++ " --from=" ++ shellQuote ("cronjob/" ++ name) ++ " " ++
        shellQuote (manualJobName name now))
    | .suspend | .resume => some ("kubectl patch cronjob " ++ shellQuote name ++ ns ++ " -p " ++
        "'\x7b\"spec\":\x7b\"suspend\":" ++ (if action = .suspend then "true" else "false") ++ "\x7d\x7d'")
    | .cordon => some ("kubectl cordon " ++ shellQuote name)
    | .uncordon => some ("kubectl uncordon " ++ shellQuote name)
    | .drain => some ("kubectl drain " ++ shellQuote name ++ " --ignore-daemonsets " ++
        "--delete-emptydir-data --timeout=5m")
    | .scale | .shell | .logs => none

def shellCommand (namespaceName pod : String) (container : Option String) : String :=
  "kubectl exec -it -n " ++ shellQuote namespaceName ++ " " ++ shellQuote pod ++
    (match container with
      | none => ""
      | some container => " -c " ++ shellQuote container) ++ " -- " ++
    "sh -c 'command -v bash >/dev/null && exec bash || exec sh'"

def kubeSeparator : String := "---portix---"

def labelsText (labels : JsonMap) : String :=
  ",".intercalate (labels.map fun label => label.1 ++ "=" ++ label.2.toText)

/-- `podSelector`: `none` is a `TypeError`, and `some none` is no selector. A service selects with a
plain map of labels. -/
def podSelector (item : JsonMap) : Option (Option String) :=
  (mapField item "spec.selector").bind fun selector =>
    (if selector.all fun label => match label.2 with
        | .string _ => true
        | _ => false
      then some selector else mapField item "spec.selector.matchLabels").map fun labels =>
      if labels = [] then none else some (labelsText labels)

def noItems : String := "echo '\x7b\"items\":[]\x7d'"

def podsOfDetail (name : String) (ns selector : Option String) : String :=
  if kind.type = "nodes" then
    "kubectl get pods -A --field-selector " ++ shellQuote ("spec.nodeName=" ++ name) ++ " -o json"
  else match selector with
    | some selector =>
      if kind.ownsPods ∨ kind.type = "services" then
        "kubectl get pods" ++ nsFlag ns ++ " -l " ++ shellQuote selector ++ " -o json"
      else noItems
    | none => noItems

def detailCommand (item : JsonMap) : Option String :=
  (namespaceOf item).bind fun ns => (podSelector item).bind fun selector =>
    (target kind item).map fun target =>
      (" && echo '" ++ kubeSeparator ++ "' && ").intercalate
        ["kubectl get " ++ target ++ " -o json",
          podsOfDetail kind (nameOf item) ns selector,
          "kubectl get events" ++ (if kind.namespaced then nsFlag ns else " -A") ++ " --field-selector " ++
            shellQuote ("involvedObject.name=" ++ nameOf item) ++ " -o json",
          if kind.ownsPods then "kubectl get services" ++ nsFlag ns ++ " -o json" else noItems]

end Portix.Kubernetes
