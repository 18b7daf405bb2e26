import Portix.Kubernetes.ResourceTable
import Portix.Lib.Occurrences
import Portix.Lib.Rfc3339
import Portix.Lib.Shell

/-!
# The detail of an item

What `kubectl` has printed for `detailCommand`, read by `parseDetail` of `kube_resources.dart`.
-/

namespace Portix.Kubernetes

open Lib

def splitText (separator text : String) : List String :=
  (cutAt separator.toList 0 text.toList).map String.ofList

structure DetailItems where
  item : Item
  pods : List Item
  events : List Item
  services : List Item

section Reading

variable (readDouble : String → String)

def readItem (output : String) : Option Item :=
  (Json.decode readDouble output).bind fun json => match json with
    | .map item => some item
    | _ => none

def parseItems (output : String) : Option (List Item) :=
  (readItem readDouble output).bind fun json => match Json.get json "items" with
    | .list items => items.mapM fun item => match item with
      | .map item => some item
      | _ => none
    | _ => none

/-- Labels are texts: `==` of Dart also equates equal numbers, and a missing label with `null`, but `kubectl` prints
neither. -/
def selectsLabels (labels : JsonMap) (service : Item) : Option Bool :=
  (mapField service "spec.selector").map fun selector =>
    !selector.isEmpty && selector.all fun entry =>
      match entry.2, Json.get labels entry.1 with
      | .string value, .string label => value == label
      | _, _ => false

def splitDetail (output : String) : Option DetailItems := do
  match splitText (kubeSeparator ++ "\n") output with
  | [item, pods, events, services] =>
    let json ← readItem readDouble item
    let template ← mapField json "spec.template.metadata.labels"
    let jobTemplate ← mapField json "spec.jobTemplate.spec.template.metadata.labels"
    let pods ← parseItems readDouble pods
    let events ← parseItems readDouble events
    let services ← parseItems readDouble services
    let selected ← services.filterM (selectsLabels (jobTemplate ++ template))
    return { item := json, pods := pods, events := events, services := selected }
  | _ => none

end Reading

def Json.orElse (value other : Json) : Json := match value with
  | .null => other
  | value => value

def eventStamp (event : Item) : String :=
  (Json.orElse (field event "lastTimestamp")
    (Json.orElse (field event "eventTime") (field event "metadata.creationTimestamp"))).toText

def parseDetail (readDouble : String → String) (sort : (Item → Item → Ordering) → List Item → List Item)
    (output : String) : Option DetailItems :=
  (splitDetail readDouble output).map fun detail => { detail with
    pods := sort (fun a b => compareTexts (nameOf a) (nameOf b)) detail.pods
    events := sort (fun a b => compareTexts (eventStamp b) (eventStamp a)) detail.events }

/-- `List.sort`, by a comparison that orders the list: not stable. -/
def Sorts (sort : (Item → Item → Ordering) → List Item → List Item) : Prop :=
  ∀ (compare : Item → Item → Ordering) (items : List Item), StrictWeakOn (· ∈ items) (fun a b => compare a b = .lt) →
    (∀ a ∈ items, ∀ b ∈ items, (compare a b = .lt ↔ compare b a = .gt)) →
    (sort compare items).Perm items ∧ (sort compare items).Pairwise fun a b => compare a b ≠ .gt

def detailOutput (item pods events services : String) : String :=
  (kubeSeparator ++ "\n").intercalate [item, pods, events, services]

structure DetailPrinted (readDouble : String → String) (itemText podsText eventsText servicesText : String)
    (said : DetailItems) : Prop where
  item : readItem readDouble itemText = some said.item
  pods : parseItems readDouble podsText = some said.pods
  events : parseItems readDouble eventsText = some said.events
  services : parseItems readDouble servicesText = some said.services
  lines : ∀ document ∈ [itemText, podsText, eventsText, servicesText], ∃ text, document = text ++ "\n"

/-- The labels of the pods that a workload makes (`_podTemplate`). -/
def TemplateLabels (kind : KubeKind) (item : Item) (labels : JsonMap) : Prop :=
  if kind.type = "cronjobs" then
    mapField item "spec.jobTemplate.spec.template.metadata.labels" = some labels ∧
      mapField item "spec.template.metadata.labels" = some []
  else
    mapField item "spec.template.metadata.labels" = some labels ∧
      mapField item "spec.jobTemplate.spec.template.metadata.labels" = some []

/-- The selector of a service is not empty, and contained in some labels. -/
def Selected (labels : JsonMap) (service : Item) : Prop :=
  ∃ selector, mapField service "spec.selector" = some selector ∧ selector ≠ [] ∧
    ∀ entry ∈ selector, ∃ value, entry.2 = .string value ∧ Json.get labels entry.1 = .string value

def NewestFirst (events : List Item) : Prop :=
  events.Pairwise fun a b => ∀ s t : Stamp, eventStamp a = s.text → eventStamp b = t.text → t.instant ≤ s.instant

/-- The page shows what was said. -/
structure Shows (labels : JsonMap) (said shown : DetailItems) : Prop where
  item : shown.item = said.item
  pods : shown.pods.Perm said.pods
  podsSorted : shown.pods.Pairwise fun a b => units (nameOf a) ≤ units (nameOf b)
  events : shown.events.Perm said.events
  eventsSorted : NewestFirst shown.events
  services : ∃ p : Item → Bool, (∀ service ∈ said.services, p service = true ↔ Selected labels service) ∧
    shown.services = said.services.filter p

/-- Of two events in one second, one has a stamp without a fraction and the other with one. -/
def MixedStamps (events : List Item) : Prop :=
  ∃ a ∈ events, ∃ b ∈ events, ∃ s t : Stamp, eventStamp a = s.text ∧ eventStamp b = t.text ∧ s.seconds = t.seconds ∧
    s.micros = none ∧ ∃ m, t.micros = some m ∧ 0 < m

/-- The keys and values of labels have letters, digits, and a few signs. -/
def isLabelText (text : String) : Bool := text.toList.all fun c => c.isAlphanum || c ∈ ['-', '_', '.', '/']

def pairText (pair : String × String) : String := pair.1 ++ "=" ++ pair.2

/-- What `kubectl get -l` documents of a selector of equalities: all of them are required. -/
def RequiresAll (selects : String → List (String × String) → Bool) : Prop :=
  ∀ pairs labels, pairs ≠ [] → (∀ pair ∈ pairs, isLabelText pair.1 = true ∧ isLabelText pair.2 = true) →
    (selects (",".intercalate (pairs.map pairText)) labels = true ↔ ∀ pair ∈ pairs, labels.lookup pair.1 = some pair.2)

/-- The second part of `detailCommand` asks for the pods in the namespace of a workload that have all of the labels it
matches. -/
def PodsAsked (selects : String → List (String × String) → Bool) (kind : KubeKind) (item : Item) : Prop :=
  ∀ ns (pairs : List (String × String)), kind.ownsPods = true → namespaceOf item = some (some ns) →
    field item "spec.selector" = .map [("matchLabels", .map (pairs.map fun pair => (pair.1, .string pair.2)))] →
    pairs ≠ [] → (∀ pair ∈ pairs, isLabelText pair.1 = true ∧ isLabelText pair.2 = true) →
    ∃ command selector rest, detailCommand kind item = some command ∧
      Shell.lex command = some (
        [.fixed "kubectl", .fixed "get", .fixed kind.type, .value (nameOf item), .fixed "-n", .value ns,
          .fixed "-o", .fixed "json", .sign "&&", .fixed "echo", .value kubeSeparator, .sign "&&",
          .fixed "kubectl", .fixed "get", .fixed "pods", .fixed "-n", .value ns, .fixed "-l", .value selector,
          .fixed "-o", .fixed "json", .sign "&&", .fixed "echo", .value kubeSeparator, .sign "&&"] ++ rest) ∧
      ∀ labels, selects selector labels = true ↔ ∀ pair ∈ pairs, labels.lookup pair.1 = some pair.2

end Portix.Kubernetes
