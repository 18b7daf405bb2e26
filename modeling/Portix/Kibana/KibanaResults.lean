import Mathlib.Data.List.Dedup
import Mathlib.Data.List.Lex
import Mathlib.Data.List.Sort
import Portix.Lib.DateTime
import Portix.Lib.Entries
import Portix.Lib.Json

/-!
# Answers of Kibana

`kibana_query.dart`: what is read from the answers of Kibana and Elasticsearch, and the fields of the
documents found.
-/

namespace Portix.Kibana

open Lib

inductive KibanaFailure where
  | format (message : String)
  | other

structure KibanaHit where
  time : String
  source : JsonMap

structure KibanaBucket where
  start : Int
  count : Int64

structure KibanaResult where
  total : Int64
  tookMs : Int64
  hits : List KibanaHit
  buckets : List KibanaBucket

section Reading

variable (readDouble : String → String)

def mapOr : Json → Option JsonMap
  | .null => some []
  | .map entries => some entries
  | _ => none

def intOr : Json → Option Int64
  | .null => some 0
  | .int value => some value
  | _ => none

def orElse (value other : Json) : Json :=
  match value with
  | .null => other
  | _ => value

def decodeAnswer (output : String) : Except KibanaFailure JsonMap :=
  match Json.decode readDouble output with
  | none => .error (.format (if dartTrim output = "" then "No response" else dartTrim output))
  | some (.map json) =>
    let error := Json.get json "error"
    let refused : Option String := match Json.get json "statusCode" with
      | .int code => if 400 ≤ code then
          some (error.toText ++ ": " ++ (orElse (Json.get json "message") (.int code)).toText)
        else none
      | _ => none
    match refused, error with
    | some message, _ => .error (.format message)
    | none, .null => .ok json
    | none, .map reasons =>
      .error (.format (orElse (Json.get reasons "reason") (Json.get reasons "type")).toText)
    | none, error => .error (.format error.toText)
  | some _ => .error (.format "No hits")

/-- The documents of a list of hits: each has to be a map, and counts if its source is one. -/
def readHits (timeField : String) : List Json → Option (List KibanaHit)
  | [] => some []
  | .map hit :: rest => (readHits timeField rest).map fun hits => match Json.get hit "_source" with
    | .map source => ⟨(orElse (Json.get source timeField) (.string "")).toText, source⟩ :: hits
    | _ => hits
  | _ :: _ => none

def maxMilliseconds : Int := 8640000000000000

def readBuckets : List Json → Option (List KibanaBucket)
  | [] => some []
  | .map bucket :: rest => match Json.get bucket "key", intOr (Json.get bucket "doc_count") with
    | .int key, some count =>
      if key.toInt.natAbs ≤ maxMilliseconds.natAbs then
        (readBuckets rest).map fun buckets => ⟨key.toInt * 1000, count⟩ :: buckets
      else none
    | _, _ => none
  | _ :: _ => none

/-- The total: Elasticsearch 7 sends `{value, relation}`, 6 a bare number. -/
def readTotal (total : Json) (hits : List KibanaHit) : Int64 :=
  match total with
  | .int value => value
  | .map entries => match Json.get entries "value" with
    | .int value => value
    | _ => Int64.ofInt hits.length
  | _ => Int64.ofInt hits.length

def parseKibanaHits (timeField output : String) : Except KibanaFailure KibanaResult := do
  let json ← decodeAnswer readDouble output
  let read : Option KibanaResult := do
    let outer ← mapOr (Json.get json "hits")
    let hits ← readHits timeField (← (Json.get outer "hits").asList?)
    let aggregations ← mapOr (Json.get json "aggregations")
    let histogram ← mapOr (Json.get aggregations "histogram")
    let buckets ← readBuckets (← (Json.get histogram "buckets").asList?)
    let tookMs ← intOr (Json.get json "took")
    return { total := readTotal (Json.get outer "total") hits, tookMs, hits, buckets }
  read.elim (.error .other) .ok

/-- A data view: what the picker shows, and the index pattern that it searches. -/
structure KibanaDataView where
  id : String
  name : String
  pattern : String

def readDataViews : List Json → Option (List KibanaDataView)
  | [] => some []
  | .map view :: rest => (readDataViews rest).map fun views =>
    ⟨(Json.get view "id").toText, (orElse (Json.get view "name") (Json.get view "title")).toText,
      (Json.get view "title").toText⟩ :: views
  | _ :: _ => none

def parseDataViews (output : String) : Except KibanaFailure (List KibanaDataView) := do
  let json ← decodeAnswer readDouble output
  ((Json.get json "data_view").asList?.bind readDataViews).elim (.error .other) .ok

def parseTimeField (output : String) : Except KibanaFailure (Option String) := do
  let json ← decodeAnswer readDouble output
  ((mapOr (Json.get json "data_view")).bind fun view => (Json.get view "timeFieldName").asString?).elim
    (.error .other) .ok

end Reading

def sortEntries {α : Type} (entries : List (String × α)) : List (String × α) :=
  entries.insertionSort fun a b => units a.1 ≤ units b.1

mutual

/-- The body of the loop of `walk`: a map is walked, anything else is a field. -/
def walkValue (fields : JsonMap) (path : String) : Json → JsonMap
  | .map entries => walk fields (path ++ ".") entries
  | value => Json.set path value fields

def walk (fields : JsonMap) (path : String) : JsonMap → JsonMap
  | [] => fields
  | (key, value) :: rest => walk (walkValue fields (path ++ key) value) path rest

end

variable (source : JsonMap)

def flattenSource : JsonMap := sortEntries (walk [] "" source)

def kibanaFields (hits : List KibanaHit) : List (String × Nat) :=
  sortEntries (hits.foldl (fun counts hit =>
    (flattenSource hit.source).foldl (fun counts field =>
      putEntry field.1 (fun old => old.getD 0 + 1) counts) counts) [])

def sample (samples : JsonMap) (field : String × Json) : JsonMap :=
  match Json.get samples field.1 with
  | .null => Json.set field.1 field.2 samples
  | _ => samples

def samplesOf (hits : List KibanaHit) : JsonMap :=
  hits.foldl (fun samples hit => (flattenSource hit.source).foldl sample samples) []

example : (kibanaFields [⟨"", [("b", .map [("c", .null)]), ("a", .bool true)]⟩, ⟨"", [("a", .null)]⟩]) =
    [("a", 2), ("b.c", 1)] := by decide

-- `kibanaTopValues` of `kibana_query.dart`, and what the fields of a document are

open Lib Json

structure ValueCount where
  value : Json
  count : Nat

/-- A sort by `b.count - a.count`; what it does with equal counts is left open. -/
structure CountSort where
  sort : List ValueCount → List ValueCount
  perm : ∀ values, (sort values).Perm values
  sorted : ∀ values, (sort values).Pairwise fun a b => b.count ≤ a.count

/-- One round of the loop over the documents: `none` is what `jsonEncode` throws. -/
def countValue (field : String) (counts : List (String × ValueCount)) (hit : KibanaHit) :
    Option (List (String × ValueCount)) :=
  match (flattenSource hit.source).lookup field with
  | none => some counts
  | some value => (jsonEncode value).map fun key =>
    putEntry key (fun old => ⟨value, old.elim 0 ValueCount.count + 1⟩) counts

def kibanaTopValues (order : CountSort) (hits : List KibanaHit) (field : String) (n : Nat) : Option (List ValueCount) :=
  (hits.foldlM (countValue field) []).map fun counts => (order.sort (counts.map Prod.snd)).take n

mutual

/-- The paths from `path` on to the values that are no maps, with these. -/
def valueLeaves (path : List String) : Json → List (List String × Json)
  | .map entries => entryLeaves path entries
  | value => [(path, value)]

def entryLeaves (path : List String) : JsonMap → List (List String × Json)
  | [] => []
  | (key, value) :: rest => valueLeaves (path ++ [key]) value ++ entryLeaves path rest

end

def leafPaths : List (List String × Json) := entryLeaves [] source

def dotted (path : List String) : String := ".".intercalate path

def lastNamed (name : String) : Option Json :=
  ((leafPaths source).filter fun leaf => dotted leaf.1 = name).getLast?.map Prod.snd

/-- The document has the field. -/
def HasField (field : String) (hit : KibanaHit) : Prop := field ∈ (flattenSource hit.source).map Prod.fst

instance (field : String) (hit : KibanaHit) : Decidable (HasField field hit) := inferInstanceAs (Decidable (_ ∈ _))

def fieldValues (hits : List KibanaHit) (field : String) : List Json :=
  hits.filterMap fun hit => (flattenSource hit.source).lookup field

open Classical in
noncomputable def differentValues (hits : List KibanaHit) (field : String) : Nat :=
    (fieldValues hits field).dedup.length

open Classical in
noncomputable def holders (hits : List KibanaHit) (field : String) (value : Json) : Nat :=
  hits.countP fun hit => (flattenSource hit.source).lookup field = some value

/-- The fields are those of the source, each with its value, sorted by name. Paths with the same dotted name share a
field, which has the value of the last one; where there are none, no path is left out. -/
structure FlattensSource (source fields : JsonMap) : Prop where
  sorted : fields.Pairwise fun a b => units a.1 ≤ units b.1
  names_distinct : (fields.map Prod.fst).Nodup
  entries : ∀ name value, (name, value) ∈ fields ↔ lastNamed source name = some value
  whole : ((leafPaths source).map fun leaf => dotted leaf.1).Nodup →
    fields.length = (leafPaths source).length ∧ ∀ path value, (path, value) ∈ leafPaths source →
      (dotted path, value) ∈ fields

/-- The fields of the documents, each with the number of those that have it, sorted by name. -/
structure CountsFields (hits : List KibanaHit) (counts : List (String × Nat)) : Prop where
  sorted : counts.Pairwise fun a b => units a.1 ≤ units b.1
  names_distinct : (counts.map Prod.fst).Nodup
  entries : ∀ field n, (field, n) ∈ counts ↔ n = hits.countP (fun hit => HasField field hit) ∧ 0 < n

/-- Some values of a field with the numbers of documents that hold them, the most common first. -/
structure CountsValues (hits : List KibanaHit) (field : String) (values : List ValueCount) : Prop where
  correct : ∀ v ∈ values, v.count = holders hits field v.value
  descending : values.Pairwise fun a b => b.count ≤ a.count
  values_distinct : (values.map ValueCount.value).Nodup

end Portix.Kibana
