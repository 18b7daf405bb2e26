import Portix.Kubernetes.KubeLogs
import Portix.Lib.Json

/-!
# Searches of Kibana

`kibana_query.dart`: the command that runs a search on a server.
-/

namespace Portix.Kibana

open Lib

structure KibanaRange where
  fromTime : Int
  toTime : Int
  deriving DecidableEq

/-- The settings of one search. -/
structure KibanaSearch where
  index : String
  query : String
  range : KibanaRange
  timeField : String
  size : Int64
  deriving DecidableEq

def intervals : List Int :=
  [1, 5, 10, 30, 60, 5 * 60, 10 * 60, 30 * 60, 3600, 3 * 3600, 12 * 3600, 86400, 7 * 86400]

/-- `kibanaInterval`, in seconds: the smallest step that makes at most 60 bars. -/
def kibanaInterval (range : KibanaRange) : Int :=
  let span := (range.toTime - range.fromTime).tdiv 1000
  (intervals.find? fun step => span ≤ 60 * (step * 1000)).getD (7 * 86400)

def kibanaIntervalLabel (step : Int) : String :=
  if step / 86400 > 0 then toString (step / 86400) ++ "d"
  else if step / 3600 > 0 then toString (step / 3600) ++ "h"
  else if step / 60 > 0 then toString (step / 60) ++ "m"
  else toString step ++ "s"

def base (url : String) : String :=
  String.ofList ((dartTrim url).toList.reverse.dropWhile (· = '/')).reverse

def searchIndex (index : String) : String := if dartTrim index = "" then "*" else dartTrim index

def searchBody (search : KibanaSearch) : Json :=
  .map [("size", .int search.size),
    ("track_total_hits", .bool true),
    ("sort", .list [.map [(search.timeField,
      .map [("order", .string "desc"), ("unmapped_type", .string "date")])]]),
    ("query", .map [("bool", .map [
      ("must", .list [
        if dartTrim search.query = "" then .map [("match_all", .map [])]
        else .map [("query_string", .map [("query", .string (dartTrim search.query))])]]),
      ("filter", .list [.map [("range", .map [(search.timeField, .map [
        ("gte", .string (DateTime.toIso8601String search.range.fromTime)),
        ("lte", .string (DateTime.toIso8601String search.range.toTime)),
        ("format", .string "strict_date_optional_time")])])]])])]),
    ("aggs", .map [("histogram", .map [("date_histogram", .map [
      ("field", .string search.timeField),
      ("fixed_interval", .string (kibanaIntervalLabel (kibanaInterval search.range))),
      ("min_doc_count", .int 0),
      ("extended_bounds", .map [
        ("min", .int (Int64.ofInt (DateTime.millisecondsSinceEpoch search.range.fromTime))),
        ("max", .int (Int64.ofInt (DateTime.millisecondsSinceEpoch search.range.toTime)))])])])])]

def kibanaSearchBody (search : KibanaSearch) : String := Json.encode Json.compact (searchBody search)

def kibanaSearchCommand (baseUrl : String) (search : KibanaSearch) : String :=
  let url := base baseUrl ++ "/" ++ searchIndex search.index ++ "/_search"
  "curl -sS --netrc-optional -X POST -H 'Content-Type: application/json' " ++
    Kubernetes.shellQuote url ++ " -d " ++ Kubernetes.shellQuote (kibanaSearchBody search)

/-- What `toString` gives for the value of a filter, or for each item of one that is a list. -/
inductive ValueText where
  | one (text : String)
  | many (texts : List String)

/-- A filter: the field is (or is not) the value, or one of the values; no value is a field that does not
exist. -/
structure KibanaFilter (ν : Type) where
  field : String
  value : Option ν
  exclude : Bool
  label : Option String
  deriving DecidableEq

def luceneSpecial : List Char :=
  ['+', '-', '=', '&', '|', '>', '<', '!', '(', ')', '\x7b', '\x7d', '[', ']', '^', '"', '~', '*', '?', ':',
    '\\', '/', ' ']

def quotedValue (text : String) : String :=
  "\"" ++ replaceChar '"' "\\\"" (replaceChar '\\' "\\\\" text) ++ "\""

def kibanaClause {ν : Type} (valueText : ν → ValueText) (filter : KibanaFilter ν) : String :=
  let field := String.ofList (filter.field.toList.flatMap fun c => if c ∈ luceneSpecial then ['\\', c] else [c])
  match filter.value with
  | none => if filter.exclude then "_exists_:" ++ field else "NOT _exists_:" ++ field
  | some value =>
    let text := match valueText value with
      | .many texts => "(" ++ " OR ".intercalate (texts.map quotedValue) ++ ")"
      | .one text => quotedValue text
    (if filter.exclude then "NOT " else "") ++ field ++ ":" ++ text

def kibanaQueryWith {ν : Type} (valueText : ν → ValueText) (query : String) (filters : List (KibanaFilter ν)) :
    String :=
  let parts := (if dartTrim query = "" then [] else [dartTrim query]) ++ filters.map (kibanaClause valueText)
  " AND ".intercalate (parts.map fun part => if filters.isEmpty then part else "(" ++ part ++ ")")

structure KibanaAuth where
  apiKey : Bool
  user : String
  secret : String
  deriving DecidableEq

structure KibanaLogin where
  name : String
  url : String
  auth : Option KibanaAuth
  deriving DecidableEq

end Portix.Kibana
