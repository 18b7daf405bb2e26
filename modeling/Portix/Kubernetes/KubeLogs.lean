import Mathlib.Data.Int.ConditionallyCompleteOrder
import Mathlib.Data.List.Sort
import Portix.Lib.DateTime
import Portix.Lib.Pattern
import Portix.Lib.Settings

/-!
# Logs of pods

The commands of `kube_logs.dart` that read the logs of pods, and the lines that are made of their output.
-/

namespace Portix.Kubernetes

open Lib

def shellQuote (value : String) : String := "'" ++ replaceChar '\'' "'\\''" value ++ "'"

def rfc3339 (time : Int) : String :=
  String.ofList (((DateTime.toIso8601String time).toList.takeWhile (· ≠ '.')).filter (· ≠ 'Z')) ++ "Z"

inductive WorkloadKind where
  | deployment
  | statefulSet
  | other
  deriving DecidableEq

/-- What a pod belongs to. -/
structure Workload where
  name : String
  kind : WorkloadKind
  deriving DecidableEq

def WorkloadKind.suffix : WorkloadKind → String
  | .deployment => "-[a-z0-9]\x7b6,10\x7d-[a-z0-9]\x7b5\x7d"
  | .statefulSet => "-[0-9]+"
  | .other => "-[a-z0-9]\x7b5\x7d"

def workloadPattern (workload : Workload) : String :=
  replaceChar '.' "\\." workload.name ++ workload.kind.suffix

/-- The part of the arguments that says from when on: since a time, or for a duration. -/
def sinceArg : Option Int → Option Int → Option String
  | some sinceTime, _ => some ("--since-time=" ++ rfc3339 sinceTime)
  | none, some since => some ("--since=" ++ toString (since.tdiv DateTime.microsecondsPerSecond) ++ "s")
  | none, none => none

/-- `kubeLogsCommand`: the logs of a pod, or of every pod of a namespace, maybe of a workload. -/
def kubeLogsCommand (namespaceName : String) (pod : Option String) (workload : Option Workload)
    (since sinceTime : Option Int) : String :=
  let ns := shellQuote namespaceName
  let args := " ".intercalate (["--all-containers", "--timestamps"] ++ (sinceArg sinceTime since).toList)
  match pod with
  | some pod => "kubectl logs -n " ++ ns ++ " " ++ shellQuote pod ++ " " ++ args ++ " 2>&1"
  | none =>
    let list := match workload with
      | none => "$pods"
      | some workload => "$(printf '%s\\n' $pods | grep -E " ++
          shellQuote ("^pod/" ++ workloadPattern workload ++ "$") ++ ")"
    "pods=$(kubectl get pods -n " ++ ns ++ " -o name) || exit 1; " ++
      "for p in " ++ list ++ "; do kubectl logs -n " ++ ns ++ " \"$p\" " ++ args ++ " 2>&1 || true; done"

def columns (line : String) : List String :=
  ((dartTrim line).toList.splitOnP isRegExpSpace).filterMap fun column =>
    if column = [] then none else some (String.ofList column)

def parseNamespaces (output : String) : List String :=
  (splitChar '\n' output).filterMap fun line => match columns line with
    | [name, _, _] => some name
    | _ => none

def isReadyColumn (column : String) : Bool :=
  match column.toList.splitOn '/' with
  | [ready, wanted] => ready ≠ [] && wanted ≠ [] && ready.all Char.isDigit && wanted.all Char.isDigit
  | _ => false

def parsePods (output : String) : List String :=
  (splitChar '\n' output).filterMap fun line => match columns line with
    | name :: ready :: _ :: _ :: _ :: _ => if isReadyColumn ready then some name else none
    | _ => none

/-- A line of a log, with kubectl's own time if it has one. Where it was read from is not in the source:
nothing depends on it. -/
structure LogLine (ι : Type) where
  time : Option Int
  text : String
  origin : ι
  deriving DecidableEq

section Lines

variable {ι : Type}

def readLines (tryParse : String → Option Int) (origin : ι) : Option Int → List String → List (LogLine ι)
  | _, [] => []
  | previous, raw :: rest =>
    if raw = "" then readLines tryParse origin previous rest
    else
      match (splitFirst ' ' raw).bind fun (stamp, text) =>
          if stamp = "" then none else (tryParse stamp).map fun time => (time, text) with
      | some (time, text) => ⟨some time, text, origin⟩ :: readLines tryParse origin (some time) rest
      | none => ⟨previous, raw, origin⟩ :: readLines tryParse origin previous rest

def lineLe (a b : LogLine ι × Nat) : Bool :=
  match a.1.time, b.1.time with
  | some s, some t => decide (s < t) || (decide (s = t) && decide (a.2 ≤ b.2))
  | _, _ => decide (a.2 ≤ b.2)

def parseLogLines (tryParse : String → Option Int) (origin : ι) (output : String) : List (LogLine ι) :=
  ((readLines tryParse origin none (splitChar '\n' output)).zipIdx.mergeSort lineLe).map Prod.fst

def lastStamp (lines : List (LogLine ι)) : Option Int :=
  (lines.reverse.find? fun line => line.time.isSome).bind LogLine.time

def lineKey (line : LogLine ι) : String :=
  (match line.time with
    | some time => toString time
    | none => "null") ++ "|" ++ line.text

/-- The whole second of a time that `appendNewLines` starts from: towards 1970. -/
def boundarySecond (time : Int) : Int := (DateTime.millisecondsSinceEpoch time).tdiv 1000 * 1000 * 1000

def seenKeys (existing : List (LogLine ι)) (boundary : Option Int) : List String :=
  existing.filterMap fun line => match boundary, line.time with
    | some boundary, some time => if boundary ≤ time then some (lineKey line) else none
    | _, _ => none

def unseenLines : List String → List (LogLine ι) → List (LogLine ι)
  | _, [] => []
  | seen, line :: rest =>
    if lineKey line ∈ seen then unseenLines seen rest
    else line :: unseenLines (lineKey line :: seen) rest

def isKept (keepFrom : Option Int) (line : LogLine ι) : Bool :=
  match keepFrom, line.time with
  | some keepFrom, some time => decide (keepFrom ≤ time)
  | _, _ => true

def appendNewLines (existing fetched : List (LogLine ι)) (keepFrom : Option Int) : List (LogLine ι) :=
  existing.filter (isKept keepFrom) ++
    unseenLines (seenKeys existing ((lastStamp existing).map boundarySecond)) fetched

def filterLogLines (lines : List (LogLine ι)) (upTo : Option Int) : List (LogLine ι) :=
  lines.filter fun line => match upTo, line.time with
    | some upTo, some time => decide (time ≤ upTo)
    | _, _ => true

end Lines

-- how the controller of a pod is read from its name, and which pods of a list `grep -E` selects for a workload

def isRegExpDot (c : Char) : Bool := c ∉ ['\n', '\r', Char.ofNat 0x2028, Char.ofNat 0x2029]

def firstGroup (pattern text : String) : Option String :=
  ((groupPieces isRegExpDot pattern.toList).bind fun pieces => captureFirst pieces text.toList).map String.ofList

def workloadOf (pod : String) : Option Workload :=
  [WorkloadKind.deployment, .statefulSet, .other].findSome? fun kind =>
    (firstGroup ("^(.+)" ++ kind.suffix ++ "$") pod).map fun name => ⟨name, kind⟩

def grepSelects (pattern line : String) : Bool :=
  (patternPieces (fun _ => true) pattern.toList).any fun pieces => matchesAll pieces line.toList

def podsPattern (workload : Workload) : String := "^pod/" ++ workloadPattern workload ++ "$"

def isNameChar (c : Char) : Bool := c.isLower || c.isDigit || c = '-' || c = '.'

example : workloadOf "transport-core-75f95b665f-5zzfm" = some ⟨"transport-core", .deployment⟩ ∧
    workloadOf "postgres-0" = some ⟨"postgres", .statefulSet⟩ ∧
    workloadOf "fluentd-x7k2p" = some ⟨"fluentd", .other⟩ ∧ workloadOf "standalone" = none := by decide

section Lines

variable {ι : Type} {tryParse : String → Option Int} {origin : ι} {line : LogLine ι}
  {existing fetched : List (LogLine ι)}

theorem origin_of_mem_readLines {previous : Option Int} {raws : List String}
    (h : line ∈ readLines tryParse origin previous raws) : line.origin = origin := by
  induction raws generalizing previous with
  | nil => cases h
  | cons raw rest ih =>
    unfold readLines at h
    split at h
    · exact ih h
    · split at h
      · rcases List.mem_cons.mp h with rfl | h
        · rfl
        · exact ih h
      · rcases List.mem_cons.mp h with rfl | h
        · rfl
        · exact ih h

theorem parseLogLines_perm (tryParse : String → Option Int) (origin : ι) (output : String) :
    (parseLogLines tryParse origin output).Perm (readLines tryParse origin none (splitChar '\n' output)) := by
  unfold parseLogLines
  have hsorted := ((readLines tryParse origin none (splitChar '\n' output)).zipIdx.mergeSort_perm lineLe).map Prod.fst
  rwa [List.zipIdx_map_fst] at hsorted

theorem origin_of_mem_parseLogLines {output : String} (h : line ∈ parseLogLines tryParse origin output) :
    line.origin = origin :=
  origin_of_mem_readLines ((parseLogLines_perm tryParse origin output).mem_iff.mp h)

theorem unseenLines_sublist (seen : List String) (lines : List (LogLine ι)) :
    (unseenLines seen lines).Sublist lines := by
  induction lines generalizing seen with
  | nil => exact List.Sublist.refl _
  | cons line rest ih =>
    unfold unseenLines
    split
    · exact (ih seen).cons line
    · exact (ih _).cons_cons line

theorem mem_of_mem_appendNewLines {keepFrom : Option Int} (h : line ∈ appendNewLines existing fetched keepFrom) :
    line ∈ existing ∨ line ∈ fetched := by
  rcases List.mem_append.mp h with h | h
  · exact Or.inl (List.mem_filter.mp h).1
  · exact Or.inr ((unseenLines_sublist _ _).subset h)

end Lines

end Portix.Kubernetes
