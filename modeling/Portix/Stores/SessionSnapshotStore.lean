import Mathlib.Data.List.SplitBy
import Mathlib.Data.Multiset.Filter
import Portix.Lib.Json
import Portix.Lib.Persist
import Portix.Lib.Update

/-!
# Snapshots of sessions

`SessionSnapshotStore` of `session_snapshot_store.dart`. Creating the file before it is written changes
nothing that is read, as a missing file and an empty one both hold no snapshots.
-/

namespace Portix.Stores

open Lib

/-- Points in time as texts: what is printed is parsed, to a time that is printed alike. -/
structure DateTimes (τ : Type) where
  toIso8601String : τ → String
  parse : String → Option τ
  reparse : ∀ time, ∃ time', parse (toIso8601String time) = some time' ∧
    toIso8601String time' = toIso8601String time

structure SessionSnapshot (τ : Type) where
  id : String
  profileId : String
  title : String
  savedAt : τ
  output : String

section Snapshots

variable {τ : Type} (dates : DateTimes τ)

namespace SessionSnapshot

def toJson (snapshot : SessionSnapshot τ) : JsonMap :=
  [("id", .string snapshot.id),
    ("profileId", .string snapshot.profileId),
    ("title", .string snapshot.title),
    ("savedAt", .string (dates.toIso8601String snapshot.savedAt)),
    ("output", .string snapshot.output)]

def text (json : JsonMap) (key : String) : Option String :=
  (Json.get json key).asString?.join

def fromJson (json : JsonMap) : Option (SessionSnapshot τ) := do
  let id ← text json "id"
  let profileId ← text json "profileId"
  let title ← text json "title"
  let savedAt ← (text json "savedAt").bind dates.parse
  let output ← text json "output"
  some ⟨id, profileId, title, savedAt, output⟩

end SessionSnapshot

/-- `load`: `none` is an exception. `newestFirst` is the sorting of the list. -/
def loadSnapshots (readDouble : String → String)
    (newestFirst : List (SessionSnapshot τ) → List (SessionSnapshot τ)) :
    Option (List UInt8) → Option (List (SessionSnapshot τ))
  | none => some []
  | some bytes => (ofUtf8 bytes).bind fun content =>
    if dartTrim content = "" then some []
    else match Json.decode readDouble content with
      | some (.list items) =>
        (items.mapM fun item : Json => item.asMap?.bind (SessionSnapshot.fromJson dates)).map newestFirst
      | _ => none

variable (snapshots : List (SessionSnapshot τ))

def snapshotsText : String :=
  Json.encode Json.compact (.list (snapshots.map fun snapshot => .map (snapshot.toJson dates)))

def snapshotsBytes : List UInt8 :=
  utf8 (snapshotsText dates snapshots)

inductive SnapshotWrite (τ : Type) where
  | save (snapshot : SessionSnapshot τ)
  | delete (id : String)

namespace SnapshotWrite

def apply : SnapshotWrite τ → List (SessionSnapshot τ) → List (SessionSnapshot τ)
  | .save snapshot, snapshots => snapshot :: snapshots.filter fun s => s.id ≠ snapshot.id
  | .delete id, snapshots => snapshots.filter fun s => s.id ≠ id

def key : SnapshotWrite τ → String
  | .save snapshot => snapshot.id
  | .delete id => id

def value : SnapshotWrite τ → Multiset JsonMap
  | .save snapshot => {snapshot.toJson dates}
  | .delete _ => 0

end SnapshotWrite

def underId (id : String) : Multiset JsonMap :=
  ((snapshots.filter fun snapshot => snapshot.id = id).map (SessionSnapshot.toJson dates) :
    List JsonMap)

end Snapshots

-- `terminalSnapshotText` of `session_snapshot_store.dart`.

def maxSnapshotLines : Nat := 3000

/-- A row of a terminal's buffer: what `getText` gives, and `isWrapped`. -/
structure BufferLine where
  text : String
  isWrapped : Bool

def trimRight (s : String) : String := String.ofList (s.toList.rdropWhile isDartWhitespace)

def addRow (lines : List String) (line : BufferLine) : List String :=
  let text := trimRight line.text
  match lines.getLast? with
  | some last => if line.isWrapped then lines.dropLast ++ [last ++ text] else lines ++ [text]
  | none => lines ++ [text]

/-- The blank lines at the end are dropped, and the last `maxSnapshotLines` of the others kept. -/
def lastLines (lines : List String) : List String :=
  let kept := lines.rdropWhile fun line => line.isEmpty
  kept.drop (if kept.length > maxSnapshotLines then kept.length - maxSnapshotLines else 0)

variable (buffer : List BufferLine)

def terminalSnapshotText : String :=
  "\n".intercalate (lastLines (buffer.foldl addRow []))

def logicalLines : List (List BufferLine) :=
  buffer.splitBy fun _ next => next.isWrapped

variable (rows : List BufferLine)

def written : String := String.join (rows.map BufferLine.text)

/-- A logical line of nothing but blanks. -/
def IsBlank : Prop := trimRight (written rows) = ""

instance (rows : List BufferLine) : Decidable (IsBlank rows) := inferInstanceAs (Decidable (_ = _))

/-- The last `maxSnapshotLines` of the logical lines, the blank ones at the end of the buffer left out. -/
def keptLines : List (List BufferLine) :=
  let kept := (logicalLines buffer).rdropWhile fun rows => IsBlank rows
  kept.drop (kept.length - maxSnapshotLines)

/-- The text that keeps the logical lines, without the blanks at the end of each. -/
def logicalText : String :=
  "\n".intercalate ((keptLines buffer).map fun rows => trimRight (written rows))

/-- No row of the logical line ends with a blank, but for one that has nothing but blanks after it. -/
def BlanksAtEnd : Prop :=
  ∀ before row after, rows = before ++ row :: after → ¬IsBlank after → trimRight row.text = row.text

end Portix.Stores
