import Mathlib.Data.List.Dedup
import Mathlib.Data.List.Sort
import Mathlib.Data.List.SplitBy
import Portix.Lib.Text

/-!
# The preview of a rewritten file

`buildTextDiff` of `core/utils/text_diff.dart`.
-/

namespace Portix.Core

open Lib

/-- The counts of a diff, and its lines with some around each change. -/
structure TextDiffResult where
  added : Nat
  removed : Nat
  lines : List String
  deriving DecidableEq

def binaryDiff : TextDiffResult := ⟨0, 0, ["Binary or non-text diff preview is not available."]⟩

def noDiffText : String := "No textual diff detected."

def gapText : String := "  ···"

def contextSize : Nat := 2

def previewLimit : Nat := 120

section

variable (beforeLines afterLines : List String)

def maxLength : Nat := max beforeLines.length afterLines.length

def changedIndices : List Nat :=
  (List.range (maxLength beforeLines afterLines)).filter fun index => beforeLines[index]? ≠ afterLines[index]?

/-- The values of `offset`, from `-contextSize` to `contextSize`. -/
def offsets : List Int := (List.range (2 * contextSize + 1)).map fun i => (i : Int) - contextSize

def window (changed : Nat) : List Nat :=
  offsets.filterMap fun offset =>
    let idx := (changed : Int) + offset
    if 0 ≤ idx ∧ idx < maxLength beforeLines afterLines then some idx.toNat else none

def visibleIndices : List Nat :=
  ((changedIndices beforeLines afterLines).flatMap (window beforeLines afterLines)).dedup

def sortedIndices : List Nat := (visibleIndices beforeLines afterLines).insertionSort (· ≤ ·)

structure Preview where
  preview : List String := []
  lastIndex : Int := -2
  added : Nat := 0
  removed : Nat := 0

def Preview.add (p : Preview) (line : String) : Preview := { p with preview := p.preview ++ [line] }

def Preview.show (p : Preview) (index : Nat) : Preview :=
  let gapped := if (index : Int) > p.lastIndex + 1 ∧ p.preview ≠ [] then p.add gapText else p
  let placed := { gapped with lastIndex := index }
  let oldLine := beforeLines[index]?
  let newLine := afterLines[index]?
  if oldLine = newLine then placed.add ("  " ++ oldLine.getD "")
  else
    let without := match oldLine with
      | some line => { placed with removed := placed.removed + 1 }.add ("- " ++ line)
      | none => placed
    match newLine with
    | some line => { without with added := without.added + 1 }.add ("+ " ++ line)
    | none => without

def Preview.render (p : Preview) : List Nat → Preview
  | [] => p
  | index :: rest =>
    if previewLimit ≤ p.preview.length then p else (p.show beforeLines afterLines index).render rest

end

def buildTextDiff (before after : Option String) : TextDiffResult :=
  match before, after with
  | some before, some after =>
    let beforeLines := splitChar '\n' before
    let afterLines := splitChar '\n' after
    let p := Preview.render beforeLines afterLines {} (sortedIndices beforeLines afterLines)
    ⟨p.added, p.removed, if p.preview = [] then [noDiffText] else p.preview⟩
  | _, _ => binaryDiff

example : buildTextDiff (some "a\nb\nc\nd\ne\nf\ng\nh") (some "a\nb\nc\nX\ne\nf\ng\nh")
    = ⟨1, 1, ["  b", "  c", "- d", "+ X", "  e", "  f"]⟩ := by decide

section

variable (beforeLines afterLines : List String)

/-- The lines at an index differ; a line that is missing counts as different. -/
def Differs (index : Nat) : Prop := beforeLines[index]? ≠ afterLines[index]?

instance (index : Nat) : Decidable (Differs beforeLines afterLines index) :=
  inferInstanceAs (Decidable (_ ≠ _))

/-- The index is one of a differing line or of one of the two lines on each side of it. -/
def InContext (index : Nat) : Prop := ∃ c < index + 3, index ≤ c + 2 ∧ Differs beforeLines afterLines c

instance (index : Nat) : Decidable (InContext beforeLines afterLines index) :=
  inferInstanceAs (Decidable (∃ c < index + 3, _))

def contextIndices : List Nat :=
  (List.range (maxLength beforeLines afterLines)).filter fun index => InContext beforeLines afterLines index

def rowsAt (index : Nat) : List String :=
  if Differs beforeLines afterLines index then
    beforeLines[index]?.toList.map ("- " ++ ·) ++ afterLines[index]?.toList.map ("+ " ++ ·)
  else beforeLines[index]?.toList.map ("  " ++ ·)

def hunks (indices : List Nat) : List (List Nat) := indices.splitBy fun i j => i + 1 == j

def listing (indices : List Nat) : List String :=
  [gapText].intercalate ((hunks indices).map fun hunk => hunk.flatMap (rowsAt beforeLines afterLines))

/-- The number of lines that the whole listing has for the indices below `index`. -/
def linesAbove (index : Nat) : Nat :=
  (listing beforeLines afterLines ((contextIndices beforeLines afterLines).filter (· < index))).length

/-- The number of lines of `lines` that differ from the line of the other text at the same index. -/
def differingCount (lines : List String) : Nat :=
  (List.range lines.length).countP fun index => Differs beforeLines afterLines index

end

/-- The preview says how a file is rewritten: its counts are those of the lines that differ, it says that there is
no difference just for equal texts, and it is the listing of the lines that differ with two lines of context. One
that is cut, at a line that has too many above it, is the beginning of that listing. -/
structure TellsChange (before after : String) (diff : TextDiffResult) : Prop where
  added : diff.added
    = differingCount (splitChar '\n' before) (splitChar '\n' after) (splitChar '\n' after)
  removed : diff.removed
    = differingCount (splitChar '\n' before) (splitChar '\n' after) (splitChar '\n' before)
  no_diff : diff.lines = [noDiffText] ↔ before = after
  whole : before ≠ after →
    (∀ index ∈ contextIndices (splitChar '\n' before) (splitChar '\n' after),
      linesAbove (splitChar '\n' before) (splitChar '\n' after) index < previewLimit) →
    diff.lines = listing (splitChar '\n' before) (splitChar '\n' after)
      (contextIndices (splitChar '\n' before) (splitChar '\n' after))
  cut : before ≠ after → diff.lines <+: listing (splitChar '\n' before) (splitChar '\n' after)
      (contextIndices (splitChar '\n' before) (splitChar '\n' after))

end Portix.Core
