import Portix.Lib.Occurrences

/-!
# Find in terminal

`terminal_search_controller.dart`. Texts are lists of characters; what a character is in lower case, as the code units
that `indexOf` counts, is a parameter.
-/

namespace Portix.Terminal

open Lib

/-- A cell of a line: no character is wider than two columns, and a cell behind a wide one is empty. -/
structure Cell where
  codePoint : Nat
  width : Nat
  width_le : width ≤ 2

def getText (line : List Cell) (start stop : Nat) : List Nat :=
  (((line.zipIdx.take stop).drop start).filter fun (cell, i) =>
    cell.codePoint ≠ 0 ∧ i + cell.width ≤ min stop line.length).map fun (cell, _) => cell.codePoint

def lowerText (lower : Nat → List Nat) (text : List Nat) : List Nat := text.flatMap lower

def searchedText (lower : Nat → List Nat) (line : List Cell) : List Nat :=
  lowerText lower (getText line 0 line.length)

/-- A match: its line, and where in it. -/
structure TerminalMatch where
  line : Nat
  start : Nat
  stop : Nat
  deriving DecidableEq

def maxTerminalMatches : Nat := 1000

/-- The loop over one line; it ends the search when there are enough matches. A round that finds a match goes on behind
it, so the rounds are no more than the text is long. -/
def findInLine (needle text : List Nat) (line : Nat) :
    Nat → Nat → List TerminalMatch → Except (List TerminalMatch) (List TerminalMatch)
  | 0, _, found => .ok found
  | rounds + 1, start, found =>
    match indexOf text needle start with
    | none => .ok found
    | some i =>
      if maxTerminalMatches ≤ found.length + 1 then .error (found ++ [⟨line, i, i + needle.length⟩])
      else findInLine needle text line rounds (i + needle.length) (found ++ [⟨line, i, i + needle.length⟩])

def findInLines (needle : List Nat) :
    List (List Nat) → Nat → List TerminalMatch → Except (List TerminalMatch) (List TerminalMatch)
  | [], _, found => .ok found
  | text :: texts, line, found =>
    match findInLine needle text line (text.length + 1) 0 found with
    | .error enough => .error enough
    | .ok found => findInLines needle texts (line + 1) found

def findInTerminal (lower : Nat → List Nat) (buffer : List (List Cell)) (query : List Nat) : List TerminalMatch :=
  if lowerText lower query = [] then []
  else
    match findInLines (lowerText lower query) (buffer.map (searchedText lower)) 0 [] with
    | .error enough => enough
    | .ok found => found

/-- The query, its matches, and the current one. -/
structure TerminalSearchController where
  query : List Nat := []
  found : List TerminalMatch := []
  current : Int := -1
  highlights : List (TerminalMatch × Bool) := []
  revealed : List Nat := []

namespace TerminalSearchController

def currentMatch (c : TerminalSearchController) : Option TerminalMatch :=
  if 0 ≤ c.current then c.found[c.current.toNat]? else none

/-- `_show`. A line that the buffer has no more throws: the highlights made so far stay, and nothing is revealed. -/
def showMatches (c : TerminalSearchController) (buffer : List (List Cell)) : TerminalSearchController :=
  { c with
    highlights := (c.found.zipIdx.takeWhile fun (found, _) => found.line < buffer.length).map
      fun (found, i) => (found, (i : Int) = c.current)
    revealed :=
      if c.found.all fun found => found.line < buffer.length then
        c.revealed ++ (c.currentMatch.map TerminalMatch.line).toList
      else c.revealed }

variable (lower : Nat → List Nat)

def search (c : TerminalSearchController) (buffer : List (List Cell)) (query : List Nat) : TerminalSearchController :=
  showMatches { c with
    query
    found := findInTerminal lower buffer query
    current := (findInTerminal lower buffer query).length - 1 } buffer

def step (c : TerminalSearchController) (buffer : List (List Cell)) (delta : Int) : TerminalSearchController :=
  if c.found.isEmpty then c.search lower buffer c.query
  else showMatches { c with current := (c.current + delta) % c.found.length } buffer

def next (c : TerminalSearchController) (buffer : List (List Cell)) : TerminalSearchController := c.step lower buffer 1

def previous (c : TerminalSearchController) (buffer : List (List Cell)) : TerminalSearchController :=
  c.step lower buffer (-1)

def move (c : TerminalSearchController) (buffer : List (List Cell)) (forward : Bool) : TerminalSearchController :=
  if forward then c.next lower buffer else c.previous lower buffer

/-- Buttons clicked one after the other, each with the buffer at that time. -/
def run (c : TerminalSearchController) (moves : List (List (List Cell) × Bool)) : TerminalSearchController :=
  moves.foldl (fun c (buffer, forward) => c.move lower buffer forward) c

end TerminalSearchController

/-- The occurrences in the lines from one on, without overlaps, each line from left to right. -/
inductive Occurrences (needle : List Nat) : List (List Nat) → Nat → List TerminalMatch → Prop where
  | nil {line : Nat} : Occurrences needle [] line []
  | cons {text : List Nat} {texts : List (List Nat)} {line : Nat} {places : List Nat} {rest : List TerminalMatch}
      (scan : Scan text needle 0 places) (below : Occurrences needle texts (line + 1) rest) :
      Occurrences needle (text :: texts) line (places.map (fun i => ⟨line, i, i + needle.length⟩) ++ rest)

/-- One match is above or to the left of another. -/
def TerminalMatch.Before (a b : TerminalMatch) : Prop := a.line < b.line ∨ a.line = b.line ∧ a.start < b.start

/-- A column at which a character of the line begins, or none is. -/
def Whole (cells : List Cell) (column : Nat) : Prop :=
  ∀ i cell, cells[i]? = some cell → cell.codePoint ≠ 0 → i < column → i + cell.width ≤ column

/-- The match is at its columns: what is on the line before them is what comes before the occurrence, and what is in
them reads as the query. -/
structure AtColumns (lower : Nat → List Nat) (needle : List Nat) (line : List Cell) (found : TerminalMatch) : Prop where
  whole : Whole line found.start
  before : lowerText lower (getText line 0 found.start) = (searchedText lower line).take found.start
  within : lowerText lower (getText line found.start found.stop) = needle

/-- The line has one code unit for each column before the match, and for each column of it. -/
structure Aligned (lower : Nat → List Nat) (line : List Cell) (found : TerminalMatch) : Prop where
  whole : Whole line found.start
  before : (lowerText lower (getText line 0 found.start)).length = found.start
  within : (lowerText lower (getText line found.start found.stop)).length = found.stop - found.start

/-- A search has found its matches: the current one is the bottom-most of all occurrences. -/
structure Found (lower : Nat → List Nat) (buffer : List (List Cell)) (query : List Nat) (all : List TerminalMatch)
    (c : TerminalSearchController) : Prop where
  current : c.currentMatch = all.getLast?
  columns : ∀ found ∈ c.found, ∀ line, buffer[found.line]? = some line →
    AtColumns lower (lowerText lower query) line found
  ordered : c.found.Pairwise TerminalMatch.Before
  capped : c.found.length ≤ maxTerminalMatches
  complete : all.length ≤ maxTerminalMatches → c.found = all
  cyclic : c.found ≠ [] → ∀ moves, (c.run lower moves).found = c.found ∧
    (c.run lower moves).current = (c.current + moves.countP (·.2) - moves.countP (!·.2)) % c.found.length
  inverse : c.found ≠ [] → ∀ moves there back forward,
    (((c.run lower moves).move lower there forward).move lower back !forward).current = (c.run lower moves).current

end Portix.Terminal
