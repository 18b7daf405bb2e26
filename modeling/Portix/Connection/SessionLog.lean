import Portix.Lib.Removal
import Portix.Connection.ConnectionManager

/-!
# Session logs

`stripTerminalEscapes` of `connection_manager.dart`, and what `_handleTerminalOutput` writes to the logs of sessions.
-/

namespace Portix.Connection

open Lib Regex

def esc : Char := '\x1b'

def bel : Char := '\x07'

def isOscChar (c : Char) : Bool := c != bel && c != esc

def isParameter (c : Char) : Bool := decide ('0' ≤ c ∧ c ≤ '?')

def isIntermediate (c : Char) : Bool := decide (' ' ≤ c ∧ c ≤ '/')

def isFinal (c : Char) : Bool := decide ('@' ≤ c ∧ c ≤ '~')

def isTwoByte (c : Char) : Bool := decide ('@' ≤ c ∧ c ≤ '_') || c == '=' || c == '>' || c == '7' || c == '8'

def osc : Regex :=
  seqs [lit esc, lit ']', star isOscChar, alt (lit bel) (seqs [lit esc, lit '\\'])]

def csi : Regex := seqs [lit esc, lit '[', star isParameter, star isIntermediate, one isFinal]

def charset : Regex := seqs [lit esc, one (fun c => c == '(' || c == ')'), one Char.isAlphanum]

def twoByte : Regex := seqs [lit esc, one isTwoByte]

def terminalEscape : Regex := alt osc (alt csi (alt charset twoByte))

def stripTerminalEscapes (data : String) : String :=
  String.ofList ((removeAll terminalEscape data.toList).filter (· ≠ '\r'))

example : stripTerminalEscapes "\x1b]0;title\x07\x1b[1;32mok\x1b[0m\r\n\x1b(Bdone\x1b=" = "ok\ndone" := by
  decide +kernel

structure TerminalOutputEvent where
  sessionId : String
  data : String

namespace ConnectionManager

variable (m : ConnectionManager)

def logOf (event : TerminalOutputEvent) : Option String :=
  m.recordings ((m.uiSessionId event.sessionId).getD event.sessionId)

/-- What `_handleTerminalOutput` writes: to the end of the log, if there is one. -/
def handleTerminalOutput (logs : String → String) (event : TerminalOutputEvent) :
    String → String :=
  match m.logOf event with
  | none => logs
  | some path => Function.update logs path (logs path ++ stripTerminalEscapes event.data)

def handleOutputs (logs : String → String) (events : List TerminalOutputEvent) :
    String → String := events.foldl m.handleTerminalOutput logs

def chunksOf (path : String) (events : List TerminalOutputEvent) : List String :=
  (events.filter fun event => m.logOf event = some path).map TerminalOutputEvent.data

end ConnectionManager

/-- The search splits a text into sequences and what is outside of them. -/
inductive Pieces : List Char → List (List Char × Bool) → Prop where
  | done : Pieces [] []
  | outside {c : Char} {cs : List Char} {pieces : List (List Char × Bool)}
      (hnone : ∀ part rest captures, c :: cs = part ++ rest → ¬Matches terminalEscape part captures)
      (hrest : Pieces cs pieces) : Pieces (c :: cs) (([c], false) :: pieces)
  | sequence {part rest : List Char} {pieces : List (List Char × Bool)}
      (hfirst : firstMatch terminalEscape (part ++ rest) = some rest)
      (hrest : Pieces rest pieces) : Pieces (part ++ rest) ((part, true) :: pieces)

def outside (pieces : List (List Char × Bool)) : List Char :=
  (pieces.filter fun piece => !piece.2).flatMap Prod.fst

/-- The text between `x` and `y` is cut in the escape sequence that `m`, the end of `x`, and `m'`, the start of `y`,
make. -/
def CutsSequence (x y m m' : List Char) : Prop :=
  ∃ p q, x = p ++ m ∧ y = m' ++ q ∧ m ≠ [] ∧ m' ≠ [] ∧ Scans terminalEscape (x ++ y) (m ++ y) ∧
    found terminalEscape (m ++ y) = some q

/-- An operating system command with nothing but carriage returns in it is cut after its start and before its end, both
of which are escape sequences too. -/
def Harmless (m m' : List Char) : Prop :=
  ∃ a b, m = esc :: ']' :: List.replicate a '\r' ∧ m' = List.replicate b '\r' ++ [esc, '\\']

/-- Between `x` and `y` no escape sequence is cut, or harmlessly. -/
def Safe (x y : List Char) : Prop := ∀ m m', CutsSequence x y m m' → Harmless m m'

/-- The pieces of an output are cut in no escape sequence of the whole, or harmlessly. -/
def SafelyCut (chunks : List (List Char)) : Prop :=
  ∀ before after, chunks = before ++ after → Safe before.flatten after.flatten

end Portix.Connection
