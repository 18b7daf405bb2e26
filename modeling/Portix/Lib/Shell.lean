import Mathlib.Tactic.Common

/-!
# Words of a POSIX shell

How a shell takes a command line apart into words and operators, one character at a time: quotes,
escapes, parameters, command substitutions, operators and comments. Back quotes, expansions in braces,
arithmetic and here-documents are not read.

A command is put together from fixed texts and values. Its tokens are those of its template, which
are computed without the values, with the values filled in.
-/

namespace Portix.Lib.Shell

/-- A piece of a word. A plain character may still be a pattern or a tilde; a quoted one stands for
itself. -/
inductive Piece where
  | plain (c : Char)
  | quoted (c : Char)
  | param (name : List Char) (inDouble : Bool)
  | slot (index : Nat) (inQuotes : Bool)
  deriving DecidableEq

/-- A command substitution is taken apart too: the word up to it, its own tokens, and the rest of the
word. -/
inductive Token where
  | word (pieces : List Piece)
  | ioNumber (pieces : List Piece)
  | op (text : List Char)
  | openSubst (before : List Piece) (inDouble : Bool)
  | closeSubst
  deriving DecidableEq

namespace Token

variable (text : String)

def fixed : Token := .word (text.toList.map .plain)

def value : Token := .word (text.toList.map .quoted)

def fixedValue (text value : String) : Token :=
  .word (text.toList.map .plain ++ value.toList.map .quoted)

def sign : Token := .op text.toList

def number : Token := .ioNumber (text.toList.map .plain)

def subst (before : String) : Token := .openSubst (before.toList.map .plain) false

def parameter (name : String) (inDouble : Bool) : Token := .word [.param name.toList inDouble]

/-- In a template: a word that is the value at an index, after a fixed text. -/
def slot (index : Nat) : Token := .word (text.toList.map .plain ++ [.slot index true])

/-- In a template: a word that is the value at an index, written as it is. -/
def bareSlot (index : Nat) : Token := .word [.slot index false]

end Token

/-- What the lexer is in the middle of. -/
inductive Mode where
  | plain
  | escape
  | single
  | double
  | doubleEscape
  | dollar (inDouble : Bool)
  | name (text : List Char) (inDouble : Bool)
  | opened
  | op (text : List Char)
  | comment
  | bad
  deriving DecidableEq

structure State where
  mode : Mode
  tokens : List Token
  word : Option (List Piece)
  stack : List Bool

namespace State

def initial : State := ⟨.plain, [], none, []⟩

def enter (s : State) (mode : Mode) : State := { s with mode := mode }

def emit (s : State) (token : Token) : State := { s with tokens := s.tokens ++ [token] }

def add (s : State) (pieces : List Piece) : State := { s with word := some (s.word.getD [] ++ pieces) }

def delimit (s : State) : State :=
  match s.word with
  | none => s
  | some word => { s with tokens := s.tokens ++ [.word word], word := none }

def isNumber (word : List Piece) : Bool :=
  !word.isEmpty && word.all fun
    | .plain c => c.isDigit
    | _ => false

def isOpen (word : List Piece) : Bool :=
  word.any fun
    | .slot _ _ => true
    | _ => false

def redirect (s : State) (c : Char) : State :=
  match s.word with
  | none => s.enter (.op [c])
  | some word =>
    if isOpen word then s.enter .bad
    else if isNumber word then
      { s with tokens := s.tokens ++ [.ioNumber word], word := none, mode := .op [c] }
    else { s with tokens := s.tokens ++ [.word word], word := none, mode := .op [c] }

def openSubst (s : State) (inDouble : Bool) : State :=
  ⟨.opened, s.tokens ++ [.openSubst (s.word.getD []) inDouble], none, inDouble :: s.stack⟩

def close (s : State) : State :=
  match s.stack with
  | [] => s.delimit.enter (.op [')'])
  | inDouble :: stack =>
    ⟨if inDouble then .double else .plain, s.delimit.tokens ++ [.closeSubst], some [], stack⟩

end State

def stepPlain (s : State) (c : Char) : State :=
  if c = '\'' then (s.add []).enter .single
  else if c = '"' then (s.add []).enter .double
  else if c = '\\' then s.enter .escape
  else if c = '$' then s.enter (.dollar false)
  else if c = '`' then s.enter .bad
  else if c = ' ' ∨ c = '\t' then s.delimit.enter .plain
  else if c = '\n' then (s.delimit.emit (.op [c])).enter .plain
  else if c = ')' then s.close
  else if c = '<' ∨ c = '>' then s.redirect c
  else if c = '|' ∨ c = '&' ∨ c = ';' ∨ c = '(' then s.delimit.enter (.op [c])
  else if c = '#' ∧ s.word.isNone then s.enter .comment
  else (s.add [.plain c]).enter .plain

def stepDouble (s : State) (c : Char) : State :=
  if c = '"' then s.enter .plain
  else if c = '\\' then s.enter .doubleEscape
  else if c = '$' then s.enter (.dollar true)
  else if c = '`' then s.enter .bad
  else (s.add [.quoted c]).enter .double

def stepIn (inDouble : Bool) (s : State) (c : Char) : State :=
  if inDouble then stepDouble s c else stepPlain s c

def isNameStart (c : Char) : Bool := c.isAlpha || c == '_'

def isNameRest (c : Char) : Bool := c.isAlphanum || c == '_'

def operators : List (List Char) :=
  [['&', '&'], ['|', '|'], [';', ';'], ['<', '&'], ['>', '&'], ['<', '>'], ['>', '>'], ['>', '|']]

def step (s : State) (c : Char) : State :=
  match s.mode with
  | .plain => stepPlain s c
  | .escape => if c = '\n' then s.enter .plain else (s.add [.quoted c]).enter .plain
  | .single => if c = '\'' then s.enter .plain else s.add [.quoted c]
  | .double => stepDouble s c
  | .doubleEscape =>
    if c = '$' ∨ c = '`' ∨ c = '"' ∨ c = '\\' then (s.add [.quoted c]).enter .double
    else if c = '\n' then s.enter .double
    else (s.add [.quoted '\\', .quoted c]).enter .double
  | .dollar inDouble =>
    if c = '(' then s.openSubst inDouble
    else if c = '{' then s.enter .bad
    else if isNameStart c then s.enter (.name [c] inDouble)
    else if c.isDigit ∨ c = '@' ∨ c = '*' ∨ c = '#' ∨ c = '?' ∨ c = '-' ∨ c = '$' ∨ c = '!' then
      (s.add [.param [c] inDouble]).enter (if inDouble then .double else .plain)
    else stepIn inDouble (s.add [if inDouble then .quoted '$' else .plain '$']) c
  | .name text inDouble =>
    if isNameRest c then s.enter (.name (text ++ [c]) inDouble)
    else stepIn inDouble (s.add [.param text inDouble]) c
  | .opened => if c = '(' then s.enter .bad else stepPlain s c
  | .op text =>
    if text ++ [c] ∈ operators then (s.emit (.op (text ++ [c]))).enter .plain
    else if text = ['<'] ∧ c = '<' then s.enter .bad
    else stepPlain (s.emit (.op text)) c
  | .comment => if c = '\n' then (s.emit (.op [c])).enter .plain else s
  | .bad => s

def run (s : State) (text : List Char) : State := text.foldl step s

/-- The tokens at the end of a command: `none` if a quote or a substitution is left open, or something
was not read. -/
def State.finish (s : State) : Option (List Token) :=
  if s.stack = [] then match s.mode with
    | .plain | .comment => some s.delimit.tokens
    | .op text => some (s.tokens ++ [.op text])
    | .dollar false => some (s.add [.plain '$']).delimit.tokens
    | .name text false => some (s.add [.param text false]).delimit.tokens
    | _ => none
  else none

def lex (command : String) : Option (List Token) := (run .initial command.toList).finish

/-- A value in single quotes; a single quote in it is written between them, escaped. -/
def quote (value : String) : String :=
  String.ofList ('\'' :: value.toList.flatMap (fun c =>
    if c = '\'' then ['\'', '\\', '\'', '\''] else [c]) ++ ['\''])

/-- A character that is part of the word outside quotes, wherever it stands in it. -/
def isBare (c : Char) : Bool :=
  !(c ∈ ['\'', '"', '\\', '$', '`', ' ', '\t', '\n', ')', '<', '>', '|', '&', ';', '(', '#'])

/-- A text of bare characters. -/
def Bare (text : String) : Prop := text.toList ≠ [] ∧ ∀ c ∈ text.toList, isBare c = true

instance (text : String) : Decidable (Bare text) :=
  decidable_of_iff (text.toList ≠ [] ∧ text.toList.all isBare = true) (and_congr_right' List.all_eq_true)

/-- A part of a template: a fixed text, or the value at an index, quoted or as it is. -/
inductive Part where
  | text (text : String)
  | value (index : Nat)
  | bare (index : Nat)

section Fill

variable (values : List String)

def valueAt (index : Nat) : List Char := (values.getD index "").toList

def Part.render : Part → List Char
  | .text fixed => fixed.toList
  | .value index => (quote (values.getD index "")).toList
  | .bare index => valueAt values index

def Part.Fits : Part → Prop
  | .bare index => Bare (values.getD index "")
  | _ => True

def Piece.fill : Piece → List Piece
  | .slot index true => (valueAt values index).map .quoted
  | .slot index false => (valueAt values index).map .plain
  | piece => [piece]

def Token.fill : Token → Token
  | .word pieces => .word (pieces.flatMap (Piece.fill values))
  | .ioNumber pieces => .ioNumber (pieces.flatMap (Piece.fill values))
  | .op text => .op text
  | .openSubst before inDouble => .openSubst (before.flatMap (Piece.fill values)) inDouble
  | .closeSubst => .closeSubst

def State.fill (s : State) : State :=
  ⟨s.mode, s.tokens.map (Token.fill values), s.word.map fun word => word.flatMap (Piece.fill values),
    s.stack⟩

end Fill

namespace Part

def read (s : State) : Part → State
  | .text fixed => run s fixed.toList
  | .value index => if s.mode = .plain then s.add [.slot index true] else s.enter .bad
  | .bare index => if s.mode = .plain then s.add [.slot index false] else s.enter .bad

def tokens (parts : List Part) : Option (List Token) := (parts.foldl read .initial).finish

end Part

end Portix.Lib.Shell
