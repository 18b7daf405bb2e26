import Mathlib.Data.List.Basic

/-!
# Queries of Lucene

The query strings of Lucene: words with escapes, quoted phrases, ranges and regular expressions, fields, parentheses,
`AND`, `OR` and `NOT` with their signs; and which documents a query selects. What a word, a range or a regular
expression selects is left open.
-/

namespace Portix.Lib.Lucene

abbrev Letter := Char × Bool

def textOf (letters : List Letter) : String := String.ofList (letters.map Prod.fst)

inductive Conj where
  | and
  | or
  deriving DecidableEq

inductive Sign where
  | required
  | prohibited

inductive Atom where
  | word (letters : List Letter)
  | phrase (text : String)
  | raw (text : String)

inductive Token where
  | atom (atom : Atom)
  | conj (conj : Conj)
  | sign (sign : Sign)
  | colon
  | lparen
  | rparen

def isSpace (c : Char) : Bool := c ∈ [' ', '\t', '\n', '\r', Char.ofNat 0x3000]

def endsWord (c : Char) : Bool := isSpace c || c ∈ ['"', '(', ')', ':', '!', '[', ']', '\x7b', '\x7d', '/']

def plain (text : String) : List Letter := text.toList.map fun c => (c, false)

def wordToken (letters : List Letter) : Token :=
  if letters = plain "AND" ∨ letters = plain "&&" then .conj .and
  else if letters = plain "OR" ∨ letters = plain "||" then .conj .or
  else if letters = plain "NOT" then .sign .prohibited
  else .atom (.word letters)

/-- What the reader is in the middle of. -/
inductive Mode where
  | base
  | word (letters : List Letter)
  | wordEscape (letters : List Letter)
  | phrase (text : List Char)
  | phraseEscape (text : List Char)
  | range (text : List Char)
  | regex (text : List Char)
  | regexEscape (text : List Char)

def start (c : Char) : Option (List Token × Mode) :=
  if isSpace c then some ([], .base)
  else if c = '\\' then some ([], .wordEscape [])
  else if c = '"' then some ([], .phrase [])
  else if c = '(' then some ([.lparen], .base)
  else if c = ')' then some ([.rparen], .base)
  else if c = ':' then some ([.colon], .base)
  else if c = '+' then some ([.sign .required], .base)
  else if c = '-' ∨ c = '!' then some ([.sign .prohibited], .base)
  else if c = '[' ∨ c = '\x7b' then some ([], .range [c])
  else if c = ']' ∨ c = '\x7d' then none
  else if c = '/' then some ([], .regex [])
  else some ([], .word [(c, false)])

/-- The next character: the tokens that end before or with it, and what comes. -/
def lexStep : Mode → Char → Option (List Token × Mode)
  | .base, c => start c
  | .word letters, c =>
    if c = '\\' then some ([], .wordEscape letters)
    else if endsWord c then (start c).map fun (tokens, mode) => (wordToken letters :: tokens, mode)
    else some ([], .word (letters ++ [(c, false)]))
  | .wordEscape letters, c => some ([], .word (letters ++ [(c, true)]))
  | .phrase text, c =>
    if c = '\\' then some ([], .phraseEscape text)
    else if c = '"' then some ([.atom (.phrase (String.ofList text))], .base)
    else some ([], .phrase (text ++ [c]))
  | .phraseEscape text, c => some ([], .phrase (text ++ [c]))
  | .range text, c =>
    if c = ']' ∨ c = '\x7d' then some ([.atom (.raw (String.ofList (text ++ [c])))], .base)
    else some ([], .range (text ++ [c]))
  | .regex text, c =>
    if c = '\\' then some ([], .regexEscape text)
    else if c = '/' then some ([.atom (.raw (String.ofList text))], .base)
    else some ([], .regex (text ++ [c]))
  | .regexEscape text, c => some ([], .regex (text ++ ['\\', c]))

def lexEnd : Mode → Option (List Token)
  | .base => some []
  | .word letters => some [wordToken letters]
  | _ => none

def lexFrom : Mode → List Char → Option (List Token)
  | mode, [] => lexEnd mode
  | mode, c :: cs => (lexStep mode c).bind fun (tokens, mode) => (lexFrom mode cs).map (tokens ++ ·)

def lex (text : String) : Option (List Token) := lexFrom .base text.toList

/-- A part of a query: what stands for documents in a field, or a query in parentheses. Each part of a query has the
operator before it and its sign. -/
inductive Clause where
  | term (field : Option String) (atom : Atom)
  | group (items : List (Option Conj × Option Sign × Clause))

abbrev Item := Option Conj × Option Sign × Clause

/-- Where the reading of a query stands: before a clause, after a word that a colon may follow, or after a field. -/
inductive Phase where
  | before (conj : Option Conj) (sign : Option Sign)
  | word (conj : Option Conj) (sign : Option Sign) (letters : List Letter)
  | field (conj : Option Conj) (sign : Option Sign) (name : String)

/-- A query in the reading: what it has so far, and the field that is meant in it. -/
structure Frame where
  items : List Item
  field : Option String
  phase : Phase

namespace Frame

def fresh (field : Option String) : Frame := ⟨[], field, .before none none⟩

variable (frame : Frame)

def add (conj : Option Conj) (sign : Option Sign) (clause : Clause) : Frame :=
  ⟨frame.items ++ [(conj, sign, clause)], frame.field, .before none none⟩

def settle : Frame :=
  match frame.phase with
  | .word conj sign letters => frame.add conj sign (.term frame.field (.word letters))
  | _ => frame

def close : Option (List Item) :=
  match frame.phase with
  | .before none none => if frame.items = [] then none else some frame.items
  | _ => none

/-- A token that does not concern parentheses, after a word has been settled. -/
def take : Token → Option Frame
  | .atom atom => match frame.phase, atom with
    | .before conj sign, .word letters => some { frame with phase := .word conj sign letters }
    | .before conj sign, atom => some (frame.add conj sign (.term frame.field atom))
    | .field conj sign name, atom => some (frame.add conj sign (.term (some name) atom))
    | .word _ _ _, _ => none
  | .conj conj => match frame.phase with
    | .before none none => if frame.items = [] then none else some { frame with phase := .before (some conj) none }
    | _ => none
  | .sign sign => match frame.phase with
    | .before conj none => some { frame with phase := .before conj (some sign) }
    | _ => none
  | _ => none

def name : Option Frame :=
  match frame.phase with
  | .word conj sign letters => some { frame with phase := .field conj sign (textOf letters) }
  | _ => none

def inner : Option String :=
  match frame.phase with
  | .field _ _ name => some name
  | _ => frame.field

def addGroup (items : List Item) : Frame :=
  match frame.phase with
  | .before conj sign => frame.add conj sign (.group items)
  | .word conj sign _ => frame.add conj sign (.group items)
  | .field conj sign _ => frame.add conj sign (.group items)

end Frame

def parseStep (token : Token) : List Frame → Option (List Frame)
  | [] => none
  | frame :: outer => match token with
    | .colon => frame.name.map (· :: outer)
    | .lparen => some (Frame.fresh frame.settle.inner :: frame.settle :: outer)
    | .rparen => match frame.settle.close, outer with
      | some items, parent :: outer => some (parent.addGroup items :: outer)
      | _, _ => none
    | token => (frame.settle.take token).map (· :: outer)

def parseFrom : List Frame → List Token → Option (List Frame)
  | frames, [] => some frames
  | frames, token :: tokens => (parseStep token frames).bind fun frames => parseFrom frames tokens

def parse (tokens : List Token) : Option (List Item) :=
  match parseFrom [Frame.fresh none] tokens with
  | some [frame] => frame.settle.close
  | _ => none

def read (text : String) : Option (List Item) := (lex text).bind parse

/-- The documents: in which of them a field has a value, which have a field, and what anything else selects. -/
structure Documents (δ : Type) where
  holds : String → String → δ → Prop
  has : String → δ → Prop
  selects : Option String → Atom → δ → Prop

def Atom.text : Atom → String
  | .word letters => textOf letters
  | .phrase text => text
  | .raw text => text

/-- What an atom in a field selects: `_exists_` asks for a field. -/
def Documents.term {δ : Type} (docs : Documents δ) (field : Option String) (atom : Atom) (d : δ) : Prop :=
  match field with
  | none => docs.selects none atom d
  | some name =>
    if name = "_exists_" then docs.has atom.text d
    else match atom with
      | .phrase text => docs.holds name text d
      | atom => docs.selects (some name) atom d

inductive Occur where
  | must
  | should
  | mustNot
  deriving DecidableEq

def occurs : List (Option Conj × Option Sign × Prop) → List (Occur × Prop)
  | [] => []
  | (conj, sign, p) :: rest =>
    let joined := conj = some .and ∨ (rest.head?.bind Prod.fst) = some .and
    let occur : Occur := match sign with
      | some .prohibited => .mustNot
      | some .required => .must
      | none => if joined then .must else .should
    (occur, p) :: occurs rest

/-- What the parts of a query select together: what is required and not prohibited; where nothing is required, one of
the others, if there are any. -/
def combine (parts : List (Option Conj × Option Sign × Prop)) : Prop :=
  (∀ p, (Occur.must, p) ∈ occurs parts → p) ∧ (∀ p, (Occur.mustNot, p) ∈ occurs parts → ¬p) ∧
    ((∃ p, (Occur.must, p) ∈ occurs parts) ∨ (∃ p, (Occur.should, p) ∈ occurs parts ∧ p) ∨
      ∀ p, (Occur.should, p) ∉ occurs parts)

mutual

def Clause.meaning {δ : Type} (docs : Documents δ) (d : δ) : Clause → Prop
  | .term field atom => docs.term field atom d
  | .group items => combine (meanings docs d items)

def meanings {δ : Type} (docs : Documents δ) (d : δ) : List Item → List (Option Conj × Option Sign × Prop)
  | [] => []
  | (conj, sign, clause) :: rest => (conj, sign, clause.meaning docs d) :: meanings docs d rest

end

end Portix.Lib.Lucene
