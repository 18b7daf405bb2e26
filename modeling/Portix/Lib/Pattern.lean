import Mathlib.Data.Nat.Digits.Defs
import Portix.Lib.Text

/-!
# Patterns of repeated characters

Regular expressions that are a row of repeated classes of characters from the start of a text to its end: what
POSIX extended expressions and those of Dart have in common. A group only captures; it is not repeated.
-/

namespace Portix.Lib

structure Piece where
  accepts : Char → Bool
  least : Nat := 1
  most : Option Nat := some 1

namespace Piece

def runs (piece : Piece) (text : List Char) : Bool :=
  decide (piece.least ≤ text.length) && piece.most.all (text.length ≤ ·) && text.all piece.accepts

def literal (c : Char) : Piece := { accepts := (· == c) }

@[simp] theorem runs_literal (c : Char) (text : List Char) : (literal c).runs text = decide (text = [c]) := by
  rw [Bool.eq_iff_iff]
  simp only [runs, literal, Option.all_some, Bool.and_eq_true, decide_eq_true_eq]
  constructor
  · rintro ⟨⟨hleast, hmost⟩, hall⟩
    obtain ⟨d, rfl⟩ := List.length_eq_one_iff.mp (le_antisymm hmost (of_decide_eq_true hleast))
    simpa using hall
  · rintro rfl
    simp

end Piece

def matchesAll : List Piece → List Char → Bool
  | [], text => text.isEmpty
  | piece :: pieces, text => (List.range (text.length + 1)).any fun n =>
    piece.runs (text.take n) && matchesAll pieces (text.drop n)

/-- What the first piece matches, which is as much as leaves a rest that the other pieces match. -/
def captureFirst : List Piece → List Char → Option (List Char)
  | [], _ => none
  | piece :: pieces, text => ((List.range (text.length + 1)).reverse.find? fun n =>
    piece.runs (text.take n) && matchesAll pieces (text.drop n)).map text.take

section Matching

variable {piece : Piece} {pieces : List Piece} {text part : List Char}

theorem matchesAll_nil : matchesAll [] text = true ↔ text = [] := by
  simp [matchesAll]

theorem matchesAll_cons : matchesAll (piece :: pieces) text = true ↔
    ∃ part rest, text = part ++ rest ∧ piece.runs part = true ∧ matchesAll pieces rest = true := by
  simp only [matchesAll, List.any_eq_true, Bool.and_eq_true]
  constructor
  · rintro ⟨n, -, hpart, hrest⟩
    exact ⟨_, _, (List.take_append_drop n text).symm, hpart, hrest⟩
  · rintro ⟨part, rest, rfl, hpart, hrest⟩
    refine ⟨part.length, ?_, by simpa using hpart, by simpa using hrest⟩
    exact List.mem_range.mpr (Nat.lt_succ_of_le (by simp))

theorem matchesAll_literal {c : Char} : matchesAll (.literal c :: pieces) text = true ↔
    ∃ rest, text = c :: rest ∧ matchesAll pieces rest = true := by
  rw [matchesAll_cons]
  constructor
  · rintro ⟨part, rest, rfl, hpart, hrest⟩
    rw [Piece.runs_literal, decide_eq_true_eq] at hpart
    exact ⟨rest, by rw [hpart]; rfl, hrest⟩
  · rintro ⟨rest, rfl, hrest⟩
    exact ⟨[c], rest, rfl, by simp, hrest⟩

theorem matchesAll_literals {chars : List Char} : matchesAll (chars.map .literal ++ pieces) text = true ↔
    ∃ rest, text = chars ++ rest ∧ matchesAll pieces rest = true := by
  induction chars generalizing text with
  | nil => simp
  | cons c chars ih =>
    rw [List.map_cons, List.cons_append, matchesAll_literal]
    constructor
    · rintro ⟨rest, rfl, hrest⟩
      obtain ⟨rest', rfl, hrest'⟩ := ih.mp hrest
      exact ⟨rest', rfl, hrest'⟩
    · rintro ⟨rest, rfl, hrest⟩
      exact ⟨chars ++ rest, rfl, ih.mpr ⟨rest, rfl, hrest⟩⟩

theorem captureFirst_sound (h : captureFirst (piece :: pieces) text = some part) :
    ∃ rest, text = part ++ rest ∧ piece.runs part = true ∧ matchesAll pieces rest = true := by
  obtain ⟨n, hfound, rfl⟩ := Option.map_eq_some_iff.mp h
  have htest := List.find?_some hfound
  rw [Bool.and_eq_true] at htest
  exact ⟨text.drop n, (List.take_append_drop n text).symm, htest⟩

theorem captureFirst_eq_some_iff
    (hunique : ∀ a b a' b', text = a ++ b → text = a' ++ b' → piece.runs a = true → piece.runs a' = true →
      matchesAll pieces b = true → matchesAll pieces b' = true → a = a') :
    captureFirst (piece :: pieces) text = some part ↔
      ∃ rest, text = part ++ rest ∧ piece.runs part = true ∧ matchesAll pieces rest = true := by
  constructor
  · exact captureFirst_sound
  · rintro ⟨rest, htext, hpart, hrest⟩
    have hsome : (captureFirst (piece :: pieces) text).isSome := by
      rw [captureFirst, Option.isSome_map, List.find?_isSome]
      refine ⟨part.length, ?_, ?_⟩
      · rw [List.mem_reverse, List.mem_range, htext, List.length_append]
        omega
      · rw [htext, List.take_left, List.drop_left, hpart, hrest]
        rfl
    obtain ⟨found, hfound⟩ := Option.isSome_iff_exists.mp hsome
    obtain ⟨rest', htext', hfound', hrest'⟩ := captureFirst_sound hfound
    rw [hfound, hunique found rest' part rest htext' htext hfound' hpart hrest' hrest]

end Matching

def classOf : List Char → Char → Bool
  | a :: '-' :: b :: rest, c => (decide (a ≤ c) && decide (c ≤ b)) || classOf rest c
  | a :: rest, c => c == a || classOf rest c
  | [], _ => false

def repeatOf (body : List Char) (piece : Piece) : Option Piece :=
  match body.splitOn ',' with
  | [n] => some { piece with least := Nat.ofDigitChars 10 n 0, most := some (Nat.ofDigitChars 10 n 0) }
  | [m, n] => some { piece with least := Nat.ofDigitChars 10 m 0, most := some (Nat.ofDigitChars 10 n 0) }
  | _ => none

inductive PatternMode where
  | plain
  | escaped
  | bracket (body : List Char)
  | brace (body : List Char)

/-- Characters with a meaning of their own, for which there is no piece. -/
def isReserved (c : Char) : Bool := c ∈ ['^', '$', '|', '*', '?', ']', '}', ')']

/-- The pieces of a pattern after those that were read, the last of them first, up to `$`. `dot` is what `.`
accepts. -/
def readPieces (dot : Char → Bool) : PatternMode → List Piece → List Char → Option (List Piece)
  | .plain, read, ['$'] => some read.reverse
  | .plain, read, '\\' :: rest => readPieces dot .escaped read rest
  | .plain, read, '[' :: rest => readPieces dot (.bracket []) read rest
  | .plain, read, '{' :: rest => readPieces dot (.brace []) read rest
  | .plain, read, '.' :: rest => readPieces dot .plain ({ accepts := dot } :: read) rest
  | .plain, piece :: read, '+' :: rest => readPieces dot .plain ({ piece with most := none } :: read) rest
  | .plain, read, c :: rest =>
    if isReserved c || c == '+' || c == '(' then none else readPieces dot .plain (.literal c :: read) rest
  | .escaped, read, c :: rest => readPieces dot .plain (.literal c :: read) rest
  | .bracket body, read, c :: rest =>
    if c = ']' then readPieces dot .plain ({ accepts := classOf body } :: read) rest
    else readPieces dot (.bracket (body ++ [c])) read rest
  | .brace body, read, c :: rest =>
    if c = '}' then
      match read with
      | [] => none
      | piece :: read => (repeatOf body piece).bind fun piece => readPieces dot .plain (piece :: read) rest
    else readPieces dot (.brace (body ++ [c])) read rest
  | _, _, [] => none

def patternPieces (dot : Char → Bool) (pattern : List Char) : Option (List Piece) :=
  match pattern with
  | '^' :: rest => readPieces dot .plain [] rest
  | _ => none

/-- The pieces of a pattern that starts with a group, which is one piece and not repeated. -/
def groupPieces (dot : Char → Bool) (pattern : List Char) : Option (List Piece) :=
  match pattern with
  | '^' :: '(' :: rest =>
    let body := rest.takeWhile (· ≠ ')')
    let after := (rest.dropWhile (· ≠ ')')).tail
    if (readPieces dot .plain [] (body ++ ['$'])).map List.length = some 1 ∧ after.head?.all (· ∉ ['+', '*', '?', '{'])
    then readPieces dot .plain [] (body ++ after)
    else none
  | _ => none

section Reading

variable {dot : Char → Bool} {read : List Piece} {rest : List Char}

def isPlain (c : Char) : Bool := c.isAlphanum || c = '-' || c = '/'

theorem readPieces_plain {c : Char} (hc : isPlain c = true) (hrest : rest ≠ []) :
    readPieces dot .plain read (c :: rest) = readPieces dot .plain (.literal c :: read) rest := by
  have hne : ∀ d, isPlain d = false → c ≠ d := by
    rintro d hd rfl
    rw [hc] at hd
    cases hd
  have hreserved : isReserved c = false := by
    simp only [isReserved, List.mem_cons, List.not_mem_nil, or_false, decide_eq_false_iff_not, not_or]
    refine ⟨?_, ?_, ?_, ?_, ?_, ?_, ?_, ?_⟩ <;> exact hne _ (by decide)
  have hother : (isReserved c || c == '+' || c == '(') = false := by
    simp [hreserved, hne '+' (by decide), hne '(' (by decide)]
  cases read with
  | nil =>
    simp [readPieces, hrest, hne '\\' (by decide), hne '[' (by decide), hne '{' (by decide), hne '.' (by decide),
      hother]
  | cons piece read =>
    simp [readPieces, hrest, hne '\\' (by decide), hne '[' (by decide), hne '{' (by decide), hne '.' (by decide),
      hne '+' (by decide), hother]

theorem readPieces_escaped (c : Char) :
    readPieces dot .plain read ('\\' :: c :: rest) = readPieces dot .plain (.literal c :: read) rest := by
  cases read with
  | nil => simp [readPieces]
  | cons piece read => simp [readPieces]

theorem readPieces_escapeDots {chars : List Char} (hchars : ∀ c ∈ chars, isPlain c = true ∨ c = '.')
    (hrest : rest ≠ []) :
    readPieces dot .plain read ((chars.flatMap fun c => if c = '.' then ['\\', '.'] else [c]) ++ rest) =
      readPieces dot .plain ((chars.map .literal).reverse ++ read) rest := by
  induction chars generalizing read with
  | nil => rfl
  | cons c chars ih =>
    have ih' : ∀ read,
        readPieces dot .plain read ((chars.flatMap fun c => if c = '.' then ['\\', '.'] else [c]) ++ rest) =
        readPieces dot .plain ((chars.map .literal).reverse ++ read) rest := fun read =>
      ih fun d hd => hchars d (List.mem_cons_of_mem _ hd)
    rw [List.flatMap_cons, List.append_assoc, List.map_cons, List.reverse_cons, List.append_assoc,
      List.singleton_append, ← ih']
    by_cases hdot : c = '.'
    · subst hdot
      exact readPieces_escaped '.'
    · rw [if_neg hdot, List.singleton_append]
      refine readPieces_plain ((hchars c (List.mem_cons_self ..)).resolve_right hdot) ?_
      simp [hrest]

end Reading

end Portix.Lib
