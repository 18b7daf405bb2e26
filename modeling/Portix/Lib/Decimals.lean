import Mathlib.Algebra.Field.Rat
import Mathlib.Algebra.GroupWithZero.Basic
import Portix.Lib.Integers

/-!
# Decimals as text

The finite doubles of Dart as they are read, over the rational numbers.
-/

namespace Portix.Lib

/-- The sign of a number, if one is written, and whether it is a minus sign. -/
def signChars : Option Bool → List Char
  | none => []
  | some true => ['-']
  | some false => ['+']

def signed {α : Type} [Neg α] (negative : Bool) (a : α) : α := if negative then -a else a

structure Decimal where
  sign : Option Bool
  whole : List Char
  fraction : Option (List Char)
  whole_digits : ∀ c ∈ whole, c.isDigit = true
  fraction_digits : ∀ digits ∈ fraction, ∀ c ∈ digits, c.isDigit = true
  nonempty : ¬ (whole = [] ∧ fraction.getD [] = [])

structure Exponent where
  upper : Bool
  sign : Option Bool
  digits : List Char
  isDigit : ∀ c ∈ digits, c.isDigit = true
  nonempty : digits ≠ []

def fractionChars : Option (List Char) → List Char
  | none => []
  | some digits => '.' :: digits

namespace Decimal

def chars (d : Decimal) : List Char := signChars d.sign ++ (d.whole ++ fractionChars d.fraction)

def value (d : Decimal) : ℚ :=
  signed (d.sign = some true) (Nat.ofDigitChars 10 (d.whole ++ d.fraction.getD []) 0 : ℚ) /
    10 ^ (d.fraction.getD []).length

end Decimal

namespace Exponent

def chars (e : Exponent) : List Char := (if e.upper then 'E' else 'e') :: (signChars e.sign ++ e.digits)

def value (e : Exponent) : ℤ := signed (e.sign = some true) (Nat.ofDigitChars 10 e.digits 0 : ℤ)

end Exponent

def readExponent : List Char → Option ℤ
  | [] => some 0
  | c :: rest =>
    if c = 'e' ∨ c = 'E' then
      if (splitSign rest).2 = [] ∨ ¬(splitSign rest).2.all Char.isDigit then none
      else some (signed (splitSign rest).1 (Nat.ofDigitChars 10 (splitSign rest).2 0 : ℤ))
    else none

def readFraction : List Char → List Char × List Char
  | '.' :: rest => (rest.takeWhile Char.isDigit, rest.dropWhile Char.isDigit)
  | rest => ([], rest)

def readDecimal (source : List Char) : Option ℚ :=
  let whole := (splitSign source).2.takeWhile Char.isDigit
  let (fraction, rest) := readFraction ((splitSign source).2.dropWhile Char.isDigit)
  if whole = [] ∧ fraction = [] then none
  else (readExponent rest).map fun exponent => signed (splitSign source).1
    (Nat.ofDigitChars 10 (whole ++ fraction) 0 : ℚ) / 10 ^ fraction.length * 10 ^ exponent

/-- `double.tryParse`, but for the texts of infinities and of what is no number. -/
def doubleTryParse (source : String) : Option ℚ := readDecimal (dartTrim source).toList

theorem splitSign_signChars {sign : Option Bool} {cs : List Char} (h : ∀ c ∈ cs.head?, c ≠ '-' ∧ c ≠ '+') :
    splitSign (signChars sign ++ cs) = (decide (sign = some true), cs) := by
  cases sign with
  | none =>
    cases cs with
    | nil => rfl
    | cons c cs =>
      obtain ⟨hminus, hplus⟩ := h c rfl
      show splitSign (c :: cs) = _
      rw [splitSign, if_neg hminus, if_neg hplus]
      rfl
  | some negative => cases negative <;> rfl

theorem ne_sign_of_isDigit {c : Char} (hc : c.isDigit = true) : c ≠ '-' ∧ c ≠ '+' := by
  constructor
  all_goals
    rintro rfl
    exact absurd hc (by decide)

/-- Digits, and then nothing more of a number. -/
def NumberEnds (rest : List Char) : Prop := ∀ c ∈ rest.head?, c.isDigit = false ∧ c ≠ '.'

theorem readDecimal_append (d : Decimal) {rest : List Char} (hrest : NumberEnds rest) :
    readDecimal (d.chars ++ rest) = (readExponent rest).map fun exponent => d.value * 10 ^ exponent := by
  have hfraction : readFraction (fractionChars d.fraction ++ rest) = (d.fraction.getD [], rest) ∧
      ∀ c ∈ (fractionChars d.fraction ++ rest).head?, c.isDigit = false := by
    cases hd : d.fraction with
    | none =>
      refine ⟨?_, fun c hc => (hrest c hc).1⟩
      cases rest with
      | nil => rfl
      | cons c rest =>
        show readFraction (c :: rest) = ([], c :: rest)
        unfold readFraction
        split
        next h => exact absurd (List.cons.inj h).1 (hrest c rfl).2
        next => rfl
    | some digits =>
      obtain ⟨htake, hdrop⟩ := span_append (d.fraction_digits digits hd) fun c hc => (hrest c hc).1
      refine ⟨?_, fun c hc => ?_⟩
      · show readFraction ('.' :: (digits ++ rest)) = (digits, rest)
        rw [readFraction, htake, hdrop]
      · rw [← Option.some.inj hc]
        decide
  obtain ⟨htake, hdrop⟩ := span_append d.whole_digits hfraction.2
  have hsign : splitSign (d.chars ++ rest) =
      (decide (d.sign = some true), d.whole ++ (fractionChars d.fraction ++ rest)) := by
    rw [Decimal.chars, List.append_assoc, List.append_assoc]
    refine splitSign_signChars fun c hc => ?_
    cases hw : d.whole with
    | cons digit whole =>
      rw [hw] at hc
      rw [← Option.some.inj hc]
      exact ne_sign_of_isDigit (d.whole_digits digit (hw ▸ List.mem_cons_self))
    | nil =>
      cases hd : d.fraction with
      | none => exact absurd ⟨hw, by rw [hd]; rfl⟩ d.nonempty
      | some digits =>
        rw [hw, hd] at hc
        rw [← Option.some.inj hc]
        decide
  rw [readDecimal, hsign]
  dsimp only
  rw [htake, hdrop, hfraction.1]
  dsimp only
  rw [if_neg d.nonempty]
  rfl

theorem readExponent_chars (e : Exponent) : readExponent e.chars = some e.value := by
  have hsign : splitSign (signChars e.sign ++ e.digits) = (decide (e.sign = some true), e.digits) :=
    splitSign_signChars fun c hc => ne_sign_of_isDigit (e.isDigit c (List.mem_of_mem_head? hc))
  have hgood : ¬(e.digits = [] ∨ ¬e.digits.all Char.isDigit) :=
    not_or.mpr ⟨e.nonempty, not_not_intro (List.all_eq_true.mpr e.isDigit)⟩
  rw [Exponent.chars, readExponent, hsign, if_pos (by cases e.upper <;> simp), if_neg hgood]
  rfl

theorem doubleTryParse_ofList {cs : List Char} (h : ∀ c ∈ cs, isDartWhitespace c = false) :
    doubleTryParse (String.ofList cs) = readDecimal cs := by
  have htrim : dartTrim (String.ofList cs) = String.ofList cs := by
    refine trimBy_eq_self_of ?_ ?_
    · rw [firstIs, String.toList_ofList, Option.any_eq_false]
      exact fun c hc => h c (List.mem_of_mem_head? hc)
    · rw [lastIs, String.toList_ofList, Option.any_eq_false]
      exact fun c hc => h c (List.mem_of_getLast? hc)
  rw [doubleTryParse, htrim, String.toList_ofList]

/-- The characters of a number. -/
theorem Decimal.of_mem_chars {d : Decimal} {c : Char} (hc : c ∈ d.chars) :
    c.isDigit = true ∨ c = '.' ∨ c = '-' ∨ c = '+' := by
  rcases List.mem_append.mp hc with hsign | hrest
  · revert hsign
    rcases d.sign with _ | _ | _ <;> simp +contextual [signChars]
  · rcases List.mem_append.mp hrest with hwhole | hfraction
    · exact .inl (d.whole_digits c hwhole)
    · cases hd : d.fraction with
      | none =>
        rw [hd] at hfraction
        cases hfraction
      | some digits =>
        rw [hd] at hfraction
        rcases List.mem_cons.mp hfraction with rfl | hdigits
        · exact .inr (.inl rfl)
        · exact .inl (d.fraction_digits digits hd c hdigits)

end Portix.Lib
