import Mathlib.Algebra.Order.Ring.Int
import Portix.Lib.Text

/-!
# Integers as text

The 64-bit integers of Dart, their text and what is read as one.
-/

namespace Portix.Lib

theorem toDigits_injective {m n : Nat} (h : Nat.toDigits 10 m = Nat.toDigits 10 n) : m = n := by
  have hvalue := congrArg (fun digits => Nat.ofDigitChars 10 digits 0) h
  simpa only [Nat.ofDigitChars_toDigits (b := 10) (by omega) (by omega)] using hvalue

theorem toList_toString_ofNat (n : Nat) : (toString (Int.ofNat n)).toList = Nat.toDigits 10 n := by
  rw [Int.toString_eq_repr]
  exact Nat.toList_repr

theorem toList_toString_negSucc (n : Nat) : (toString (Int.negSucc n)).toList = '-' :: Nat.toDigits 10 (n + 1) := by
  rw [Int.toString_eq_repr]
  have hsigned : ("-" ++ Nat.repr (n + 1)).toList = '-' :: Nat.toDigits 10 (n + 1) := by
    rw [String.toList_append, Nat.toList_repr]
    rfl
  exact hsigned

theorem isDigit_or_eq_of_mem_toString {n : Int} {c : Char} (hc : c ∈ (toString n).toList) :
    c.isDigit = true ∨ c = '-' := by
  cases n with
  | ofNat n =>
    rw [toList_toString_ofNat] at hc
    exact .inl (Nat.isDigit_of_mem_toDigits (by omega) (by omega) hc)
  | negSucc n =>
    rw [toList_toString_negSucc] at hc
    rcases List.mem_cons.mp hc with hsign | hdigits
    · exact .inr hsign
    · exact .inl (Nat.isDigit_of_mem_toDigits (by omega) (by omega) hdigits)

theorem toString_int_injective {m n : Int} (h : toString m = toString n) : m = n := by
  have hlist : (toString m).toList = (toString n).toList := by rw [h]
  have hsign : ∀ k : Nat, '-' ∉ Nat.toDigits 10 k := by
    intro k hmem
    exact absurd (Nat.isDigit_of_mem_toDigits (by omega) (by omega) hmem) (by decide)
  cases m with
  | ofNat m =>
    rw [toList_toString_ofNat] at hlist
    cases n with
    | ofNat n =>
      rw [toList_toString_ofNat] at hlist
      rw [toDigits_injective hlist]
    | negSucc n =>
      rw [toList_toString_negSucc] at hlist
      exact absurd (hlist ▸ List.mem_cons_self ..) (hsign m)
  | negSucc m =>
    rw [toList_toString_negSucc] at hlist
    cases n with
    | ofNat n =>
      rw [toList_toString_ofNat] at hlist
      exact absurd (hlist ▸ List.mem_cons_self ..) (hsign n)
    | negSucc n =>
      rw [toList_toString_negSucc, List.cons.injEq] at hlist
      have hsame := toDigits_injective hlist.2
      rw [Nat.succ.inj hsame]

def int64Of (i : Int) : Option Int64 :=
  if -2 ^ 63 ≤ i ∧ i < 2 ^ 63 then some (Int64.ofInt i) else none

variable (n : Int64)

theorem int64Of_toInt : int64Of n.toInt = some n := by
  have hrange : -2 ^ 63 ≤ n.toInt ∧ n.toInt < 2 ^ 63 := ⟨n.le_toInt, n.toInt_lt⟩
  rw [int64Of, if_pos hrange, Int64.ofInt_toInt]

def intChars : List Char :=
  if n.toInt < 0 then '-' :: Nat.toDigits 10 n.toInt.natAbs else Nat.toDigits 10 n.toInt.natAbs

def intText : String := String.ofList (intChars n)

def signedValue (negative : Bool) (digits : List Char) : Option Int64 :=
  int64Of (if negative then -(Nat.ofDigitChars 10 digits 0 : Int) else Nat.ofDigitChars 10 digits 0)

def hexValue (c : Char) : Option Nat :=
  if c.isDigit then some (c.toNat - 48)
  else if 97 ≤ c.toNat ∧ c.toNat ≤ 102 then some (c.toNat - 87)
  else if 65 ≤ c.toNat ∧ c.toNat ≤ 70 then some (c.toNat - 55)
  else none

def hexText : List Char → Nat → Option Nat
  | [], value => some value
  | c :: rest, value => (hexValue c).bind fun digit => hexText rest (value * 16 + digit)

def splitSign : List Char → Bool × List Char
  | [] => (false, [])
  | c :: rest => if c = '-' then (true, rest) else if c = '+' then (false, rest) else (false, c :: rest)

def hexDigits? : List Char → Option (List Char)
  | '0' :: c :: digits => if c = 'x' ∨ c = 'X' then some digits else none
  | _ => none

/-- `int.tryParse` of Dart: decimal digits, or hexadecimal ones after `0x`, after an optional sign.
A hexadecimal value without a minus sign may use all 64 bits. -/
def intTryParse (s : String) : Option Int64 :=
  let (negative, digits) := splitSign (dartTrim s).toList
  match hexDigits? digits with
  | some hex =>
    if hex = [] then none
    else (hexText hex 0).bind fun n =>
      if negative then int64Of (-n) else if n < 2 ^ 64 then some (Int64.ofNat n) else none
  | none => if digits = [] ∨ ¬digits.all Char.isDigit then none else signedValue negative digits

theorem isDigit_iff {c : Char} : c.isDigit = true ↔ 48 ≤ c.toNat ∧ c.toNat ≤ 57 := by
  simp only [Char.isDigit, Bool.and_eq_true, decide_eq_true_eq, ge_iff_le, UInt32.le_iff_toNat_le]
  exact Iff.rfl

theorem isDartWhitespace_of_isDigit {c : Char} (hc : c.isDigit = true) : isDartWhitespace c = false := by
  obtain ⟨hlow, hhigh⟩ := isDigit_iff.mp hc
  simp only [isDartWhitespace, isWhitespace, Bool.or_eq_false_iff, Bool.and_eq_false_iff,
    decide_eq_false_iff_not, beq_eq_false_iff_ne]
  omega

theorem isDigit_of_mem_digits {c : Char} {n : Nat} (hc : c ∈ Nat.toDigits 10 n) :
    c.isDigit = true := Nat.isDigit_of_mem_toDigits (by decide) (by decide) hc

theorem digits_eq_concat (n : Nat) : ∃ cs d, Nat.toDigits 10 n = cs ++ [d] ∧ d.isDigit = true := by
  obtain ⟨cs, d, heq⟩ := (List.eq_nil_or_concat' (Nat.toDigits 10 n)).resolve_left Nat.toDigits_ne_nil
  have hmem : d ∈ Nat.toDigits 10 n := by rw [heq]; simp
  exact ⟨cs, d, heq, isDigit_of_mem_digits hmem⟩

theorem digits_eq_cons (n : Nat) : ∃ d ds, Nat.toDigits 10 n = d :: ds ∧ d.isDigit = true := by
  obtain ⟨d, ds, heq⟩ := List.exists_cons_of_ne_nil (Nat.toDigits_ne_nil (n := n) (b := 10))
  have hmem : d ∈ Nat.toDigits 10 n := by rw [heq]; simp
  exact ⟨d, ds, heq, isDigit_of_mem_digits hmem⟩

theorem splitSign_intChars :
    splitSign (intChars n) = (decide (n.toInt < 0), Nat.toDigits 10 n.toInt.natAbs) := by
  unfold intChars
  by_cases hneg : n.toInt < 0
  · simp [hneg, splitSign]
  · obtain ⟨d, ds, heq, hd⟩ := digits_eq_cons n.toInt.natAbs
    have hrange := isDigit_iff.mp hd
    have hminus : d ≠ '-' := by rintro rfl; revert hrange; decide
    have hplus : d ≠ '+' := by rintro rfl; revert hrange; decide
    rw [if_neg hneg, heq, splitSign, if_neg hminus, if_neg hplus, decide_eq_false hneg]

theorem hexDigits?_of_all {ds : List Char} (hall : ∀ c ∈ ds, c.isDigit = true) : hexDigits? ds = none := by
  unfold hexDigits?
  split
  case h_1 c digits =>
    have hc := isDigit_iff.mp (hall c (by simp))
    have hx : c ≠ 'x' := by rintro rfl; revert hc; decide
    have hX : c ≠ 'X' := by rintro rfl; revert hc; decide
    exact if_neg (fun h => h.elim hx hX)
  case h_2 => rfl

theorem signedValue_digits :
    signedValue (decide (n.toInt < 0)) (Nat.toDigits 10 n.toInt.natAbs) = some n := by
  unfold signedValue
  rw [Nat.ofDigitChars_ten_toDigits]
  by_cases hneg : n.toInt < 0
  · have hval : -(n.toInt.natAbs : Int) = n.toInt := by omega
    simp only [hneg, decide_true, if_true, hval, int64Of_toInt]
  · have hval : (n.toInt.natAbs : Int) = n.toInt := by omega
    simp only [hneg, decide_false, Bool.false_eq_true, if_false, hval, int64Of_toInt]

theorem dartTrim_intText : dartTrim (intText n) = intText n := by
  obtain ⟨cs, d, heq, hd⟩ := digits_eq_concat n.toInt.natAbs
  have htext : (intText n).toList = intChars n := String.toList_ofList
  have hlast : lastIs isDartWhitespace (intText n) = false := by
    have hd' := isDartWhitespace_of_isDigit hd
    unfold lastIs
    rw [htext, intChars, heq]
    by_cases hneg : n.toInt < 0
    · rw [if_pos hneg, ← List.cons_append, List.getLast?_concat]; exact hd'
    · rw [if_neg hneg, List.getLast?_concat]; exact hd'
  have hhead : ∃ c rest, intChars n = c :: rest ∧ isDartWhitespace c = false := by
    unfold intChars
    by_cases hneg : n.toInt < 0
    · exact ⟨'-', _, if_pos hneg, by decide⟩
    · obtain ⟨c, ds, hcons, hc⟩ := digits_eq_cons n.toInt.natAbs
      exact ⟨c, ds, by rw [if_neg hneg, hcons], isDartWhitespace_of_isDigit hc⟩
  obtain ⟨c, rest, hcons, hc⟩ := hhead
  exact (trimBy_eq_self_iff (htext.trans hcons) hc).mpr hlast

theorem intTryParse_intText : intTryParse (intText n) = some n := by
  have htext : (dartTrim (intText n)).toList = intChars n := by
    rw [dartTrim_intText]; exact String.toList_ofList
  have hall : ∀ c ∈ Nat.toDigits 10 n.toInt.natAbs, c.isDigit = true := fun c => isDigit_of_mem_digits
  have hgood : ¬(Nat.toDigits 10 n.toInt.natAbs = [] ∨ ¬(Nat.toDigits 10 n.toInt.natAbs).all Char.isDigit) := by
    simpa [Nat.toDigits_ne_nil] using hall
  unfold intTryParse
  simp only [htext, splitSign_intChars, hexDigits?_of_all hall, if_neg hgood]
  exact signedValue_digits n

example : intTryParse " -0x1F " = some (-31) := by decide

end Portix.Lib
