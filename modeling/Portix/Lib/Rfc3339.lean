import Mathlib.Data.List.Lex
import Mathlib.Order.Monotone.Basic
import Portix.Lib.Text

/-!
# Stamps

RFC 3339 stamps in UTC, to the second or to the microsecond: the instants that they denote, and the order of their
texts.
-/

namespace Portix.Lib

def leapDay (year : Nat) : Nat := if year % 4 = 0 ∧ (year % 100 ≠ 0 ∨ year % 400 = 0) then 1 else 0

def daysIn (year month : Nat) : Nat :=
  if month = 2 then 28 + leapDay year else if month = 4 ∨ month = 6 ∨ month = 9 ∨ month = 11 then 30 else 31

def daysBeforeYear : Nat → Nat
  | 0 => 0
  | year + 1 => daysBeforeYear year + 365 + leapDay year

def daysBeforeMonth (year : Nat) : Nat → Nat
  | 0 => 0
  | month + 1 => if month = 0 then 0 else daysBeforeMonth year month + daysIn year month

theorem daysBeforeYear_mono : Monotone daysBeforeYear := monotone_nat_of_le_succ fun year => by
  rw [daysBeforeYear]
  omega

theorem daysBeforeMonth_mono (year : Nat) : Monotone (daysBeforeMonth year) := monotone_nat_of_le_succ fun month => by
  rw [daysBeforeMonth]
  split
  next hzero => rw [hzero, daysBeforeMonth]
  next => exact Nat.le_add_right _ _

theorem daysBeforeMonth_succ {year month : Nat} (h : 1 ≤ month) :
    daysBeforeMonth year (month + 1) = daysBeforeMonth year month + daysIn year month := by
  rw [daysBeforeMonth, if_neg (by omega)]

theorem daysBeforeMonth_end (year : Nat) : daysBeforeMonth year 13 = 365 + leapDay year := by
  simp [daysBeforeMonth, daysIn]
  omega

structure Stamp where
  year : Nat
  month : Nat
  day : Nat
  hour : Nat
  minute : Nat
  second : Nat
  micros : Option Nat
  year_lt : year < 10000
  month_pos : 1 ≤ month
  month_le : month ≤ 12
  day_pos : 1 ≤ day
  day_le : day ≤ daysIn year month
  hour_lt : hour < 24
  minute_lt : minute < 60
  second_lt : second < 60
  micros_lt : ∀ m ∈ micros, m < 1000000

def digits : Nat → Nat → List Char
  | 0, _ => []
  | width + 1, n => digits width (n / 10) ++ [Char.ofNat (48 + n % 10)]

namespace Stamp

variable (s : Stamp)

def dateChars : List Char :=
  digits 4 s.year ++ '-' :: (digits 2 s.month ++ '-' :: (digits 2 s.day ++ 'T' ::
    (digits 2 s.hour ++ ':' :: (digits 2 s.minute ++ ':' :: digits 2 s.second))))

def zoneChars : List Char := match s.micros with
  | none => ['Z']
  | some m => '.' :: digits 6 m ++ ['Z']

def text : String := String.ofList (s.dateChars ++ s.zoneChars)

def dayNumber : Nat := daysBeforeYear s.year + daysBeforeMonth s.year s.month + s.day

def seconds : Nat := ((s.dayNumber * 24 + s.hour) * 60 + s.minute) * 60 + s.second

def instant : Nat := s.seconds * 1000000 + s.micros.getD 0

end Stamp

theorem append_lt_append_iff : ∀ {p q s t : List Nat}, p.length = q.length → (p ++ s < q ++ t ↔ p < q ∨ p = q ∧ s < t)
  | [], [], s, t, _ => by simp
  | a :: p, b :: q, s, t, h => by
    have hlength : p.length = q.length := Nat.succ.inj h
    rw [List.cons_append, List.cons_append, List.cons_lt_cons_iff, List.cons_lt_cons_iff, List.cons.injEq,
      append_lt_append_iff hlength]
    tauto

theorem length_digits : ∀ width n : Nat, (digits width n).length = width
  | 0, _ => rfl
  | width + 1, n => by rw [digits, List.length_append, length_digits, List.length_singleton]

theorem toNat_digit {d : Nat} (h : d < 10) : (Char.ofNat (48 + d)).toNat = 48 + d := by
  have hall : ∀ e : Fin 10, (Char.ofNat (48 + e.val)).toNat = 48 + e.val := by decide
  exact hall ⟨d, h⟩

def codes (cs : List Char) : List Nat := cs.map Char.toNat

theorem eq_iff_of_lt_iff {f : Nat → List Nat} {n m : Nat} (hlt : f n < f m ↔ n < m) (hgt : f m < f n ↔ m < n) :
    f n = f m ↔ n = m := by
  refine ⟨fun heq => ?_, fun heq => heq ▸ rfl⟩
  rw [heq] at hlt hgt
  have hirrefl := lt_irrefl (f m)
  have h1 := mt hlt.mpr hirrefl
  have h2 := mt hgt.mpr hirrefl
  omega

theorem codes_digits_lt : ∀ {width n m : Nat}, n < 10 ^ width → m < 10 ^ width →
    (codes (digits width n) < codes (digits width m) ↔ n < m)
  | 0, n, m, hn, hm => by
    simp only [digits, codes, List.map_nil, lt_irrefl, false_iff]
    omega
  | width + 1, n, m, hn, hm => by
    have ih : ∀ {k l : Nat}, k < 10 ^ width → l < 10 ^ width →
        (codes (digits width k) < codes (digits width l) ↔ k < l) := codes_digits_lt
    have hn' : n / 10 < 10 ^ width := by omega
    have hm' : m / 10 < 10 ^ width := by omega
    have heq := eq_iff_of_lt_iff (f := fun k => codes (digits width k)) (ih hn' hm') (ih hm' hn')
    have hlength : (codes (digits width (n / 10))).length = (codes (digits width (m / 10))).length := by
      simp [codes, length_digits]
    have hn10 := Nat.mod_lt n (show 0 < 10 by decide)
    have hm10 := Nat.mod_lt m (show 0 < 10 by decide)
    simp only [codes] at ih heq hlength ⊢
    simp only [digits, List.map_append, List.map_cons, List.map_nil, toNat_digit hn10, toNat_digit hm10]
    rw [append_lt_append_iff hlength, ih hn' hm', heq, List.cons_lt_cons_iff]
    simp only [lt_irrefl, and_false, or_false]
    omega

namespace Stamp

variable {a b : Stamp}

theorem dayNumber_lt (h : a.year < b.year ∨ a.year = b.year ∧ (a.month < b.month ∨ a.month = b.month ∧ a.day < b.day)) :
    a.dayNumber < b.dayNumber := by
  unfold dayNumber
  have hday := a.day_le
  have hsucc : daysBeforeMonth a.year (a.month + 1) = daysBeforeMonth a.year a.month + daysIn a.year a.month :=
    daysBeforeMonth_succ a.month_pos
  rcases h with hyear | ⟨hyear, hmonth | ⟨hmonth, hlt⟩⟩
  · have hend := daysBeforeMonth_end a.year
    have hmono := daysBeforeMonth_mono a.year (show a.month + 1 ≤ 13 from Nat.succ_le_succ a.month_le)
    have hyears := daysBeforeYear_mono (Nat.succ_le_of_lt hyear)
    rw [Nat.succ_eq_add_one, daysBeforeYear] at hyears
    have hpos := b.day_pos
    omega
  · have hmono := daysBeforeMonth_mono a.year (Nat.succ_le_of_lt hmonth)
    have hpos := b.day_pos
    rw [← hyear]
    rw [Nat.succ_eq_add_one] at hmono
    omega
  · rw [← hyear, ← hmonth]
    omega

/-- The fields come one after the other. -/
def Before (a b : Stamp) : Prop :=
  a.year < b.year ∨ a.year = b.year ∧ (a.month < b.month ∨ a.month = b.month ∧ (a.day < b.day ∨ a.day = b.day ∧
    (a.hour < b.hour ∨ a.hour = b.hour ∧ (a.minute < b.minute ∨ a.minute = b.minute ∧ a.second < b.second))))

theorem codes_dateChars_lt : codes a.dateChars < codes b.dateChars ↔ a.Before b := by
  have hlength : ∀ width n m : Nat, (codes (digits width n)).length = (codes (digits width m)).length := by
    simp [codes, length_digits]
  have hdigits : ∀ width n m : Nat, n < 10 ^ width → m < 10 ^ width →
      (codes (digits width n) < codes (digits width m) ↔ n < m) ∧
        (codes (digits width n) = codes (digits width m) ↔ n = m) := fun width n m hn hm =>
    ⟨codes_digits_lt hn hm, eq_iff_of_lt_iff (f := fun k => codes (digits width k)) (codes_digits_lt hn hm)
      (codes_digits_lt hm hn)⟩
  have hsmall : ∀ s : Stamp, s.month < 10 ^ 2 ∧ s.day < 10 ^ 2 ∧ s.hour < 10 ^ 2 ∧ s.minute < 10 ^ 2 ∧
      s.second < 10 ^ 2 := by
    intro s
    have hmonth := s.month_le
    have hday := s.day_le
    have hhour := s.hour_lt
    have hminute := s.minute_lt
    have hsecond := s.second_lt
    unfold daysIn leapDay at hday
    split_ifs at hday <;> omega
  obtain ⟨hmonth, hday, hhour, hminute, hsecond⟩ := hsmall a
  obtain ⟨hmonth', hday', hhour', hminute', hsecond'⟩ := hsmall b
  have hcons : ∀ (c : Char) (cs : List Char), codes (c :: cs) = c.toNat :: codes cs := fun _ _ => rfl
  have happend : ∀ cs cs' : List Char, codes (cs ++ cs') = codes cs ++ codes cs' := fun _ _ => List.map_append
  simp only [dateChars, hcons, happend, append_lt_append_iff (hlength _ _ _), List.cons_lt_cons_iff, lt_irrefl,
    false_or, true_and, hdigits 4 _ _ a.year_lt b.year_lt, hdigits 2 _ _ hmonth hmonth', hdigits 2 _ _ hday hday',
    hdigits 2 _ _ hhour hhour', hdigits 2 _ _ hminute hminute', hdigits 2 _ _ hsecond hsecond']
  rfl

theorem Before.seconds_lt (h : a.Before b) : a.seconds < b.seconds := by
  have hhour := a.hour_lt
  have hminute := a.minute_lt
  have hsecond := a.second_lt
  have hlex := dayNumber_lt (a := a) (b := b)
  have hsame : a.year = b.year → a.month = b.month → a.day = b.day → a.dayNumber = b.dayNumber := by
    intro hyear hmonth hday
    rw [dayNumber, dayNumber, hyear, hmonth, hday]
  unfold seconds
  rcases h with hyear | ⟨hyear, hmonth | ⟨hmonth, hday | ⟨hday, hrest⟩⟩⟩
  · have hlt := hlex (.inl hyear)
    omega
  · have hlt := hlex (.inr ⟨hyear, .inl hmonth⟩)
    omega
  · have hlt := hlex (.inr ⟨hyear, .inr ⟨hmonth, hday⟩⟩)
    omega
  · have heq := hsame hyear hmonth hday
    omega

theorem seconds_lt_iff : codes a.dateChars < codes b.dateChars ↔ a.seconds < b.seconds := by
  rw [codes_dateChars_lt]
  refine ⟨Before.seconds_lt, fun hlt => ?_⟩
  by_contra hnot
  by_cases hback : b.Before a
  · exact lt_asymm hlt hback.seconds_lt
  · unfold Before at hnot hback
    have hsame : a.year = b.year ∧ a.month = b.month ∧ a.day = b.day ∧ a.hour = b.hour ∧ a.minute = b.minute ∧
        a.second = b.second := by omega
    obtain ⟨hyear, hmonth, hday, hhour, hminute, hsecond⟩ := hsame
    rw [seconds, seconds, dayNumber, dayNumber, hyear, hmonth, hday, hhour, hminute, hsecond] at hlt
    exact lt_irrefl _ hlt

theorem seconds_eq_iff : codes a.dateChars = codes b.dateChars ↔ a.seconds = b.seconds := by
  have hlt := seconds_lt_iff (a := a) (b := b)
  have hgt := seconds_lt_iff (a := b) (b := a)
  constructor
  · intro heq
    rw [heq] at hlt hgt
    have h1 := mt hlt.mpr (lt_irrefl _)
    have h2 := mt hgt.mpr (lt_irrefl _)
    omega
  · intro heq
    rcases lt_trichotomy (codes a.dateChars) (codes b.dateChars) with h | h | h
    · exact absurd (hlt.mp h) (by omega)
    · exact h
    · exact absurd (hgt.mp h) (by omega)

theorem toNat_lt_of_mem_digits : ∀ {width n : Nat} {c : Char}, c ∈ digits width n → c.toNat < 0x10000
  | width + 1, n, c, hc => by
    rcases List.mem_append.mp hc with hfront | hlast
    · exact toNat_lt_of_mem_digits hfront
    · have hlt := Nat.mod_lt n (show 0 < 10 by decide)
      rw [List.mem_singleton.mp hlast, toNat_digit hlt]
      omega

theorem units_text (s : Stamp) : units s.text = codes s.dateChars ++ codes s.zoneChars := by
  have hsmall : ∀ c ∈ s.dateChars ++ s.zoneChars, c.toNat < 0x10000 := by
    intro c hc
    have hdigits : ∀ width n, c ∈ digits width n → c.toNat < 0x10000 := fun _ _ => toNat_lt_of_mem_digits
    unfold dateChars zoneChars at hc
    split at hc <;> simp only [List.mem_append, List.mem_cons, List.not_mem_nil, or_false] at hc <;>
      rcases hc with (h | rfl | h | rfl | h | rfl | h | rfl | h | rfl | h) | hzone
    all_goals first | exact hdigits _ _ h | decide | skip
    · rw [hzone]
      decide
    · rcases hzone with (rfl | h) | rfl
      · decide
      · exact hdigits _ _ h
      · decide
  unfold text units codes
  rw [String.toList_ofList, ← List.map_append, List.map_eq_flatMap]
  exact List.flatMap_congr fun c hc => if_pos (hsmall c hc)

theorem units_text_lt : units a.text < units b.text ↔
    a.seconds < b.seconds ∨ a.seconds = b.seconds ∧ match a.micros, b.micros with
      | some m, some m' => m < m'
      | some _, none => True
      | none, _ => False := by
  have hlength : (codes a.dateChars).length = (codes b.dateChars).length := by
    simp [codes, dateChars, length_digits]
  rw [units_text, units_text, append_lt_append_iff hlength, seconds_lt_iff, seconds_eq_iff]
  refine or_congr Iff.rfl (and_congr Iff.rfl ?_)
  have hcodes : ∀ m : Nat, codes ('.' :: digits 6 m ++ ['Z']) = 46 :: (codes (digits 6 m) ++ [90]) := by
    intro m
    simp [codes]
  unfold zoneChars
  cases ha : a.micros with
  | none =>
    cases hb : b.micros with
    | none => simp [codes]
    | some m' => simp [codes, List.cons_lt_cons_iff]
  | some m =>
    cases hb : b.micros with
    | none => simp [codes, List.cons_lt_cons_iff]
    | some m' =>
      have hlength' : (codes (digits 6 m)).length = (codes (digits 6 m')).length := by simp [codes, length_digits]
      dsimp only
      rw [hcodes, hcodes, List.cons_lt_cons_iff, append_lt_append_iff hlength',
        codes_digits_lt (a.micros_lt m ha) (b.micros_lt m' hb)]
      simp

end Stamp

end Portix.Lib
