import Portix.Lib.Text

/-!
# Points in time

`DateTime` of Dart as microseconds since the epoch, in UTC. A `Duration` is a number of microseconds.
-/

namespace Portix.Lib

namespace DateTime

def microsecondsPerSecond : Int := 1000000

def millisecondsSinceEpoch (time : Int) : Int := time.tdiv 1000

/-- The day of a number of days since the epoch, in the proleptic Gregorian calendar: year, month and
day of the month. The years of an era of 400 years are counted from its first of March. -/
def civil (days : Int) : Int × Nat × Nat :=
  let shifted := days + 719468
  let era := shifted / 146097
  let dayOfEra := (shifted % 146097).toNat
  let yearOfEra := (dayOfEra - dayOfEra / 1460 + dayOfEra / 36524 - dayOfEra / 146096) / 365
  let dayOfYear := dayOfEra - (365 * yearOfEra + yearOfEra / 4 - yearOfEra / 100)
  let shiftedMonth := (5 * dayOfYear + 2) / 153
  let day := dayOfYear - (153 * shiftedMonth + 2) / 5 + 1
  let month := if shiftedMonth < 10 then shiftedMonth + 3 else shiftedMonth - 9
  (yearOfEra + era * 400 + (if month ≤ 2 then 1 else 0), month, day)

example : civil 0 = (1970, 1, 1) ∧ civil 19782 = (2024, 2, 29) ∧ civil (-1) = (1969, 12, 31) := by
  decide

def padded (width n : Nat) : List Char := (Nat.toDigits 10 n).leftpad width '0'

def yearChars (year : Int) : List Char :=
  if year.natAbs ≤ 9999 then (if year < 0 then ['-'] else []) ++ padded 4 year.natAbs
  else (if year < 0 then '-' else '+') :: padded 6 year.natAbs

def isoChars (time : Int) : List Char :=
  let seconds := time / microsecondsPerSecond
  let micros := (time % microsecondsPerSecond).toNat
  let (year, month, day) := civil (seconds / 86400)
  let second := (seconds % 86400).toNat
  yearChars year ++ ['-'] ++ padded 2 month ++ ['-'] ++ padded 2 day ++ ['T'] ++
    padded 2 (second / 3600) ++ [':'] ++ padded 2 (second / 60 % 60) ++ [':'] ++ padded 2 (second % 60) ++
    ['.'] ++ padded 3 (micros / 1000) ++ (if micros % 1000 = 0 then [] else padded 3 (micros % 1000)) ++
    ['Z']

def toIso8601String (time : Int) : String := String.ofList (isoChars time)

example : toIso8601String 1709210096789000 = "2024-02-29T12:34:56.789Z" := by decide

def isTimeChar (c : Char) : Bool := c.isDigit || c ∈ ['-', '+', ':', '.', 'T', 'Z']

@[simp] theorem all_padded (width n : Nat) : (padded width n).all isTimeChar = true := by
  have hdigits : ∀ c ∈ Nat.toDigits 10 n, isTimeChar c = true := by
    intro c hc
    rw [isTimeChar, Nat.isDigit_of_mem_toDigits (by omega) (by omega) hc, Bool.true_or]
  have hzeros : ∀ c ∈ List.replicate (width - (Nat.toDigits 10 n).length) '0', isTimeChar c = true := by
    intro c hc
    rw [List.eq_of_mem_replicate hc]
    rfl
  unfold padded List.leftpad
  rw [List.all_append, List.all_eq_true.mpr hdigits, List.all_eq_true.mpr hzeros, Bool.and_true]

@[simp] theorem all_yearChars (year : Int) : (yearChars year).all isTimeChar = true := by
  unfold yearChars
  split_ifs <;> simp [isTimeChar]

theorem all_isoChars (time : Int) : (isoChars time).all isTimeChar = true := by
  unfold isoChars
  dsimp only
  split_ifs <;> simp [isTimeChar]

end DateTime

end Portix.Lib
