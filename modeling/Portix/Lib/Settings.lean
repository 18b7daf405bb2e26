import Portix.Lib.Integers

/-!
# Lines of settings

Lines `key:type:value`, and the settings that the last line of each key gives. Languages differ in what
they trim, and in the numbers they read.
-/

namespace Portix.Lib

/-- The text before the first occurrence of a character, and the text after it. -/
def splitFirst (c : Char) (s : String) : Option (String × String) :=
  if c ∈ s.toList then
    some (String.ofList (s.toList.takeWhile (· ≠ c)), String.ofList (s.toList.dropWhile (· ≠ c)).tail)
  else none

/-- The text before the first occurrence of a character; all of it if there is none. -/
def beforeFirst (c : Char) (s : String) : String :=
  match splitFirst c s with
  | some (before, _) => before
  | none => s

section SplitFirst

variable {c : Char} {s before after : String}

theorem splitFirst_eq_none_iff : splitFirst c s = none ↔ c ∉ s.toList := by
  unfold splitFirst
  split <;> simp_all

theorem toList_of_splitFirst (h : splitFirst c s = some (before, after)) :
    s.toList = before.toList ++ c :: after.toList ∧ c ∉ before.toList := by
  unfold splitFirst at h
  split at h
  case isTrue hmem =>
    simp only [Option.some.injEq, Prod.mk.injEq] at h
    obtain ⟨rfl, rfl⟩ := h
    have hne : s.toList.dropWhile (· ≠ c) ≠ [] := by
      rw [Ne, List.dropWhile_eq_nil_iff]
      intro hall
      exact absurd (hall c hmem) (by simp)
    have hhead : (s.toList.dropWhile (· ≠ c)).head hne = c := by
      simpa using List.head_dropWhile_not (· ≠ c) hne
    constructor
    · rw [String.toList_ofList, String.toList_ofList]
      calc s.toList = s.toList.takeWhile (· ≠ c) ++ s.toList.dropWhile (· ≠ c) :=
            List.takeWhile_append_dropWhile.symm
        _ = s.toList.takeWhile (· ≠ c) ++ c :: (s.toList.dropWhile (· ≠ c)).tail := by
            rw [← List.cons_head_tail hne, hhead, List.tail_cons]
    · rw [String.toList_ofList]
      intro hc
      exact absurd (List.mem_takeWhile_imp hc) (by simp)
  case isFalse => cases h

theorem splitFirst_of_toList (hs : s.toList = before.toList ++ c :: after.toList) (hbefore : c ∉ before.toList) :
    splitFirst c s = some (before, after) := by
  have hall : ∀ d ∈ before.toList, decide (d ≠ c) = true := by
    intro d hd
    exact decide_eq_true fun hsame => hbefore (hsame ▸ hd)
  unfold splitFirst
  rw [if_pos (by simp [hs]), hs, List.takeWhile_append_of_pos hall, List.dropWhile_append_of_pos hall]
  simp

theorem splitChar_of_splitFirst (h : splitFirst c s = some (before, after)) :
    splitChar c s = before :: splitChar c after := by
  obtain ⟨hs, hbefore⟩ := toList_of_splitFirst h
  unfold splitChar
  rw [hs, List.splitOn_append_cons_self_of_not_mem hbefore, List.map_cons, String.ofList_toList]

theorem splitChar_of_splitFirst_none (h : splitFirst c s = none) : splitChar c s = [s] := by
  unfold splitChar
  rw [List.splitOn_eq_singleton (splitFirst_eq_none_iff.mp h), List.map_singleton, String.ofList_toList]

theorem splitChar_eq_cons (c : Char) (s : String) : ∃ rest, splitChar c s = beforeFirst c s :: rest := by
  unfold beforeFirst
  cases h : splitFirst c s with
  | none => exact ⟨[], splitChar_of_splitFirst_none h⟩
  | some parts => exact ⟨_, splitChar_of_splitFirst h⟩

theorem intercalate_splitChar (c : Char) (s : String) : (String.singleton c).intercalate (splitChar c s) = s := by
  have hpieces : (splitChar c s).map String.toList = s.toList.splitOn c := by
    unfold splitChar
    rw [List.map_map]
    exact List.map_id'' (fun _ => String.toList_ofList) _
  rw [← String.toList_inj, String.toList_intercalate, hpieces, String.toList_singleton, List.intercalate_splitOn]

theorem splitChar_intercalate (c : Char) {pieces : List String} (hunbroken : ∀ piece ∈ pieces, c ∉ piece.toList)
    (hne : pieces ≠ []) : splitChar c ((String.singleton c).intercalate pieces) = pieces := by
  unfold splitChar
  rw [String.toList_intercalate, String.toList_singleton, List.splitOn_intercalate]
  · rw [List.map_map]
    exact List.map_id'' (fun _ => String.ofList_toList) _
  · intro chars hmem
    obtain ⟨piece, hpiece, rfl⟩ := List.mem_map.mp hmem
    exact hunbroken piece hpiece
  · exact fun hnil => hne (List.map_eq_nil_iff.mp hnil)

end SplitFirst

namespace Settings

/-- The key and the value of a line; the type between them is not looked at, and may be missing. -/
def parseLine (trim : String → String) (line : String) : Option (String × String) :=
  let trimmed := trim line
  if trimmed = "" then none
  else (splitFirst ':' trimmed).map fun (key, rest) =>
    (trim key, match splitFirst ':' rest with
      | some (_, value) => trim value
      | none => trim rest)

def collect (entries : List (String × String)) : String → Option String :=
  entries.foldl (fun map entry => Function.update map entry.1 (some entry.2)) fun _ => none

def lastValue (test : String → Bool) (entries : List (String × String)) : Option String :=
  (entries.reverse.find? fun entry => test entry.1).map Prod.snd

theorem collect_eq_lastValue (entries : List (String × String)) (key : String) :
    collect entries key = lastValue (· == key) entries := by
  unfold collect lastValue
  induction entries using List.reverseRecOn with
  | nil => rfl
  | append_singleton entries entry ih =>
    rw [List.foldl_append, List.reverse_append, List.foldl_cons, List.foldl_nil, List.reverse_singleton,
      List.singleton_append]
    by_cases hkey : entry.1 = key
    · have hfind : (entry :: entries.reverse).find? (fun e => e.1 == key) = some entry :=
        List.find?_cons_of_pos (beq_iff_eq.mpr hkey)
      rw [hfind, ← hkey, Function.update_self]
      rfl
    · have hfind : (entry :: entries.reverse).find? (fun e => e.1 == key) =
          entries.reverse.find? (fun e => e.1 == key) :=
        List.find?_cons_of_neg fun h => hkey (beq_iff_eq.mp h)
      rw [hfind, Function.update_of_ne (Ne.symm hkey), ih]

theorem lastValue_map (change : String → String) (entries : List (String × String)) (key : String) :
    lastValue (· == key) (entries.map fun entry => (change entry.1, entry.2)) =
      lastValue (fun k => change k == key) entries := by
  unfold lastValue
  rw [← List.map_reverse, List.find?_map, Option.map_map]
  rfl

end Settings

/-- `str::parse` for an integer between two bounds, of which the lower one says whether it has a sign. -/
def parseInteger (lower upper : Int) (s : String) : Option Int :=
  let (negative, digits) := match s.toList with
    | '-' :: rest => if lower < 0 then (true, rest) else (false, '-' :: rest)
    | '+' :: rest => (false, rest)
    | cs => (false, cs)
  if digits = [] ∨ ¬digits.all Char.isDigit then none
  else
    let value : Int := if negative then -(Nat.ofDigitChars 10 digits 0 : Int) else Nat.ofDigitChars 10 digits 0
    if lower ≤ value ∧ value ≤ upper then some value else none

def parseU16 (s : String) : Option UInt16 :=
  (parseInteger 0 65535 s).map fun value => UInt16.ofNat value.toNat

def parseI32 (s : String) : Option Int := parseInteger (-2 ^ 31) (2 ^ 31 - 1) s

example : parseU16 "+80" = some 80 ∧ parseU16 "-0" = none ∧ parseI32 "-0" = some 0 ∧ parseU16 "65536" = none := by
  decide

end Portix.Lib
