import Mathlib.Data.Fintype.Basic
import Mathlib.Tactic.FinCases
import Portix.Lib.Json

/-!
# Reading what was written

A value without doubles, whose maps have distinct keys, is read back from its text in any layout.
-/

namespace Portix.Lib.Json

theorem skipSpace_append {ws : List Char} (hws : ∀ c ∈ ws, isSpace c = true) (cs : List Char) :
    skipSpace (ws ++ cs) = skipSpace cs := List.dropWhile_append_of_pos hws

theorem skipSpace_cons {c : Char} (hc : isSpace c = false) (cs : List Char) :
    skipSpace (c :: cs) = c :: cs := List.dropWhile_cons_of_neg (by simp [hc])

@[simp] theorem expect_self (c : Char) (cs : List Char) : expect c (c :: cs) = some cs := if_pos rfl

theorem expect_of_ne {c d : Char} (hne : d ≠ c) (cs : List Char) : expect c (d :: cs) = none :=
  if_neg hne

/-- A text after which a number ends. -/
def Stops (rest : List Char) : Prop :=
  ∀ c cs, rest = c :: cs → c.isDigit = false ∧ c ≠ '.' ∧ c ≠ 'e' ∧ c ≠ 'E'

theorem Stops.nil : Stops [] := by
  rintro c cs ⟨⟩

theorem Stops.cons {c : Char} (cs : List Char)
    (hc : c.isDigit = false ∧ c ≠ '.' ∧ c ≠ 'e' ∧ c ≠ 'E') : Stops (c :: cs) := by
  rintro d ds ⟨⟩
  exact hc

theorem Stops.append_blank {ws rest : List Char} (hws : ∀ c ∈ ws, isSpace c = true)
    (hrest : Stops rest) : Stops (ws ++ rest) := by
  cases ws with
  | nil => exact hrest
  | cons c cs =>
    have hc : isSpace c = true := hws c (List.mem_cons_self ..)
    apply Stops.cons
    simp only [isSpace, Bool.or_eq_true, beq_iff_eq] at hc
    rcases hc with ((rfl | rfl) | rfl) | rfl <;> decide

theorem readEscape_control (n : Fin 32) (rest : List Char) :
    (expect '\\' (escape (Char.ofNat n) ++ rest)).bind readEscape = some (Char.ofNat n, rest) := by
  fin_cases n <;> rfl

theorem readChars_control {c : Char} (hc : c.toNat < 32) (fuel : Nat) (rest : List Char) :
    readChars (fuel + 1) (escape c ++ rest) =
      (readChars fuel rest).map fun r => (c :: r.1, r.2) := by
  have hread := readEscape_control ⟨c.toNat, hc⟩ rest
  have hself : Char.ofNat c.toNat = c := Char.ofNat_toNat c
  simp only [hself] at hread
  obtain ⟨cs, hcs, hesc⟩ := Option.bind_eq_some_iff.mp hread
  have hcons : escape c ++ rest = '\\' :: cs := by
    cases htext : escape c ++ rest with
    | nil => rw [htext] at hcs; cases hcs
    | cons d ds =>
      rw [htext] at hcs
      by_cases hd : d = '\\'
      · subst hd
        rw [expect_self] at hcs
        rw [Option.some.inj hcs]
      · rw [expect_of_ne hd] at hcs; cases hcs
  rw [hcons]
  show (readEscape cs).bind _ = _
  rw [hesc]
  rfl

theorem readChars_escape (c : Char) (fuel : Nat) (rest : List Char) : readChars (fuel + 1) (escape c ++ rest) =
      (readChars fuel rest).map fun r => (c :: r.1, r.2) := by
  by_cases hquote : c = '"'
  · subst hquote; rfl
  · by_cases hslash : c = '\\'
    · subst hslash; rfl
    · by_cases hcontrol : c.toNat < 32
      · exact readChars_control hcontrol fuel rest
      · have htext : escape c = [c] := by
          unfold escape
          rw [if_neg hquote, if_neg hslash, if_neg hcontrol]
        rw [htext]
        show (if c = '"' then _ else _) = _
        rw [if_neg hquote, if_neg hslash, if_neg hcontrol]
        rfl

theorem readChars_flatMap_escape (s : List Char) : ∀ (fuel : Nat) (rest : List Char),
    s.length < fuel → readChars fuel (s.flatMap escape ++ '"' :: rest) = some (s, rest) := by
  induction s with
  | nil =>
    intro fuel rest hfuel
    obtain ⟨n, rfl⟩ : ∃ n, fuel = n + 1 := ⟨fuel - 1, by simp at hfuel; omega⟩
    rfl
  | cons c s ih =>
    intro fuel rest hfuel
    obtain ⟨n, rfl⟩ : ∃ n, fuel = n + 1 := ⟨fuel - 1, by simp at hfuel; omega⟩
    have hn : s.length < n := by simp at hfuel; omega
    rw [List.flatMap_cons, List.append_assoc, readChars_escape, ih n rest hn]
    rfl

theorem escape_length (c : Char) : 1 ≤ (escape c).length := by
  unfold escape
  split_ifs <;> simp

theorem length_le_flatMap_escape (s : List Char) : s.length ≤ (s.flatMap escape).length := by
  induction s with
  | nil => simp
  | cons c s ih =>
    have hone := escape_length c
    rw [List.flatMap_cons, List.length_append, List.length_cons]
    omega

theorem readString_quote (s : String) (rest : List Char) :
    readString (s.toList.flatMap escape ++ '"' :: rest) = some (s, rest) := by
  have hlen := length_le_flatMap_escape s.toList
  have hread := readChars_flatMap_escape s.toList
    ((s.toList.flatMap escape ++ '"' :: rest).length + 1) rest
    (by rw [List.length_append]; omega)
  unfold readString
  rw [hread, Option.map_some, String.ofList_toList]

theorem digits_noLeadingZero (n : Nat) : ¬((Nat.toDigits 10 n).head? = some '0' ∧ (Nat.toDigits 10 n).length ≠ 1) := by
  induction n using Nat.strongRecOn with
  | _ n ih =>
    by_cases hsmall : n < 10
    · rw [Nat.toDigits_of_lt_base hsmall]
      simp
    · rw [Nat.toDigits_of_base_le (by decide) (by omega)]
      have hprev := ih (n / 10) (by omega)
      have hpos : 0 < n / 10 := by omega
      rintro ⟨hhead, -⟩
      rw [List.head?_append_of_ne_nil _ Nat.toDigits_ne_nil] at hhead
      have hone : (Nat.toDigits 10 (n / 10)).length = 1 := by
        by_contra hlen
        exact hprev ⟨hhead, hlen⟩
      have hlt : n / 10 < 10 ^ 1 := (Nat.length_toDigits_le_iff (by decide) (by decide)).mp (by omega)
      rw [Nat.toDigits_of_lt_base (by omega), List.head?_cons, Option.some.injEq, Nat.digitChar_eq_zero] at hhead
      omega

variable {rest : List Char}

theorem takeWhile_digits (n : Nat) (hrest : Stops rest) :
    (Nat.toDigits 10 n ++ rest).takeWhile Char.isDigit = Nat.toDigits 10 n ∧
      (Nat.toDigits 10 n ++ rest).dropWhile Char.isDigit = rest := by
  have hall : ∀ c ∈ Nat.toDigits 10 n, c.isDigit = true := fun c => isDigit_of_mem_digits
  rw [List.takeWhile_append_of_pos hall, List.dropWhile_append_of_pos hall]
  cases rest with
  | nil => simp
  | cons c cs =>
    have hc := (hrest c cs rfl).1
    simp [hc]

theorem skipFraction_of_stops (hrest : Stops rest) : skipFraction rest = some rest := by
  cases rest with
  | nil => rfl
  | cons c cs => unfold skipFraction; rw [expect_of_ne (hrest c cs rfl).2.1]

theorem skipExponent_of_stops (hrest : Stops rest) : skipExponent rest = some rest := by
  cases rest with
  | nil => rfl
  | cons c cs =>
    obtain ⟨-, -, he, hE⟩ := hrest c cs rfl
    unfold skipExponent
    rw [expect_of_ne he, expect_of_ne hE]
    rfl

theorem expect_minus_intChars (n : Int64) (rest : List Char) :
    (expect '-' (intChars n ++ rest)).isSome = decide (n.toInt < 0) ∧
      (expect '-' (intChars n ++ rest)).getD (intChars n ++ rest) = Nat.toDigits 10 n.toInt.natAbs ++ rest := by
  unfold intChars
  by_cases hneg : n.toInt < 0
  · simp [hneg]
  · obtain ⟨d, ds, heq, hd⟩ := digits_eq_cons n.toInt.natAbs
    have hrange := isDigit_iff.mp hd
    have hminus : d ≠ '-' := by rintro rfl; revert hrange; decide
    rw [if_neg hneg, heq, List.cons_append, expect_of_ne hminus]
    simp [hneg]

variable (readDouble : String → String)

theorem readNumber_intChars (n : Int64) (hrest : Stops rest) :
    readNumber readDouble (intChars n ++ rest) = some (.int n, rest) := by
  obtain ⟨hsign, hunsigned⟩ := expect_minus_intChars n rest
  obtain ⟨htake, hdrop⟩ := takeWhile_digits n.toInt.natAbs hrest
  have hgood : ¬(Nat.toDigits 10 n.toInt.natAbs = [] ∨ ((Nat.toDigits 10 n.toInt.natAbs).head? = some '0' ∧
        (Nat.toDigits 10 n.toInt.natAbs).length ≠ 1)) := by
    rintro (hnil | hzero)
    · exact Nat.toDigits_ne_nil hnil
    · exact digits_noLeadingZero _ hzero
  unfold readNumber
  simp only [hunsigned, htake, hdrop, if_neg hgood, skipFraction_of_stops hrest, Option.bind_some,
    skipExponent_of_stops hrest, Option.map_some, if_true, hsign, signedValue_digits,
    Option.getD_some]

theorem readScalar_intChars (n : Int64) (hrest : Stops rest) :
    readScalar readDouble (intChars n ++ rest) = some (.int n, rest) := by
  have hword : ∀ c word, c.isDigit = false → c ≠ '-' → expectAll (c :: word) (intChars n ++ rest) = none := by
    intro c word hdigit hminus
    obtain ⟨d, ds, heq, hd⟩ := digits_eq_cons n.toInt.natAbs
    unfold intChars
    by_cases hneg : n.toInt < 0
    · rw [if_pos hneg, List.cons_append, expectAll, expect_of_ne (Ne.symm hminus)]
      rfl
    · have hne : d ≠ c := by rintro rfl; rw [hd] at hdigit; cases hdigit
      rw [if_neg hneg, heq, List.cons_append, expectAll, expect_of_ne hne]
      rfl
  unfold readScalar
  rw [hword 'n' _ (by decide) (by decide), hword 't' _ (by decide) (by decide), hword 'f' _ (by decide) (by decide)]
  exact readNumber_intChars readDouble n hrest

theorem intChars_eq_cons (n : Int64) : ∃ c cs, intChars n = c :: cs ∧ (c = '-' ∨ c.isDigit = true) := by
  unfold intChars
  by_cases hneg : n.toInt < 0
  · exact ⟨'-', _, if_pos hneg, .inl rfl⟩
  · obtain ⟨d, ds, heq, hd⟩ := digits_eq_cons n.toInt.natAbs
    exact ⟨d, ds, by rw [if_neg hneg, heq], .inr hd⟩

/-- A character that can start a value. -/
def Starts (c : Char) : Prop := isSpace c = false ∧ c ≠ ']' ∧ c ≠ '\x7d'

theorem starts_of_int {c : Char} (hc : c = '-' ∨ c.isDigit = true) : Starts c ∧ c ≠ '"' ∧ c ≠ '[' ∧ c ≠ '\x7b' := by
  rcases hc with rfl | hc
  · exact ⟨⟨by decide, by decide, by decide⟩, by decide, by decide, by decide⟩
  · have hne : ∀ d : Char, d.isDigit = false → c ≠ d := by
      rintro d hd rfl
      rw [hc] at hd
      cases hd
    refine ⟨⟨?_, hne _ (by decide), hne _ (by decide)⟩, hne _ (by decide), hne _ (by decide), hne _ (by decide)⟩
    have hspaces := And.intro (hne ' ' (by decide)) (And.intro (hne '\t' (by decide))
      (And.intro (hne '\n' (by decide)) (hne '\r' (by decide))))
    simpa [isSpace, and_assoc] using hspaces

variable (layout : Layout) (depth : Nat)

theorem print_eq_cons (value : Json) (hplain : value.plain = true) :
    ∃ c cs, print layout depth value = c :: cs ∧ Starts c := by
  have hstarts : ∀ c : Char, c = 'n' ∨ c = 't' ∨ c = 'f' ∨ c = '"' ∨ c = '[' ∨ c = '\x7b' → Starts c := by
    rintro c (rfl | rfl | rfl | rfl | rfl | rfl) <;> exact ⟨by decide, by decide, by decide⟩
  cases value with
  | null => exact ⟨'n', _, rfl, hstarts _ (by simp)⟩
  | bool b =>
    cases b with
    | false => exact ⟨'f', _, rfl, hstarts _ (by simp)⟩
    | true => exact ⟨'t', _, rfl, hstarts _ (by simp)⟩
  | int n =>
    obtain ⟨c, cs, heq, hc⟩ := intChars_eq_cons n
    exact ⟨c, cs, by rw [print, heq], (starts_of_int hc).1⟩
  | double t => simp [plain] at hplain
  | string s => exact ⟨'"', _, rfl, hstarts _ (by simp)⟩
  | list items =>
    cases items with
    | nil => exact ⟨'[', _, rfl, hstarts _ (by simp)⟩
    | cons item rest => exact ⟨'[', _, rfl, hstarts _ (by simp)⟩
  | map entries =>
    cases entries with
    | nil => exact ⟨'\x7b', _, rfl, hstarts _ (by simp)⟩
    | cons entry rest => exact ⟨'\x7b', _, rfl, hstarts _ (by simp)⟩

def printSeq : List Json → List Char
  | [] => []
  | item :: rest => print layout depth item ++ printItems layout depth rest

def printEntrySeq : JsonMap → List Char
  | [] => []
  | (key, value) :: rest => quote key ++ ':' :: layout.afterColon ++ print layout depth value ++
      printEntries layout depth rest

mutual

/-- How far a value reaches down, counted so that it fits into the length of its text. -/
def need : Json → Nat
  | .list items => 1 + needItems items
  | .map entries => 1 + needEntries entries
  | _ => 1

def needItems : List Json → Nat
  | [] => 0
  | item :: rest => 1 + need item + needItems rest

def needEntries : JsonMap → Nat
  | [] => 0
  | (_, value) :: rest => 1 + need value + needEntries rest

end

mutual

theorem need_le_length : ∀ (value : Json) (depth : Nat), value.plain = true →
    need value ≤ (print layout depth value).length
  | .null, _, _ => by simp [need, print]
  | .bool b, _, _ => by cases b <;> simp [need, print]
  | .int n, depth, _ => by
    obtain ⟨c, cs, heq, -⟩ := intChars_eq_cons n
    have hone : need (.int n) = 1 := by simp [need]
    rw [print, heq, hone, List.length_cons]
    omega
  | .string s, _, _ => by simp [need, print, quote]
  | .list [], _, _ => by simp [need, needItems, print]
  | .list (item :: rest), depth, hplain => by
    obtain ⟨hitem, hrest⟩ : item.plain = true ∧ plainItems rest = true := by
      simpa [plain, plainItems] using hplain
    have hone := need_le_length item (depth + 1) hitem
    have hmore := needItems_le_length rest (depth + 1) hrest
    simp only [need, needItems, print, List.length_append, List.length_cons]
    omega
  | .map [], _, _ => by simp [need, needEntries, print]
  | .map ((key, value) :: rest), depth, hplain => by
    obtain ⟨⟨hvalue, hrest⟩, -⟩ : (value.plain = true ∧ plainEntries rest = true) ∧ _ := by
      simpa [plain, plainEntries] using hplain
    have hone := need_le_length value (depth + 1) hvalue
    have hmore := needEntries_le_length rest (depth + 1) hrest
    simp only [need, needEntries, print, List.length_append, List.length_cons]
    omega

theorem needItems_le_length : ∀ (items : List Json) (depth : Nat), plainItems items = true →
    needItems items ≤ (printItems layout depth items).length
  | [], _, _ => by simp [needItems]
  | item :: rest, depth, hplain => by
    obtain ⟨hitem, hrest⟩ : item.plain = true ∧ plainItems rest = true := by
      simpa [plainItems] using hplain
    have hone := need_le_length item depth hitem
    have hmore := needItems_le_length rest depth hrest
    simp only [needItems, printItems, List.length_append, List.length_cons]
    omega

theorem needEntries_le_length : ∀ (entries : JsonMap) (depth : Nat),
    plainEntries entries = true → needEntries entries ≤ (printEntries layout depth entries).length
  | [], _, _ => by simp [needEntries]
  | (key, value) :: rest, depth, hplain => by
    obtain ⟨hvalue, hrest⟩ : value.plain = true ∧ plainEntries rest = true := by
      simpa [plainEntries] using hplain
    have hone := need_le_length value depth hvalue
    have hmore := needEntries_le_length rest depth hrest
    simp only [needEntries, printEntries, List.length_append, List.length_cons]
    omega

end

variable {value : Json}

theorem stops_items (items : List Json) {ws rest : List Char} (hws : ∀ c ∈ ws, isSpace c = true) :
    Stops (printItems layout depth items ++ (ws ++ ']' :: rest)) := by
  cases items with
  | nil =>
    have hend : Stops (']' :: rest) := .cons rest (by decide)
    rw [printItems, List.nil_append]
    exact hend.append_blank hws
  | cons item more =>
    rw [printItems]
    simp only [List.cons_append]
    exact .cons _ (by decide)

theorem stops_entries (entries : JsonMap) {ws rest : List Char}
    (hws : ∀ c ∈ ws, isSpace c = true) :
    Stops (printEntries layout depth entries ++ (ws ++ '\x7d' :: rest)) := by
  cases entries with
  | nil =>
    have hend : Stops ('\x7d' :: rest) := .cons rest (by decide)
    rw [printEntries, List.nil_append]
    exact hend.append_blank hws
  | cons entry more =>
    rw [printEntries]
    simp only [List.cons_append]
    exact .cons _ (by decide)

theorem skipSpace_print (depth : Nat) (hplain : value.plain = true) {ws : List Char}
    (hws : ∀ c ∈ ws, isSpace c = true) (rest : List Char) :
    skipSpace (ws ++ (print layout depth value ++ rest)) = print layout depth value ++ rest := by
  obtain ⟨c, cs, heq, hc⟩ := print_eq_cons layout depth value hplain
  rw [skipSpace_append hws, heq, List.cons_append, skipSpace_cons hc.1]

mutual

theorem readValue_print : ∀ (value : Json) (depth fuel : Nat) (rest : List Char),
    value.plain = true → need value ≤ fuel → Stops rest →
    readValue readDouble fuel (print layout depth value ++ rest) = some (value, rest)
  | value, depth, 0, rest, _, hfuel, _ => by
    have hpos : 0 < need value := by cases value <;> simp only [need] <;> omega
    omega
  | .null, depth, fuel + 1, rest, _, _, _ => rfl
  | .bool b, depth, fuel + 1, rest, _, _, _ => by cases b <;> rfl
  | .int n, depth, fuel + 1, rest, _, _, hrest => by
    obtain ⟨c, cs, heq, hc⟩ := intChars_eq_cons n
    obtain ⟨-, hquote, hopen, hbrace⟩ := starts_of_int hc
    have hscalar := readScalar_intChars readDouble n hrest
    rw [print]
    rw [heq, List.cons_append] at hscalar ⊢
    rw [readValue, expect_of_ne hquote, expect_of_ne hopen, expect_of_ne hbrace]
    exact hscalar
  | .string s, depth, fuel + 1, rest, _, _, _ => by
    have hread := readString_quote s rest
    have htext : print layout depth (.string s) ++ rest = '"' :: (s.toList.flatMap escape ++ '"' :: rest) := by
      rw [print, quote, List.cons_append, List.cons_append, List.append_assoc]
      rfl
    rw [htext, readValue, expect_self]
    show (readString _).map _ = _
    rw [hread]
    rfl
  | .list [], depth, fuel + 1, rest, _, _, _ => rfl
  | .list (item :: more), depth, fuel + 1, rest, hplain, hfuel, _ => by
    have hitems : plainItems (item :: more) = true := hplain
    have hitem : item.plain = true := by
      have hboth : item.plain = true ∧ plainItems more = true := by simpa [plainItems] using hitems
      exact hboth.1
    have hneed : needItems (item :: more) ≤ fuel := by
      have hlist : need (.list (item :: more)) = 1 + needItems (item :: more) := by rw [need]
      omega
    have hread := readItems_print (item :: more) (depth + 1) fuel (layout.lineBreak depth) rest
      (by simp) hitems hneed (layout.lineBreak_blank depth)
    have htext : print layout depth (.list (item :: more)) ++ rest = '[' :: (layout.lineBreak (depth + 1) ++
        (print layout (depth + 1) item ++ (printItems layout (depth + 1) more ++
          (layout.lineBreak depth ++ ']' :: rest)))) := by
      rw [print]
      simp only [List.append_assoc, List.cons_append, List.nil_append]
    have hseq : printSeq layout (depth + 1) (item :: more) ++ (layout.lineBreak depth ++ ']' :: rest) =
        print layout (depth + 1) item ++ (printItems layout (depth + 1) more ++
          (layout.lineBreak depth ++ ']' :: rest)) := by
      rw [printSeq, List.append_assoc]
    obtain ⟨c, cs, hcons, hc⟩ := print_eq_cons layout (depth + 1) item hitem
    have hne : expect ']' (print layout (depth + 1) item ++ (printItems layout (depth + 1) more ++
        (layout.lineBreak depth ++ ']' :: rest))) = none := by
      rw [hcons, List.cons_append, expect_of_ne hc.2.1]
    rw [htext, readValue, expect_of_ne (by decide), expect_self]
    simp only
    rw [skipSpace_print layout (depth + 1) hitem (layout.lineBreak_blank _), hne, ← hseq, hread]
    rfl
  | .map [], depth, fuel + 1, rest, _, _, _ => rfl
  | .map ((key, value) :: more), depth, fuel + 1, rest, hplain, hfuel, _ => by
    obtain ⟨hentries, hkeys⟩ : plainEntries ((key, value) :: more) = true ∧
        (((key, value) :: more).map Prod.fst).Nodup := by
      simpa only [plain, Bool.and_eq_true, decide_eq_true_eq] using hplain
    have hneed : needEntries ((key, value) :: more) ≤ fuel := by
      have hmap : need (.map ((key, value) :: more)) = 1 + needEntries ((key, value) :: more) := by
        rw [need]
      omega
    have hread := readEntries_print ((key, value) :: more) (depth + 1) fuel [] (layout.lineBreak depth)
      rest (by simp) hentries (by simpa using hkeys) hneed (layout.lineBreak_blank depth)
    have htext : print layout depth (.map ((key, value) :: more)) ++ rest =
        '\x7b' :: (layout.lineBreak (depth + 1) ++ (printEntrySeq layout (depth + 1)
          ((key, value) :: more) ++ (layout.lineBreak depth ++ '\x7d' :: rest))) := by
      rw [print, printEntrySeq]
      simp only [List.append_assoc, List.cons_append, List.nil_append]
    have hquote : ∃ cs, printEntrySeq layout (depth + 1) ((key, value) :: more) ++
        (layout.lineBreak depth ++ '\x7d' :: rest) = '"' :: cs := by
      rw [printEntrySeq, quote]
      simp only [List.cons_append]
      exact ⟨_, rfl⟩
    obtain ⟨cs, hcs⟩ := hquote
    have hskip : skipSpace (layout.lineBreak (depth + 1) ++ (printEntrySeq layout (depth + 1)
        ((key, value) :: more) ++ (layout.lineBreak depth ++ '\x7d' :: rest))) =
        printEntrySeq layout (depth + 1) ((key, value) :: more) ++
          (layout.lineBreak depth ++ '\x7d' :: rest) := by
      rw [skipSpace_append (layout.lineBreak_blank _), hcs, skipSpace_cons (by decide)]
    have hne : expect '\x7d' (printEntrySeq layout (depth + 1) ((key, value) :: more) ++
        (layout.lineBreak depth ++ '\x7d' :: rest)) = none := by
      rw [hcs, expect_of_ne (by decide)]
    rw [htext, readValue, expect_of_ne (by decide), expect_of_ne (by decide), expect_self]
    simp only
    rw [hskip, hne, hread]
    rfl

theorem readItems_print : ∀ (items : List Json) (depth fuel : Nat) (ws rest : List Char),
    items ≠ [] → plainItems items = true → needItems items ≤ fuel →
    (∀ c ∈ ws, isSpace c = true) →
    readItems readDouble fuel (printSeq layout depth items ++ (ws ++ ']' :: rest)) = some (items, rest)
  | [], _, _, _, _, hne, _, _, _ => absurd rfl hne
  | item :: more, depth, 0, _, _, _, _, hfuel, _ => by
    simp only [needItems] at hfuel
    omega
  | item :: more, depth, fuel + 1, ws, rest, _, hplain, hfuel, hws => by
    obtain ⟨hitem, hmore⟩ : item.plain = true ∧ plainItems more = true := by
      simpa [plainItems] using hplain
    simp only [needItems] at hfuel
    have hone := readValue_print item depth fuel (printItems layout depth more ++ (ws ++ ']' :: rest))
      hitem (by omega) (stops_items layout depth more hws)
    rw [printSeq, List.append_assoc, readItems, hone, Option.bind_some]
    cases more with
    | nil =>
      have hskip : skipSpace (printItems layout depth [] ++ (ws ++ ']' :: rest)) = ']' :: rest := by
        rw [printItems, List.nil_append, skipSpace_append hws, skipSpace_cons (by decide)]
      simp only [hskip, expect_of_ne (show ']' ≠ ',' by decide), expect_self, Option.map_some]
    | cons next others =>
      have hnext : next.plain = true := by
        have hboth : next.plain = true ∧ plainItems others = true := by
          simpa [plainItems] using hmore
        exact hboth.1
      have hread := readItems_print (next :: others) depth fuel ws rest (by simp) hmore
        (by omega) hws
      have htext : printItems layout depth (next :: others) ++ (ws ++ ']' :: rest) =
          ',' :: (layout.lineBreak depth ++ (print layout depth next ++
            (printItems layout depth others ++ (ws ++ ']' :: rest)))) := by
        rw [printItems]
        simp only [List.append_assoc, List.cons_append]
      rw [printSeq, List.append_assoc] at hread
      simp only [htext, skipSpace_cons (show isSpace ',' = false by decide), expect_self,
        skipSpace_print layout depth hnext (layout.lineBreak_blank depth), hread, Option.map_some]

theorem readEntries_print : ∀ (entries : JsonMap) (depth fuel : Nat)
    (before : JsonMap) (ws rest : List Char), entries ≠ [] →
    plainEntries entries = true → ((before ++ entries).map Prod.fst).Nodup →
    needEntries entries ≤ fuel → (∀ c ∈ ws, isSpace c = true) →
    readEntries readDouble fuel before (printEntrySeq layout depth entries ++ (ws ++ '\x7d' :: rest)) =
      some (before ++ entries, rest)
  | [], _, _, _, _, _, hne, _, _, _, _ => absurd rfl hne
  | (key, value) :: more, depth, 0, _, _, _, _, _, _, hfuel, _ => by
    simp only [needEntries] at hfuel
    omega
  | (key, value) :: more, depth, fuel + 1, before, ws, rest, _, hplain, hkeys, hfuel, hws => by
    obtain ⟨hvalue, hmore⟩ : value.plain = true ∧ plainEntries more = true := by
      simpa [plainEntries] using hplain
    simp only [needEntries] at hfuel
    have hfresh : key ∉ before.map Prod.fst := by
      rw [List.map_append, List.nodup_append] at hkeys
      intro hmem
      exact hkeys.2.2 key hmem key (by simp) rfl
    have hone := readValue_print value depth fuel
      (printEntries layout depth more ++ (ws ++ '\x7d' :: rest)) hvalue (by omega)
      (stops_entries layout depth more hws)
    have htext : printEntrySeq layout depth ((key, value) :: more) ++ (ws ++ '\x7d' :: rest) =
        '"' :: (key.toList.flatMap escape ++ '"' :: (':' :: (layout.afterColon ++
          (print layout depth value ++ (printEntries layout depth more ++ (ws ++ '\x7d' :: rest)))))) := by
      rw [printEntrySeq, quote]
      simp only [List.append_assoc, List.cons_append, List.nil_append]
    rw [htext, readEntries, expect_self, Option.bind_some, readString_quote, Option.bind_some,
      skipSpace_cons (by decide), expect_self, Option.bind_some,
      skipSpace_print layout depth hvalue layout.afterColon_blank, hone, Option.bind_some]
    have hset : set key value before = before ++ [(key, value)] := putEntry_of_notMem hfresh
    simp only [hset]
    cases more with
    | nil =>
      have hskip : skipSpace (printEntries layout depth [] ++ (ws ++ '\x7d' :: rest)) = '\x7d' :: rest := by
        rw [printEntries, List.nil_append, skipSpace_append hws, skipSpace_cons (by decide)]
      simp only [hskip, expect_of_ne (show '\x7d' ≠ ',' by decide), expect_self, Option.map_some]
    | cons next others =>
      obtain ⟨key', value'⟩ := next
      have hread := readEntries_print ((key', value') :: others) depth fuel (before ++ [(key, value)])
        ws rest (by simp) hmore (by simpa using hkeys) (by omega) hws
      have hmoretext : printEntries layout depth ((key', value') :: others) ++ (ws ++ '\x7d' :: rest) =
          ',' :: (layout.lineBreak depth ++ (printEntrySeq layout depth ((key', value') :: others) ++
            (ws ++ '\x7d' :: rest))) := by
        rw [printEntries, printEntrySeq]
        simp only [List.append_assoc, List.cons_append]
      have hskip : skipSpace (layout.lineBreak depth ++ (printEntrySeq layout depth
          ((key', value') :: others) ++ (ws ++ '\x7d' :: rest))) =
          printEntrySeq layout depth ((key', value') :: others) ++ (ws ++ '\x7d' :: rest) := by
        rw [skipSpace_append (layout.lineBreak_blank _), printEntrySeq, quote]
        simp only [List.cons_append]
        exact skipSpace_cons (by decide) _
      simp only [hmoretext, skipSpace_cons (show isSpace ',' = false by decide), expect_self, hskip,
        hread, List.append_assoc, List.singleton_append]

end

theorem decode_encode_append (hplain : value.plain = true) (tail : String)
    (hblank : ∀ c ∈ tail.toList, isSpace c = true) : decode readDouble (encode layout value ++ tail) = some value := by
  have hlen := need_le_length layout value 0 hplain
  have hread := readValue_print readDouble layout value 0 ((print layout 0 value ++ tail.toList).length + 1) tail.toList
    hplain (by rw [List.length_append]; omega) (by simpa using Stops.nil.append_blank hblank)
  have hskip : skipSpace ([] ++ (print layout 0 value ++ tail.toList)) = _ :=
    skipSpace_print layout 0 hplain (by simp) tail.toList
  have hend : skipSpace tail.toList = [] := List.dropWhile_eq_nil_iff.mpr hblank
  rw [List.nil_append] at hskip
  unfold decode encode
  rw [String.toList_append, String.toList_ofList, hskip, hread, Option.bind_some, if_pos hend]

theorem decode_encode (hplain : value.plain = true) : decode readDouble (encode layout value) = some value := by
  have htail := decode_encode_append readDouble layout hplain "" (by simp)
  rwa [String.append_empty] at htail

end Portix.Lib.Json
