import Mathlib.Algebra.BigOperators.Group.List.Basic
import Mathlib.Tactic.NormNum
import Portix.Kubernetes.Quantities

/-!
# Quantities are read where their suffix is known

An unknown suffix ends a number that cannot be read, and stands for zero.
-/

namespace Portix.Kubernetes

open Lib

theorem suffixes_letters : ∀ entry ∈ suffixes, ∀ c ∈ entry.1.toList, c.isAlpha = true := by
  have hall : suffixes.all (fun entry => entry.1.toList.all Char.isAlpha) = true := by decide
  exact fun entry hentry => List.all_eq_true.mp (List.all_eq_true.mp hall entry hentry)

theorem letter_plain {c : Char} (hc : c.isAlpha = true) : c.isDigit = false ∧ c ≠ '.' ∧ isDartWhitespace c = false := by
  have hrange : 65 ≤ c.toNat ∧ c.toNat ≤ 122 := by
    change (decide ('A'.val ≤ c.val ∧ c.val ≤ 'Z'.val) || (decide ('a'.val ≤ c.val) && decide (c.val ≤ 'z'.val))) = true
      at hc
    simp only [Bool.or_eq_true, Bool.and_eq_true, decide_eq_true_eq, UInt32.le_iff_toNat_le] at hc
    show 65 ≤ c.val.toNat ∧ c.val.toNat ≤ 122
    have hupper : 'A'.val.toNat = 65 ∧ 'Z'.val.toNat = 90 ∧ 'a'.val.toNat = 97 ∧ 'z'.val.toNat = 122 := by decide
    omega
  refine ⟨?_, ?_, ?_⟩
  · rw [← Bool.not_eq_true, isDigit_iff]
    omega
  · rintro rfl
    exact absurd hrange.1 (by decide)
  · simp only [isDartWhitespace, isWhitespace, Bool.or_eq_false_iff, Bool.and_eq_false_iff, decide_eq_false_iff_not,
      beq_eq_false_iff_ne]
    omega

theorem sign_plain {sign : Option Bool} {c : Char} (hc : c ∈ signChars sign) : isDartWhitespace c = false := by
  revert hc
  rcases sign with _ | _ | _
  · exact fun hc => absurd hc List.not_mem_nil
  all_goals
    intro hc
    rw [List.mem_singleton.mp hc]
    decide

namespace Suffix

theorem plain (suffix : Suffix) : ∀ c ∈ suffix.chars, isDartWhitespace c = false := by
  intro c hc
  cases suffix with
  | unit text base power h => exact (letter_plain (suffixes_letters _ h c hc)).2.2
  | exponent e =>
    rcases List.mem_cons.mp hc with rfl | hc
    · cases e.upper <;> decide
    · rcases List.mem_append.mp hc with hsign | hdigits
      · exact sign_plain hsign
      · exact isDartWhitespace_of_isDigit (e.isDigit c hdigits)

theorem ends (suffix : Suffix) : NumberEnds suffix.chars := by
  intro c hc
  cases suffix with
  | unit text base power h =>
    have hletter := letter_plain (suffixes_letters _ h c (List.mem_of_mem_head? hc))
    exact ⟨hletter.1, hletter.2.1⟩
  | exponent e =>
    rw [← Option.some.inj hc]
    cases e.upper <;> decide

end Suffix

namespace Quantity

variable {q : Quantity}

theorem number_plain (d : Decimal) : ∀ c ∈ d.chars, isDartWhitespace c = false := by
  intro c hc
  rcases d.of_mem_chars hc with hdigit | rfl | rfl | rfl
  · exact isDartWhitespace_of_isDigit hdigit
  all_goals decide

theorem plain (q : Quantity) : ∀ c ∈ q.number.chars ++ q.suffix.chars, isDartWhitespace c = false := fun c hc =>
  (List.mem_append.mp hc).elim (number_plain q.number c) (q.suffix.plain c)

theorem tryParse_text (q : Quantity) :
    doubleTryParse q.text = (readExponent q.suffix.chars).map fun exponent => q.number.value * 10 ^ exponent := by
  rw [text, doubleTryParse_ofList q.plain, readDecimal_append q.number q.suffix.ends]

theorem tryParse_number (d : Decimal) : doubleTryParse (String.ofList d.chars) = some d.value := by
  have hread : readDecimal (d.chars ++ []) = (readExponent []).map fun exponent => d.value * 10 ^ exponent :=
    readDecimal_append d fun c hc => absurd hc (Option.not_mem_none c)
  rw [List.append_nil] at hread
  rw [doubleTryParse_ofList (number_plain d), hread, readExponent, Option.map_some, zpow_zero, mul_one]

/-- The number before a suffix does not end with a letter. -/
theorem last_number (d : Decimal) : ∃ front c, d.chars = front ++ [c] ∧ c.isAlpha = false := by
  have hne : d.chars ≠ [] := by
    intro hnil
    obtain ⟨-, hrest⟩ := List.append_eq_nil_iff.mp hnil
    obtain ⟨hwhole, hfraction⟩ := List.append_eq_nil_iff.mp hrest
    refine d.nonempty ⟨hwhole, ?_⟩
    cases hd : d.fraction with
    | none => rfl
    | some digits =>
      rw [hd] at hfraction
      cases hfraction
  refine ⟨d.chars.dropLast, d.chars.getLast hne, (List.dropLast_append_getLast hne).symm, ?_⟩
  by_contra halpha
  rw [Bool.not_eq_false] at halpha
  have hplain := letter_plain halpha
  rcases d.of_mem_chars (List.getLast_mem hne) with hdigit | hpoint | hminus | hplus
  · rw [hdigit] at hplain
    cases hplain.1
  · exact hplain.2.1 hpoint
  · rw [hminus] at halpha
    cases halpha
  · rw [hplus] at halpha
    cases halpha

theorem suffix_append_iff {d : Decimal} {letters rest : List Char} (hletters : ∀ c ∈ letters, c.isAlpha = true) :
    letters <:+ d.chars ++ rest ↔ letters <:+ rest := by
  refine ⟨fun h => ?_, fun h => h.trans (List.suffix_append _ _)⟩
  rcases List.suffix_or_suffix_of_suffix h (List.suffix_append _ _) with hletter | ⟨more, hmore⟩
  · exact hletter
  · obtain ⟨front, c, hd, hc⟩ := last_number d
    rcases List.eq_nil_or_concat more with rfl | ⟨start, last, rfl⟩
    · exact ⟨[], hmore.symm⟩
    · rw [← hmore, hd, List.concat_append, List.append_assoc] at h
      obtain ⟨before, hbefore⟩ := h
      have hcut : before ++ (start ++ [last]) = front ++ [c] := by
        refine List.append_cancel_right (?_ : _ ++ rest = _ ++ rest)
        rw [List.append_assoc, List.append_assoc, List.append_assoc, ← hbefore]
        rfl
      rw [← List.append_assoc] at hcut
      have hsame : last = c := List.singleton_inj.mp (List.append_inj' hcut rfl).2
      have hletter := hletters last (hmore ▸ by simp)
      rw [hsame, hc] at hletter
      cases hletter

theorem not_suffix_exponent {letters : List Char} (hletters : ∀ c ∈ letters, c.isAlpha = true) (hne : letters ≠ [])
    (e : Exponent) : ¬ letters <:+ e.chars := by
  rintro ⟨before, hbefore⟩
  have hlast := congrArg List.getLast? hbefore
  rw [List.getLast?_append_of_ne_nil _ hne, Exponent.chars, ← List.cons_append,
    List.getLast?_append_of_ne_nil _ e.nonempty, List.getLast?_eq_some_getLast hne,
    List.getLast?_eq_some_getLast e.nonempty] at hlast
  have hdigit := e.isDigit _ (List.getLast_mem e.nonempty)
  rw [← Option.some.inj hlast, (letter_plain (hletters _ (List.getLast_mem hne))).1] at hdigit
  cases hdigit

/-- A quantity ends with letters as its suffix does. -/
theorem hasEnd_iff (q : Quantity) {ending : String} (hletters : ∀ c ∈ ending.toList, c.isAlpha = true) :
    hasEnd ending q.text = true ↔ ending.toList <:+ q.suffix.chars := by
  rw [hasEnd, List.isSuffixOf_iff_suffix, text, String.toList_ofList, suffix_append_iff hletters]

theorem dropEnd_text (q : Quantity) {count : Nat} (h : q.suffix.chars.length = count) :
    dropEnd count q.text = String.ofList q.number.chars := by
  rw [dropEnd, text, String.toList_ofList, List.length_append, h, Nat.add_sub_cancel, List.take_left]

theorem factor_ne_zero : ∀ suffix : Suffix, suffix.factor ≠ 0
  | .unit text base power h => by
    have hbase : ∀ entry ∈ suffixes, entry.2.1 ≠ 0 := by decide
    exact zpow_ne_zero _ (Nat.cast_ne_zero.mpr (hbase _ h))
  | .exponent _ => zpow_ne_zero _ (by norm_num)

theorem zero_eq_value (q : Quantity) : 0 = q.value ↔ q.number.value = 0 := by
  rw [eq_comm, value, mul_eq_zero, or_iff_left (factor_ne_zero _)]

theorem getD_eq_value (q : Quantity) : (doubleTryParse q.text).getD 0 = q.value ↔ q.HasSuffix [""] := by
  have hread : ∀ entry ∈ suffixes,
      (entry.1 = "" ∧ entry.2.2 = 0) ∨ (entry.1 ≠ "" ∧ readExponent entry.1.toList = none) := by
    decide
  rw [tryParse_text, HasSuffix]
  cases hs : q.suffix with
  | unit text base power h =>
    rcases hread _ h with ⟨htext, hpower⟩ | ⟨htext, hnone⟩
    · have htext : text = "" := htext
      have hpower : power = 0 := hpower
      subst htext hpower
      refine iff_of_true ?_ (.inr (List.mem_singleton.mpr rfl))
      rw [value, hs, Suffix.factor, zpow_zero]
      exact congrArg (q.number.value * ·) (zpow_zero _)
    · show ((readExponent text.toList).map _).getD 0 = q.value ↔ q.number.value = 0 ∨ text ∈ [""]
      rw [hnone, List.mem_singleton, or_iff_left htext]
      exact zero_eq_value q
  | exponent e =>
    refine iff_of_true ?_ (.inr trivial)
    rw [value, hs]
    exact congrArg (fun read => (read.map fun exponent => q.number.value * 10 ^ exponent).getD 0) (readExponent_chars e)

/-- One more suffix is known, which is another. -/
theorem hasSuffix_iff_of_not {q : Quantity} {known known' : List String}
    (h : ∀ text base power h, q.suffix = .unit text base power h → (text ∈ known ↔ text ∈ known')) :
    q.HasSuffix known ↔ q.HasSuffix known' := by
  rw [HasSuffix, HasSuffix]
  cases hs : q.suffix with
  | unit text base power hmem => exact or_congr_right (h text base power hmem hs)
  | exponent e => rfl

theorem parseCpu_eq_iff (q : Quantity) : parseCpu q.text = q.value ↔ q.CpuRead := by
  have hmilli : ∀ entry ∈ suffixes, ("m".toList <:+ entry.1.toList) → entry = ("m", 10, -3) := by decide
  have hletters : ∀ c ∈ "m".toList, c.isAlpha = true := List.all_eq_true.mp (by decide)
  rw [parseCpu]
  by_cases hend : hasEnd "m" q.text = true
  · rw [if_pos hend]
    replace hend := (q.hasEnd_iff hletters).mp hend
    cases hs : q.suffix with
    | exponent e =>
      rw [hs] at hend
      exact absurd hend (not_suffix_exponent hletters (by decide) e)
    | unit text base power h =>
      rw [hs] at hend
      cases hmilli _ h hend
      refine iff_of_true ?_ (.inr ?_)
      · rw [dropEnd_text q (by rw [hs]; rfl), tryParse_number, value, hs, Suffix.factor, div_eq_mul_inv]
        norm_num
      · rw [hs]
        exact List.mem_cons_of_mem _ List.mem_cons_self
  · rw [if_neg hend, getD_eq_value]
    refine hasSuffix_iff_of_not fun text base power h hs => ?_
    have hne : text ≠ "m" := by
      rintro rfl
      exact hend ((q.hasEnd_iff hletters).mpr (hs ▸ List.suffix_refl _))
    simp [hne]

theorem parseBytes_eq_iff (q : Quantity) : parseBytes q.text = q.value ↔ q.BytesRead := by
  have hall : byteUnits.all (fun entry => entry.1.toList.all Char.isAlpha) = true := by decide
  have hletters : ∀ entry ∈ byteUnits, ∀ c ∈ entry.1.toList, c.isAlpha = true := fun entry hentry =>
    List.all_eq_true.mp (List.all_eq_true.mp hall entry hentry)
  have hne : ∀ entry ∈ byteUnits, entry.1.toList ≠ [] := by decide
  have hunits : ∀ entry ∈ byteUnits, ∀ suffix ∈ suffixes, entry.1.toList <:+ suffix.1.toList →
      suffix.1 = entry.1 ∧ suffix.1 ∈ ["", "Ki", "Mi", "Gi", "Ti", "M", "G", "T"] ∧ 0 ≤ suffix.2.2 ∧
        entry.2 = suffix.2.1 ^ suffix.2.2.toNat := by
    decide
  have hlisted : ∀ unit ∈ ["Ki", "Mi", "Gi", "Ti", "M", "G", "T"], ∃ entry ∈ byteUnits, entry.1 = unit := by
    decide
  rw [parseBytes]
  split
  next unit factor hfind =>
    have hmem := List.mem_of_find?_eq_some hfind
    have hhit := List.find?_some hfind
    have hend := (q.hasEnd_iff (hletters _ hmem)).mp hhit
    cases hs : q.suffix with
    | exponent e =>
      rw [hs] at hend
      exact absurd hend (not_suffix_exponent (hletters _ hmem) (hne _ hmem) e)
    | unit text base power h =>
      rw [hs] at hend
      obtain ⟨htext, hknown, hpower, hfactor⟩ := hunits _ hmem _ h hend
      obtain ⟨power, rfl⟩ := Int.eq_ofNat_of_zero_le hpower
      obtain rfl : text = unit := htext
      obtain rfl : factor = base ^ power := hfactor
      refine iff_of_true ?_ (.inr ?_)
      · rw [dropEnd_text q (by rw [hs]; rfl), tryParse_number, value, hs, Suffix.factor, zpow_natCast, Nat.cast_pow]
        rfl
      · rw [hs]
        exact hknown
  next hfind =>
    rw [getD_eq_value]
    refine hasSuffix_iff_of_not fun text base power h hs => ?_
    have hnot : text ∉ ["Ki", "Mi", "Gi", "Ti", "M", "G", "T"] := by
      intro hunit
      obtain ⟨entry, hentry, rfl⟩ := hlisted text hunit
      exact List.find?_eq_none.mp hfind entry hentry
        ((q.hasEnd_iff (hletters _ hentry)).mpr (hs ▸ List.suffix_refl _))
    rw [List.mem_singleton, List.mem_cons, or_iff_left hnot]

end Quantity

def pieces (chars : List Char) : List String :=
  (chars.splitOnP isRegExpSpace).filterMap fun column => if column = [] then none else some (String.ofList column)

theorem not_isRegExpSpace {c : Char} (hc : isDartWhitespace c = false) : isRegExpSpace c = false := by
  rw [isRegExpSpace, hc, Bool.false_and]

theorem pieces_gap (n : Nat) (rest : List Char) : pieces (List.replicate n ' ' ++ rest) = pieces rest := by
  induction n with
  | zero => rfl
  | succ n ih =>
    rw [List.replicate_succ, List.cons_append, pieces, List.splitOnP_cons_eq_if_modifyHead, if_pos (by decide)]
    exact ih

theorem pieces_word (word : Word) : pieces word.chars = [String.ofList word.chars] := by
  rw [pieces, List.splitOnP_eq_singleton fun c hc => not_isRegExpSpace (word.unspaced c hc), List.filterMap_cons,
    if_neg word.nonempty]
  rfl

theorem pieces_cell (word : Word) (n : Nat) (rest : List Char) :
    pieces (word.chars ++ gap n ++ rest) = String.ofList word.chars :: pieces rest := by
  rw [gap, List.replicate_succ, List.append_assoc, List.cons_append, pieces,
    List.splitOnP_append_cons_of_forall_mem (fun c hc => not_isRegExpSpace (word.unspaced c hc)) ' ' (by decide),
    List.filterMap_cons, if_neg word.nonempty]
  exact congrArg (String.ofList word.chars :: ·) (pieces_gap n rest)

theorem rdropWhile_padding {cs : List Char} (n : Nat) (hne : cs ≠ [])
    (hlast : isDartWhitespace (cs.getLast hne) = false) :
    (cs ++ List.replicate n ' ').rdropWhile isDartWhitespace = cs := by
  induction n with
  | zero =>
    rw [List.replicate_zero, List.append_nil, List.rdropWhile_eq_self_iff]
    exact fun _ => Bool.not_eq_true _ ▸ hlast
  | succ n ih => rw [List.replicate_succ', ← List.append_assoc, List.rdropWhile_concat_pos _ _ ' ' (by decide), ih]

namespace Quantity

def word (q : Quantity) : Word where
  chars := q.text.toList
  nonempty := by
    obtain ⟨front, c, hd, -⟩ := last_number q.number
    rw [text, String.toList_ofList, hd]
    simp
  unspaced c hc := plain q c (by rwa [text, String.toList_ofList] at hc)

theorem ofList_word (q : Quantity) : String.ofList q.word.chars = q.text := String.ofList_toList

end Quantity

namespace TopRow

variable (row : TopRow)

def body : List Char := row.cells.flatMap (fun cell => cell.1 ++ gap cell.2) ++ row.memoryShare.chars

theorem body_eq : row.body =
    row.name.chars ++ gap (row.padding 0) ++ (row.cpu.word.chars ++ gap (row.padding 1) ++
      (row.cpuShare.chars ++ gap (row.padding 2) ++ (row.memory.word.chars ++ gap (row.padding 3) ++
        row.memoryShare.chars))) := by
  simp [body, cells, Quantity.word]

theorem chars_eq_body : row.chars = row.body ++ List.replicate (row.padding 4) ' ' := rfl

theorem pieces_body : pieces row.body = [String.ofList row.name.chars, row.cpu.text,
    String.ofList row.cpuShare.chars, row.memory.text, String.ofList row.memoryShare.chars] := by
  rw [body_eq, pieces_cell, pieces_cell, pieces_cell, pieces_cell, pieces_word, Quantity.ofList_word,
    Quantity.ofList_word]

theorem toList_trim : (dartTrim (String.ofList row.chars)).toList = row.body := by
  obtain ⟨c, cs, hname⟩ := List.exists_cons_of_ne_nil row.name.nonempty
  have hfirst : isDartWhitespace c = false := row.name.unspaced c (hname ▸ List.mem_cons_self)
  have hne : row.body ≠ [] := by simp [body_eq, hname]
  have hlast : isDartWhitespace (row.body.getLast hne) = false := by
    refine row.memoryShare.unspaced _ ?_
    simp [body, row.memoryShare.nonempty]
  have hcons : ∃ rest, (String.ofList row.chars).toList = c :: rest := by
    rw [String.toList_ofList, chars_eq_body, body_eq, hname]
    exact ⟨_, rfl⟩
  obtain ⟨rest, hcons⟩ := hcons
  rw [dartTrim, toList_trimBy_of_head hcons hfirst, String.toList_ofList, chars_eq_body, rdropWhile_padding _ hne hlast]

theorem columns_line : columns (String.ofList row.chars) = [String.ofList row.name.chars, row.cpu.text,
    String.ofList row.cpuShare.chars, row.memory.text, String.ofList row.memoryShare.chars] := by
  rw [columns, toList_trim]
  exact row.pieces_body

/-- A row has no line break in it. -/
theorem not_mem_chars : '\n' ∉ row.chars := by
  have hword : ∀ word : Word, '\n' ∉ word.chars := fun word h => absurd (word.unspaced _ h) (by decide)
  have hgap : ∀ n, '\n' ∉ gap n := fun n h => absurd (List.eq_of_mem_replicate h) (by decide)
  have hpadding : ∀ n, '\n' ∉ List.replicate n ' ' := fun n h => absurd (List.eq_of_mem_replicate h) (by decide)
  simp [chars_eq_body, body_eq, hword, hgap, hpadding]

end TopRow

theorem lines_topOutput (rows : List TopRow) :
    splitChar '\n' (topOutput rows) = rows.map (fun row => String.ofList row.chars) ++ [""] := by
  have hlines : (rows.flatMap fun row => row.chars ++ ['\n']).splitOn '\n' = rows.map TopRow.chars ++ [[]] := by
    induction rows with
    | nil => rfl
    | cons row rows ih =>
      rw [List.flatMap_cons, List.append_assoc, List.singleton_append,
        List.splitOn_append_cons_self_of_not_mem row.not_mem_chars, ih]
      rfl
  rw [splitChar, topOutput, String.toList_ofList, hlines, List.map_append, List.map_map]
  rfl

/-- Each row adds its two quantities. -/
theorem foldl_addLine (rows : List TopRow) (cpu memory : ℚ) (count : Nat) :
    (rows.map fun row => String.ofList row.chars).foldl addLine (cpu, memory, count) =
      (cpu + (rows.map fun row => parseCpu row.cpu.text).sum,
        memory + (rows.map fun row => parseBytes row.memory.text).sum,
        count + rows.length) := by
  induction rows generalizing cpu memory count with
  | nil => simp
  | cons row rows ih =>
    rw [List.map_cons, List.foldl_cons, addLine, row.columns_line]
    dsimp only
    rw [ih]
    simp only [List.map_cons, List.sum_cons, List.length_cons, add_assoc, Nat.add_comm 1]

theorem parseTopNodes_topOutput (rows : List TopRow) : parseTopNodes (topOutput rows) = if rows = [] then none else
      some ((rows.map fun row => parseCpu row.cpu.text).sum, (rows.map fun row => parseBytes row.memory.text).sum) := by
  have hlast (sums : ℚ × ℚ × Nat) : addLine sums "" = sums := rfl
  rw [parseTopNodes, lines_topOutput, List.foldl_append, foldl_addLine, List.foldl_cons, hlast, List.foldl_nil]
  simp only [zero_add, List.length_eq_zero_iff]

/-- The quantities of a table are read. -/
def TopRow.Read (row : TopRow) :
    Prop := parseCpu row.cpu.text = row.cpu.value ∧ parseBytes row.memory.text = row.memory.value

/-- A quantity is read as its value, so that equal quantities are equal numbers, if and only if its suffix is known or
it is zero; and the quantities of a table are read and summed up if and only if those suffixes are known. -/
theorem quantities_read_iff (q : Quantity) (rows : List TopRow) :
    (parseCpu q.text = q.value ↔ q.CpuRead) ∧ (parseBytes q.text = q.value ↔ q.BytesRead) ∧
    (∀ q' : Quantity, q.value = q'.value → (q.CpuRead → q'.CpuRead → parseCpu q.text = parseCpu q'.text) ∧
      (q.BytesRead → q'.BytesRead → parseBytes q.text = parseBytes q'.text)) ∧
    (((∀ row ∈ rows, row.Read) ∧ parseTopNodes (topOutput rows) = if rows = [] then none else
        some ((rows.map fun row => row.cpu.value).sum, (rows.map fun row => row.memory.value).sum)) ↔
      ∀ row ∈ rows, row.cpu.CpuRead ∧ row.memory.BytesRead) := by
  have hrow (row : TopRow) : row.Read ↔ row.cpu.CpuRead ∧ row.memory.BytesRead :=
    and_congr (Quantity.parseCpu_eq_iff _) (Quantity.parseBytes_eq_iff _)
  refine ⟨Quantity.parseCpu_eq_iff q, Quantity.parseBytes_eq_iff q, fun q' hvalue => ⟨fun h h' => ?_, fun h h' => ?_⟩,
    ⟨fun h row hmem => (hrow row).mp (h.1 row hmem), fun h => ?_⟩⟩
  · rw [(Quantity.parseCpu_eq_iff q).mpr h, hvalue, (Quantity.parseCpu_eq_iff q').mpr h']
  · rw [(Quantity.parseBytes_eq_iff q).mpr h, hvalue, (Quantity.parseBytes_eq_iff q').mpr h']
  · have hread : ∀ row ∈ rows, row.Read := fun row hmem => (hrow row).mpr (h row hmem)
    refine ⟨hread, ?_⟩
    rw [parseTopNodes_topOutput, List.map_congr_left fun row hmem => (hread row hmem).1,
      List.map_congr_left fun row hmem => (hread row hmem).2]

def kilo : Quantity where
  number := ⟨none, ['1'], none, List.all_eq_true.mp (by decide), fun _ h => (Option.not_mem_none _ h).elim, by decide⟩
  suffix := .unit "k" 10 3 (by decide)

/-- A thousand is read as nothing. -/
theorem kilo_unread :
    kilo.text = "1k" ∧ kilo.value = 1000 ∧ parseCpu kilo.text = 0 ∧ parseBytes kilo.text = 0 := by
  refine ⟨by decide, ?_, by decide, by decide⟩
  have hone : kilo.number.value = 1 := by decide +kernel
  show kilo.number.value * ((10 : ℕ) : ℚ) ^ (3 : ℤ) = 1000
  rw [hone]
  norm_num

end Portix.Kubernetes
