import Portix.Terminal.TerminalSearch

/-!
# The current match is the last one that is listed

The list is the first `maxTerminalMatches` of all occurrences, so the current match is the bottom-most one if and only
if there are no more than that. -/

namespace Portix.Terminal

open Lib

variable {lower : Nat → List Nat} {buffer : List (List Cell)} {query needle text : List Nat} {cells : List Cell}

def matchesAt (needle : List Nat) (line : Nat) (places : List Nat) : List TerminalMatch :=
  places.map fun i => ⟨line, i, i + needle.length⟩

def gathered (found more : List TerminalMatch) : Except (List TerminalMatch) (List TerminalMatch) :=
  if found.length + more.length < maxTerminalMatches then .ok (found ++ more)
  else .error ((found ++ more).take maxTerminalMatches)

variable {found : List TerminalMatch}

theorem gathered_nil (hfound : found.length < maxTerminalMatches) : gathered found [] = .ok found := by
  simp [gathered, hfound]

variable {m : TerminalMatch}

theorem gathered_cons {found more : List TerminalMatch} :
    gathered found (m :: more) = gathered (found ++ [m]) more := by
  simp [gathered, Nat.add_assoc, Nat.add_comm 1]

theorem gathered_of_le {found more : List TerminalMatch} (hfull : found.length = maxTerminalMatches) :
    gathered found more = .error found := by
  simp [gathered, hfull]

variable {start stop column : Nat}

theorem findInLine_eq {places : List Nat} (hscan : Scan text needle start places) (hneedle : needle ≠ [])
    (number rounds : Nat) (hrounds : text.length + 1 ≤ start + rounds)
    (hfound : found.length < maxTerminalMatches) :
    findInLine needle text number rounds start found = gathered found (matchesAt needle number places) := by
  have hpos := List.length_pos_iff.mpr hneedle
  induction hscan generalizing rounds found with
  | done hnone =>
    rw [matchesAt, List.map_nil, gathered_nil hfound]
    cases rounds with
    | zero => rfl
    | succ rounds => simp only [findInLine, indexOf_eq_none_of hnone]
  | @next start i places hstart hoccurs hfirst _ ih =>
    have hle := hoccurs.add_length_le hneedle
    cases rounds with
    | zero => omega
    | succ rounds =>
      simp only [findInLine, indexOf_eq_some_of hstart hoccurs hneedle hfirst]
      rw [matchesAt, List.map_cons, gathered_cons]
      split
      · rw [gathered_of_le (by simp; omega)]
      · exact ih rounds (by omega) (by simp; omega)

theorem gathered_append {found more rest : List TerminalMatch} :
    gathered found (more ++ rest) = gathered (found ++ more) rest := by
  simp [gathered, Nat.add_assoc]

theorem gathered_enough {found more : List TerminalMatch} (rest : List TerminalMatch)
    (henough : ¬ found.length + more.length < maxTerminalMatches) :
    gathered found (more ++ rest) = .error ((found ++ more).take maxTerminalMatches) := by
  have hall : ¬ found.length + (more ++ rest).length < maxTerminalMatches := by
    rw [List.length_append]
    omega
  rw [gathered, if_neg hall, ← List.append_assoc, List.take_append_of_le_length (by rw [List.length_append]; omega)]

variable {all : List TerminalMatch} {texts : List (List Nat)} {number : Nat}

theorem findInLines_eq (hall : Occurrences needle texts number all) (hneedle : needle ≠ [])
    (hfound : found.length < maxTerminalMatches) :
    findInLines needle texts number found = gathered found all := by
  induction hall generalizing found with
  | nil => rw [gathered_nil hfound, findInLines]
  | @cons text texts number places rest hscan _ ih =>
    have hline := findInLine_eq hscan hneedle number (text.length + 1) (Nat.le_add_left _ _) hfound
    have hplaces : (places.map fun i => (⟨number, i, i + needle.length⟩ : TerminalMatch)) =
        matchesAt needle number places := rfl
    rw [hplaces]
    by_cases hfew : found.length + (matchesAt needle number places).length < maxTerminalMatches
    · have hmore : gathered found (matchesAt needle number places) = .ok (found ++ matchesAt needle number places) :=
        if_pos hfew
      simp only [findInLines, hline, hmore]
      rw [gathered_append]
      exact ih (by rwa [List.length_append])
    · have hmore : gathered found (matchesAt needle number places) =
          .error ((found ++ matchesAt needle number places).take maxTerminalMatches) := if_neg hfew
      simp only [findInLines, hline, hmore]
      exact (gathered_enough rest hfew).symm

theorem findInTerminal_eq (hneedle : lowerText lower query ≠ [])
    (hall : Occurrences (lowerText lower query) (buffer.map (searchedText lower)) 0 all) :
    findInTerminal lower buffer query = all.take maxTerminalMatches := by
  rw [findInTerminal, if_neg hneedle, findInLines_eq hall hneedle (by decide)]
  by_cases hfew : ([] : List TerminalMatch).length + all.length < maxTerminalMatches
  · rw [gathered, if_pos hfew]
    exact (List.take_of_length_le (by simpa using Nat.le_of_lt hfew)).symm
  · rw [gathered, if_neg hfew]
    rfl

namespace Occurrences

theorem exists_all (hneedle : needle ≠ []) (texts : List (List Nat)) (number : Nat) :
    ∃ all, Occurrences needle texts number all := by
  induction texts generalizing number with
  | nil => exact ⟨[], .nil⟩
  | cons text texts ih =>
    obtain ⟨places, hscan⟩ := Scan.exists_scan text hneedle 0
    obtain ⟨rest, hrest⟩ := ih (number + 1)
    exact ⟨_, .cons hscan hrest⟩

theorem unique {all all' : List TerminalMatch}
    (h : Occurrences needle texts number all) (h' : Occurrences needle texts number all') : all = all' := by
  induction h generalizing all' with
  | nil =>
    cases h'
    rfl
  | cons hscan _ ih =>
    cases h' with
    | cons hscan' hrest' => rw [hscan.unique hscan', ih hrest']

theorem occursAt (h : Occurrences needle texts number all) (hmem : m ∈ all) :
    number ≤ m.line ∧ m.stop = m.start + needle.length ∧
      ∃ text, texts[m.line - number]? = some text ∧ OccursAt text needle m.start := by
  induction h with
  | nil => exact absurd hmem List.not_mem_nil
  | @cons text texts number places rest hscan _ ih =>
    rcases List.mem_append.mp hmem with hhere | hbelow
    · obtain ⟨i, hi, rfl⟩ := List.mem_map.mp hhere
      exact ⟨Nat.le_refl _, rfl, text, by simp, hscan.occursAt hi⟩
    · obtain ⟨hle, hstop, text', htext, hoccurs⟩ := ih hbelow
      refine ⟨by omega, hstop, text', ?_, hoccurs⟩
      rw [← htext, show m.line - number = m.line - (number + 1) + 1 by omega, List.getElem?_cons_succ]

theorem pairwise_before (h : Occurrences needle texts number all) (hneedle : needle ≠ []) :
    all.Pairwise TerminalMatch.Before := by
  induction h with
  | nil => exact .nil
  | cons hscan hrest ih =>
    refine List.pairwise_append.mpr ⟨List.pairwise_map.mpr ?_, ih, fun a ha b hb => ?_⟩
    · exact (hscan.pairwise_lt hneedle).imp fun hlt => .inr ⟨rfl, hlt⟩
    · obtain ⟨i, _, rfl⟩ := List.mem_map.mp ha
      exact .inl (hrest.occursAt hb).1

end Occurrences

def segment (cells : List Cell) (start stop : Nat) : List (Cell × Nat) := (cells.zipIdx.take stop).drop start

/-- A cell of which `getText` shows the character when it stops at a column. -/
def shownBefore (stop : Nat) (cell : Cell × Nat) : Bool := cell.1.codePoint ≠ 0 ∧ cell.2 + cell.1.width ≤ stop

theorem getText_eq (cells : List Cell) (start stop : Nat) : getText cells start stop =
      ((segment cells start stop).filter (shownBefore (min stop cells.length))).map (·.1.codePoint) := rfl

theorem mem_segment {cell : Cell × Nat} (h : cell ∈ segment cells start stop) :
    start ≤ cell.2 ∧ cell.2 < stop ∧ cells[cell.2]? = some cell.1 := by
  obtain ⟨k, hk⟩ := List.mem_iff_getElem?.mp h
  rw [segment, List.getElem?_drop, List.getElem?_take] at hk
  split at hk
  case isFalse => cases hk
  case isTrue hlt =>
    rw [List.getElem?_zipIdx, Option.map_eq_some_iff] at hk
    obtain ⟨c, hc, rfl⟩ := hk
    exact ⟨by simp, by simpa using hlt, by simpa using hc⟩

theorem segment_min (cells : List Cell) (start stop : Nat) :
    segment cells start (min stop cells.length) = segment cells start stop := by
  rw [segment, segment, ← List.length_zipIdx (l := cells), ← List.take_take, List.take_length]

theorem segment_of_le (hle : min stop cells.length ≤ start) : segment cells start stop = [] := by
  refine List.drop_of_length_le ?_
  rwa [List.length_take, List.length_zipIdx]

theorem segment_append {middle : Nat} (hstart : start ≤ middle) (hstop : middle ≤ stop) :
    segment cells start stop = segment cells start middle ++ segment cells middle stop := by
  have htake : cells.zipIdx.take stop = cells.zipIdx.take middle ++ segment cells middle stop := by
    conv_lhs => rw [← List.take_append_drop middle (cells.zipIdx.take stop), List.take_take, Nat.min_eq_left hstop]
    rfl
  rw [segment, htake, List.drop_append, List.length_take, List.length_zipIdx]
  rcases Nat.le_total middle cells.length with hle | hle
  · rw [Nat.min_eq_left hle, Nat.sub_eq_zero_of_le hstart, List.drop_zero]
    rfl
  · rw [segment_of_le (by omega : min stop cells.length ≤ middle), List.drop_nil]
    rfl

theorem getText_split (hwhole : Whole cells column) :
    getText cells 0 cells.length = getText cells 0 column ++ getText cells column cells.length := by
  simp only [getText_eq, Nat.min_self]
  rcases Nat.le_total column cells.length with hle | hle
  · rw [segment_append (Nat.zero_le column) hle, List.filter_append, List.map_append, Nat.min_eq_left hle]
    refine congrArg (· ++ _) (congrArg _ (List.filter_congr fun cell hmem => ?_))
    obtain ⟨_, hlt, hcell⟩ := mem_segment hmem
    refine decide_eq_decide.mpr (and_congr_right fun hshown => ?_)
    have hends := hwhole cell.2 cell.1 hcell hshown hlt
    exact iff_of_true (by omega) hends
  · rw [Nat.min_eq_right hle, ← segment_min cells 0 column, Nat.min_eq_right hle,
      segment_of_le (by omega : min cells.length cells.length ≤ column), List.filter_nil, List.map_nil, List.append_nil]

theorem filter_prefix_of_short {α : Type} {p q : α → Bool} {l : List α} (hshort : l.length ≤ 1)
    (himp : ∀ a, p a = true → q a = true) : l.filter p <+: l.filter q := by
  match l, hshort with
  | [], _ => exact List.prefix_refl _
  | [a], _ =>
    by_cases hp : p a = true
    · rw [List.filter_cons_of_pos hp, List.filter_cons_of_pos (himp a hp)]
      exact List.prefix_refl _
    · rw [List.filter_cons_of_neg hp]
      exact List.nil_prefix

theorem getText_prefix (cells : List Cell) (start stop : Nat) :
    getText cells start stop <+: getText cells start cells.length := by
  simp only [getText_eq, Nat.min_self]
  refine List.IsPrefix.map _ ?_
  rw [← segment_min cells start stop]
  generalize hstop : min stop cells.length = last
  have hlast : last ≤ cells.length := hstop ▸ Nat.min_le_right _ _
  rcases Nat.lt_or_ge start last with hlt | hge
  case inr =>
    rw [segment_of_le (by omega), List.filter_nil]
    exact List.nil_prefix
  case inl =>
    have hcut : segment cells start last = segment cells start (last - 1) ++ segment cells (last - 1) last :=
      segment_append (by omega) (by omega)
    have hsame : (segment cells start (last - 1)).filter (shownBefore last) =
        (segment cells start (last - 1)).filter (shownBefore cells.length) := by
      refine List.filter_congr fun cell hmem => ?_
      obtain ⟨_, hbefore, _⟩ := mem_segment hmem
      have hwidth := cell.1.width_le
      exact decide_eq_decide.mpr (and_congr_right fun _ => iff_of_true (by omega) (by omega))
    have hend : (segment cells (last - 1) last).filter (shownBefore last) <+:
        (segment cells (last - 1) last).filter (shownBefore cells.length) := by
      refine filter_prefix_of_short ?_ fun cell hshown => ?_
      · rw [segment, List.length_drop, List.length_take]
        omega
      · obtain ⟨hcode, hfits⟩ := of_decide_eq_true hshown
        exact decide_eq_true ⟨hcode, by omega⟩
    rw [segment_append (Nat.le_of_lt hlt) hlast, hcut, List.filter_append, List.filter_append, List.filter_append,
      hsame]
    exact List.IsPrefix.trans ((List.prefix_append_right_inj _).mpr hend) (List.prefix_append _ _)

theorem searchedText_split (lower : Nat → List Nat) (hwhole : Whole cells column) :
    searchedText lower cells = lowerText lower (getText cells 0 column) ++
      lowerText lower (getText cells column cells.length) := by
  rw [searchedText, getText_split hwhole, lowerText, List.flatMap_append]
  rfl

theorem atColumns_iff (hoccurs : OccursAt (searchedText lower cells) needle m.start)
    (hstop : m.stop = m.start + needle.length) (hneedle : needle ≠ []) :
    AtColumns lower needle cells m ↔ Aligned lower cells m := by
  have hle := hoccurs.add_length_le hneedle
  constructor
  · intro h
    refine ⟨h.whole, ?_, ?_⟩
    · rw [h.before, List.length_take, Nat.min_eq_left (by omega)]
    · rw [h.within, hstop, Nat.add_sub_cancel_left]
  · intro h
    have hsplit := searchedText_split lower h.whole
    refine ⟨h.whole, ?_, ?_⟩
    · rw [hsplit, List.take_append_of_le_length (Nat.le_of_eq h.before.symm),
        List.take_of_length_le (Nat.le_of_eq h.before)]
    · have hbehind :
          (searchedText lower cells).drop m.start = lowerText lower (getText cells m.start cells.length) := by
        rw [hsplit, List.drop_append_of_le_length (Nat.le_of_eq h.before.symm),
          List.drop_of_length_le (Nat.le_of_eq h.before), List.nil_append]
      have hread : lowerText lower (getText cells m.start m.stop) <+:
          lowerText lower (getText cells m.start cells.length) := by
        obtain ⟨rest, hrest⟩ := getText_prefix cells m.start m.stop
        exact ⟨lowerText lower rest, by rw [← hrest, lowerText, lowerText, ← List.flatMap_append]; rfl⟩
      have hneedleAt : needle <+: lowerText lower (getText cells m.start cells.length) := hbehind ▸ hoccurs
      have hlength : (lowerText lower (getText cells m.start m.stop)).length = needle.length := by
        rw [h.within, hstop, Nat.add_sub_cancel_left]
      exact (List.prefix_of_prefix_length_le hread hneedleAt (Nat.le_of_eq hlength)).eq_of_length hlength

namespace TerminalSearchController

variable {c : TerminalSearchController}

theorem currentMatch_search (c : TerminalSearchController) (buffer : List (List Cell)) (query : List Nat) :
    (c.search lower buffer query).currentMatch = (findInTerminal lower buffer query).getLast? := by
  simp only [search, showMatches, currentMatch]
  cases hfound : findInTerminal lower buffer query with
  | nil => rfl
  | cons m rest =>
    rw [List.getLast?_eq_getElem?, if_pos (by simp), List.length_cons]
    congr 1
    omega

theorem move_of_found (lower : Nat → List Nat) (hfound : c.found ≠ []) (buffer : List (List Cell)) (forward : Bool) :
    (c.move lower buffer forward).found = c.found ∧
      (c.move lower buffer forward).current = (c.current + if forward then 1 else -1) % c.found.length := by
  have hsome : ¬ c.found.isEmpty = true := by simpa using hfound
  cases forward
  · simp only [move, Bool.false_eq_true, if_false, previous, step, if_neg hsome, showMatches, and_self]
  · simp only [move, if_true, next, step, if_neg hsome, showMatches, and_self]

theorem length_pos_of_found (hfound : c.found ≠ []) : (0 : Int) < c.found.length := by
  exact_mod_cast List.length_pos_iff.mpr hfound

theorem run_of_found (lower : Nat → List Nat) (hfound : c.found ≠ []) (hlow : 0 ≤ c.current)
    (hhigh : c.current < c.found.length) (moves : List (List (List Cell) × Bool)) :
    (c.run lower moves).found = c.found ∧
      (c.run lower moves).current = (c.current + moves.countP (·.2) - moves.countP (!·.2)) % c.found.length := by
  have hpos := length_pos_of_found hfound
  induction moves generalizing c with
  | nil =>
    have hrange : c.current = c.current % c.found.length := (Int.emod_eq_of_lt hlow hhigh).symm
    exact ⟨rfl, by simpa [run] using hrange⟩
  | cons head rest ih =>
    obtain ⟨hkept, hcurrent⟩ := move_of_found lower hfound head.1 head.2
    have hnext : (c.run lower (head :: rest)) = (c.move lower head.1 head.2).run lower rest := rfl
    obtain ⟨hfoundRest, hcurrentRest⟩ := ih (c := c.move lower head.1 head.2) (by rwa [hkept])
      (by rw [hcurrent]; exact Int.emod_nonneg _ (by omega))
      (by rw [hcurrent, hkept]; exact Int.emod_lt_of_pos _ hpos) (by rwa [hkept])
    refine ⟨by rw [hnext, hfoundRest, hkept], ?_⟩
    rw [hnext, hcurrentRest, hkept, hcurrent, Int.add_sub_assoc, Int.emod_add_emod]
    congr 1
    cases hhead : head.2 <;> simp [hhead] <;> omega

theorem move_back (lower : Nat → List Nat) (hfound : c.found ≠ []) (hlow : 0 ≤ c.current)
    (hhigh : c.current < c.found.length) (there back : List (List Cell)) (forward : Bool) :
    ((c.move lower there forward).move lower back !forward).current = c.current := by
  have hboth := (run_of_found lower hfound hlow hhigh [(there, forward), (back, !forward)]).2
  have hrun : c.run lower [(there, forward), (back, !forward)] =
      (c.move lower there forward).move lower back !forward := rfl
  rw [hrun] at hboth
  rw [hboth]
  cases forward <;> simpa using Int.emod_eq_of_lt hlow hhigh

end TerminalSearchController

theorem TerminalMatch.Before.irrefl (m : TerminalMatch) : ¬ m.Before m := by
  rintro (hlt | ⟨_, hlt⟩) <;> exact Nat.lt_irrefl _ hlt

/-- The last of the first matches is the last of all only if there are no others. -/
theorem getLast?_take_iff (hordered : all.Pairwise TerminalMatch.Before) {n : Nat}
    (hn : 0 < n) : (all.take n).getLast? = all.getLast? ↔ all.length ≤ n := by
  constructor
  · intro hlast
    by_contra hmore
    rw [Nat.not_le] at hmore
    rw [List.getLast?_eq_getElem?, List.getLast?_eq_getElem?, List.length_take, Nat.min_eq_left (Nat.le_of_lt hmore),
      List.getElem?_take_of_lt (by omega), List.getElem?_eq_getElem (by omega),
      List.getElem?_eq_getElem (by omega)] at hlast
    have hbefore := List.pairwise_iff_getElem.mp hordered (n - 1) (all.length - 1) (by omega) (by omega) (by omega)
    rw [Option.some.inj hlast] at hbefore
    exact TerminalMatch.Before.irrefl _ hbefore
  · intro hfew
    rw [List.take_of_length_le hfew]

/-- After a search the current match is the bottom-most occurrence, and the matches are at their columns, if and only if
there are no more occurrences than are listed and the lines have one code unit for each column up to their ends. -/
theorem found_iff (hlower : ∀ character, lower character ≠ []) (c : TerminalSearchController)
    (buffer : List (List Cell)) (hquery : query ≠ []) :
    ∃ all, Occurrences (lowerText lower query) (buffer.map (searchedText lower)) 0 all ∧
      (∀ all', Occurrences (lowerText lower query) (buffer.map (searchedText lower)) 0 all' → all' = all) ∧
      (c.search lower buffer query).found = all.take maxTerminalMatches ∧
      (Found lower buffer query all (c.search lower buffer query) ↔
        all.length ≤ maxTerminalMatches ∧
          ∀ found ∈ all, ∀ line, buffer[found.line]? = some line → Aligned lower line found) := by
  have hneedle : lowerText lower query ≠ [] := by
    obtain ⟨character, rest, rfl⟩ := List.exists_cons_of_ne_nil hquery
    exact fun hnil => hlower character (List.append_eq_nil_iff.mp hnil).1
  obtain ⟨all, hall⟩ := Occurrences.exists_all hneedle (buffer.map (searchedText lower)) 0
  have hlisted : (c.search lower buffer query).found = all.take maxTerminalMatches := findInTerminal_eq hneedle hall
  have hordered := hall.pairwise_before hneedle
  have hcurrent : (c.search lower buffer query).currentMatch = (all.take maxTerminalMatches).getLast? :=
    (TerminalSearchController.currentMatch_search c buffer query).trans
      (congrArg List.getLast? (findInTerminal_eq hneedle hall))
  have hcolumns (m) (hm : m ∈ all) (line) (hline : buffer[m.line]? = some line) :
      AtColumns lower (lowerText lower query) line m ↔ Aligned lower line m := by
    obtain ⟨_, hstop, text, htext, hoccurs⟩ := hall.occursAt hm
    rw [Nat.sub_zero, List.getElem?_map, hline] at htext
    rw [← Option.some.inj htext] at hoccurs
    exact atColumns_iff hoccurs hstop hneedle
  refine ⟨all, hall, fun all' hall' => hall'.unique hall, hlisted, fun h => ?_, fun h => ?_⟩
  · have hfew : all.length ≤ maxTerminalMatches :=
      (getLast?_take_iff hordered (by decide)).mp (hcurrent.symm.trans h.current)
    refine ⟨hfew, fun m hm line hline => (hcolumns m hm line hline).mp (h.columns m ?_ line hline)⟩
    rwa [hlisted, List.take_of_length_le hfew]
  · obtain ⟨hfew, haligned⟩ := h
    have hfound : (c.search lower buffer query).found = all := hlisted.trans (List.take_of_length_le hfew)
    have hlast : (c.search lower buffer query).current = (c.search lower buffer query).found.length - 1 := rfl
    refine ⟨hcurrent.trans (by rw [List.take_of_length_le hfew]), fun m hm line hline => ?_, ?_, ?_, fun _ => hfound,
      fun hsome moves => ?_, fun hsome moves there back forward => ?_⟩
    · exact (hcolumns m (hfound ▸ hm) line hline).mpr (haligned m (hfound ▸ hm) line hline)
    · rwa [hfound]
    · rwa [hfound]
    · have hpos := TerminalSearchController.length_pos_of_found hsome
      exact TerminalSearchController.run_of_found lower hsome (by omega) (by omega) moves
    · have hpos := TerminalSearchController.length_pos_of_found hsome
      obtain ⟨hkept, hplace⟩ := TerminalSearchController.run_of_found lower hsome (by omega) (by omega) moves
      refine TerminalSearchController.move_back lower (by rwa [hkept]) ?_ ?_ there back forward
      · rw [hplace]
        exact Int.emod_nonneg _ (by omega)
      · rw [hplace, hkept]
        exact Int.emod_lt_of_pos _ hpos

def letters (text : List Nat) : List Cell := text.map fun codePoint => { codePoint, width := 1, width_le := by decide }

def asIs (character : Nat) : List Nat := [character]

/-- An occurrence on a short line. -/
theorem found_iff_short :
    ∃ all, Occurrences [97] [[98, 97]] 0 all ∧
      (Found asIs [letters [98, 97]] [97] all (({} : TerminalSearchController).search asIs [letters [98, 97]] [97]) ↔
        all.length ≤ maxTerminalMatches ∧
          ∀ found ∈ all, ∀ line, [letters [98, 97]][found.line]? = some line → Aligned asIs line found) := by
  obtain ⟨all, hall, _, _, hiff⟩ := found_iff (fun _ => List.cons_ne_nil _ _ : ∀ character, asIs character ≠ []) {}
    [letters [98, 97]] (by decide : [97] ≠ [])
  exact ⟨all, hall, hiff⟩

theorem occurrences_replicate (n number : Nat) :
    Occurrences [97] (List.replicate n [97]) number ((List.range' number n).map fun line => ⟨line, 0, 1⟩) := by
  induction n generalizing number with
  | zero => exact .nil
  | succ n ih =>
    have hscan : Scan [97] [97] 0 [0] := by
      refine .next (Nat.le_refl _) (List.prefix_refl _) (fun j _ hj => absurd hj (Nat.not_lt_zero j))
        (.done fun j hj h => ?_)
      have hle := OccursAt.add_length_le h (List.cons_ne_nil _ _)
      simp only [List.length_singleton] at hj hle
      omega
    exact .cons hscan (ih (number + 1))

/-- On 1001 lines of one letter each, the search for it stops at the last line but one. -/
theorem last_line_missed :
    ∃ buffer all, Occurrences (lowerText asIs [97]) (buffer.map (searchedText asIs)) 0 all ∧
      ¬ (({} : TerminalSearchController).search asIs buffer [97]).currentMatch = all.getLast? := by
  refine ⟨List.replicate 1001 (letters [97]), (List.range' 0 1001).map fun line => ⟨line, 0, 1⟩, ?_, ?_⟩
  · rw [List.map_replicate]
    exact occurrences_replicate 1001 0
  · have hall := occurrences_replicate 1001 0
    rw [TerminalSearchController.currentMatch_search, findInTerminal_eq (by decide)
      (by rw [List.map_replicate]; exact hall), getLast?_take_iff (hall.pairwise_before (by decide)) (by decide)]
    simp [maxTerminalMatches]

end Portix.Terminal
