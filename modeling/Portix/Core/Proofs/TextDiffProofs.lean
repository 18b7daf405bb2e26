import Portix.Core.TextDiff
import Portix.Lib.Runs

/-!
# Soundness theorems for the preview of a rewritten file
-/

namespace Portix.Core

open Lib

variable {beforeLines afterLines : List String} {index : Nat}

theorem lt_or_lt_of_lt_maxLength (h : index < maxLength beforeLines afterLines) :
    index < beforeLines.length ∨ index < afterLines.length := by
  rw [maxLength] at h
  omega

theorem Differs.lt_maxLength {c : Nat} (h : Differs beforeLines afterLines c) :
    c < maxLength beforeLines afterLines := by
  by_contra hlen
  rw [not_lt, maxLength, Nat.max_le] at hlen
  exact h (by rw [List.getElem?_eq_none hlen.1, List.getElem?_eq_none hlen.2])

theorem mem_changedIndices {c : Nat} :
    c ∈ changedIndices beforeLines afterLines ↔ Differs beforeLines afterLines c := by
  rw [changedIndices, List.mem_filter, List.mem_range, decide_eq_true_iff]
  exact ⟨fun h => h.2, fun h => ⟨h.lt_maxLength, h⟩⟩

theorem mem_offsets {offset : Int} : offset ∈ offsets ↔ -2 ≤ offset ∧ offset ≤ 2 := by
  rw [show offsets = [-2, -1, 0, 1, 2] by decide]
  simp only [List.mem_cons, List.not_mem_nil, or_false]
  omega

theorem mem_window {c index : Nat} : index ∈ window beforeLines afterLines c ↔
      index < maxLength beforeLines afterLines ∧ c < index + 3 ∧ index ≤ c + 2 := by
  rw [window, List.mem_filterMap]
  constructor
  · rintro ⟨offset, hoffset, hidx⟩
    have hrange := mem_offsets.mp hoffset
    dsimp only at hidx
    split at hidx
    · rename_i hin
      rw [Option.some.injEq] at hidx
      omega
    · cases hidx
  · rintro ⟨hlen, hlow, hhigh⟩
    refine ⟨(index : Int) - c, mem_offsets.mpr (by omega), ?_⟩
    have hidx : (c : Int) + ((index : Int) - c) = index := by omega
    dsimp only
    rw [hidx, if_pos ⟨by omega, by omega⟩, Int.toNat_natCast]

theorem mem_contextIndices : index ∈ contextIndices beforeLines afterLines ↔
      index < maxLength beforeLines afterLines ∧ InContext beforeLines afterLines index := by
  rw [contextIndices, List.mem_filter, List.mem_range, decide_eq_true_iff]

theorem mem_sortedIndices :
    index ∈ sortedIndices beforeLines afterLines ↔ index ∈ contextIndices beforeLines afterLines := by
  rw [sortedIndices, List.mem_insertionSort, visibleIndices, List.mem_dedup, List.mem_flatMap, mem_contextIndices]
  constructor
  · rintro ⟨c, hc, hwindow⟩
    obtain ⟨hlen, hlow, hhigh⟩ := mem_window.mp hwindow
    exact ⟨hlen, c, hlow, hhigh, mem_changedIndices.mp hc⟩
  · rintro ⟨hlen, c, hlow, hhigh, hc⟩
    exact ⟨c, mem_changedIndices.mpr hc, mem_window.mpr ⟨hlen, hlow, hhigh⟩⟩

theorem contextIndices_sorted : (contextIndices beforeLines afterLines).Pairwise (· < ·) :=
  List.pairwise_lt_range.filter _

theorem sortedIndices_eq : sortedIndices beforeLines afterLines = contextIndices beforeLines afterLines := by
  have hnodup : (sortedIndices beforeLines afterLines).Nodup :=
    (List.perm_insertionSort _ _).nodup_iff.mpr (List.nodup_dedup _)
  have hperm : (sortedIndices beforeLines afterLines).Perm (contextIndices beforeLines afterLines) :=
    (List.perm_ext_iff_of_nodup hnodup contextIndices_sorted.nodup).mpr fun _ => mem_sortedIndices
  refine hperm.eq_of_sortedLE (List.sortedLE_insertionSort) ?_
  exact (contextIndices_sorted.imp Nat.le_of_lt).sortedLE

theorem Differs.mem_contextIndices {c : Nat} (h : Differs beforeLines afterLines c) :
    c ∈ contextIndices beforeLines afterLines :=
  Core.mem_contextIndices.mpr ⟨h.lt_maxLength, c, by omega, by omega, h⟩

theorem listing_singleton (index : Nat) :
    listing beforeLines afterLines [index] = rowsAt beforeLines afterLines index := by
  show [gapText].intercalate [[index].flatMap (rowsAt beforeLines afterLines)] = _
  rw [List.intercalate_singleton, List.flatMap_singleton]

theorem listing_concat_adjacent (l : List Nat) (last : Nat) : listing beforeLines afterLines (l ++ [last] ++ [last + 1])
      = listing beforeLines afterLines (l ++ [last]) ++ rowsAt beforeLines afterLines (last + 1) := by
  obtain ⟨runs, run, hruns, hruns'⟩ := splitBy_concat_of_true (r := fun i j => i + 1 == j) (l := l)
    (a := last) (b := last + 1) (beq_self_eq_true _)
  rw [listing, listing, hunks, hunks, hruns, hruns', List.map_append, List.map_append, List.map_singleton,
    List.map_singleton, List.flatMap_append, List.flatMap_singleton, intercalate_concat_append]

theorem listing_concat_apart (l : List Nat) {last index : Nat} (h : last + 1 ≠ index) :
    listing beforeLines afterLines (l ++ [last] ++ [index])
      = listing beforeLines afterLines (l ++ [last]) ++ [gapText] ++ rowsAt beforeLines afterLines index := by
  have hruns : (l ++ [last] ++ [index]).splitBy (fun i j => i + 1 == j)
      = (l ++ [last]).splitBy (fun i j => i + 1 == j) ++ [[index]] :=
    splitBy_concat_of_false (beq_eq_false_iff_ne.mpr h)
  have hne : ((l ++ [last]).splitBy fun i j => i + 1 == j) ≠ [] := List.splitBy_ne_nil.mpr (by simp)
  rw [listing, listing, hunks, hunks, hruns, List.map_append, List.map_singleton, List.flatMap_singleton,
    intercalate_concat (fun h0 => hne (List.map_eq_nil_iff.mp h0))]

theorem listing_isPrefix_concat (l : List Nat) (index : Nat) :
    listing beforeLines afterLines l <+: listing beforeLines afterLines (l ++ [index]) := by
  rcases List.eq_nil_or_concat' l with rfl | ⟨rest, last, rfl⟩
  · exact List.nil_prefix
  · by_cases h : last + 1 = index
    · subst h
      rw [listing_concat_adjacent]
      exact List.prefix_append _ _
    · rw [listing_concat_apart rest h, List.append_assoc]
      exact List.prefix_append _ _

theorem listing_isPrefix {l m : List Nat} (h : l <+: m) :
    listing beforeLines afterLines l <+: listing beforeLines afterLines m := by
  obtain ⟨more, rfl⟩ := h
  induction more using List.reverseRecOn with
  | nil => rw [List.append_nil]
  | append_singleton more index ih =>
    rw [← List.append_assoc]
    exact ih.trans (listing_isPrefix_concat _ _)

theorem rowsAt_ne_nil (h : index < maxLength beforeLines afterLines) : rowsAt beforeLines afterLines index ≠ [] := by
  replace h := lt_or_lt_of_lt_maxLength h
  rw [rowsAt]
  by_cases hd : Differs beforeLines afterLines index
  · rw [if_pos hd]
    rcases h with h | h
    · simp [h]
    · simp [h]
  · rw [if_neg hd]
    rw [Differs, not_not] at hd
    rcases h with h | h
    · simp [h]
    · rw [hd]
      simp [h]

theorem listing_ne_nil {l : List Nat} (hl : ∀ index ∈ l, index < maxLength beforeLines afterLines) (h : l ≠ []) :
    listing beforeLines afterLines l ≠ [] := by
  cases l with
  | nil => exact absurd rfl h
  | cons index rest =>
    have hpre : listing beforeLines afterLines [index] <+: listing beforeLines afterLines (index :: rest) :=
      listing_isPrefix ⟨rest, rfl⟩
    rw [listing_singleton] at hpre
    intro hnil
    rw [hnil] at hpre
    exact rowsAt_ne_nil (hl index List.mem_cons_self) (List.prefix_nil.mp hpre)

theorem noDiffText_notMem_rowsAt (index : Nat) : noDiffText ∉ rowsAt beforeLines afterLines index := by
  have hfirst : ∀ (c : Char) (line : String), c ≠ 'N' → String.ofList [c, ' '] ++ line ≠ noDiffText := by
    intro c line hc heq
    have hlist := congrArg String.toList heq
    rw [String.toList_append, String.toList_ofList] at hlist
    exact hc (List.cons.inj hlist).1
  intro hmem
  rw [rowsAt] at hmem
  split at hmem
  · rcases List.mem_append.mp hmem with hmem | hmem
    · obtain ⟨line, _, hline⟩ := List.mem_map.mp hmem
      exact hfirst '-' line (by decide) hline
    · obtain ⟨line, _, hline⟩ := List.mem_map.mp hmem
      exact hfirst '+' line (by decide) hline
  · obtain ⟨line, _, hline⟩ := List.mem_map.mp hmem
    exact hfirst ' ' line (by decide) hline

theorem noDiffText_notMem_listing (l : List Nat) : noDiffText ∉ listing beforeLines afterLines l := by
  induction l using List.reverseRecOn with
  | nil => exact List.not_mem_nil
  | append_singleton l index ih =>
    rcases List.eq_nil_or_concat' l with rfl | ⟨rest, last, rfl⟩
    · rw [List.nil_append, listing_singleton]
      exact noDiffText_notMem_rowsAt index
    · by_cases h : last + 1 = index
      · subst h
        rw [listing_concat_adjacent, List.mem_append, not_or]
        exact ⟨ih, noDiffText_notMem_rowsAt _⟩
      · rw [listing_concat_apart rest h, List.mem_append, List.mem_append, not_or, not_or, List.mem_singleton]
        exact ⟨⟨ih, by decide⟩, noDiffText_notMem_rowsAt _⟩

def shown (beforeLines afterLines : List String) (done : List Nat) : Preview where
  preview := listing beforeLines afterLines done
  lastIndex := (done.getLast?.map Int.ofNat).getD (-2)
  added := done.countP fun index => Differs beforeLines afterLines index ∧ index < afterLines.length
  removed := done.countP fun index => Differs beforeLines afterLines index ∧ index < beforeLines.length

/-- One round of the loop adds the rows of the index, after a gap where the index is not adjacent to the last one. -/
theorem show_eq (p : Preview) (hindex : index < maxLength beforeLines afterLines) :
    p.show beforeLines afterLines index =
      { preview := p.preview ++ (if (index : Int) > p.lastIndex + 1 ∧ p.preview ≠ [] then [gapText] else [])
          ++ rowsAt beforeLines afterLines index
        lastIndex := index
        added := p.added + [index].countP fun i => Differs beforeLines afterLines i ∧ i < afterLines.length
        removed := p.removed + [index].countP fun i => Differs beforeLines afterLines i ∧ i < beforeLines.length } := by
  have hgap : (if (index : Int) > p.lastIndex + 1 ∧ p.preview ≠ [] then p.add gapText else p)
      = { p with preview := p.preview ++
          if (index : Int) > p.lastIndex + 1 ∧ p.preview ≠ [] then [gapText] else [] } := by
    split
    · rfl
    · rw [List.append_nil]
  rw [List.countP_singleton, List.countP_singleton, rowsAt, Preview.show]
  dsimp only
  rw [hgap]
  cases hbefore : beforeLines[index]? with
  | none =>
    have hlen : ¬index < beforeLines.length := by simpa using hbefore
    have hlen' := (lt_or_lt_of_lt_maxLength hindex).resolve_left hlen
    simp [Preview.add, Differs, hlen, hlen']
  | some oldLine =>
    obtain ⟨hlen, _⟩ := List.getElem?_eq_some_iff.mp hbefore
    cases hafter : afterLines[index]? with
    | none =>
      have hlen' : ¬index < afterLines.length := by simpa using hafter
      have hd : Differs beforeLines afterLines index := by simp [Differs, hbefore, hafter]
      simp [Preview.add, hd, hlen, hlen']
    | some newLine =>
      obtain ⟨hlen', _⟩ := List.getElem?_eq_some_iff.mp hafter
      by_cases h : oldLine = newLine
      · have hd : ¬Differs beforeLines afterLines index := by simp [Differs, hbefore, hafter, h]
        simp [Preview.add, h, hd]
      · have hd : Differs beforeLines afterLines index := by simp [Differs, hbefore, hafter, h]
        simp [Preview.add, h, hd, hlen, hlen']

theorem shown_nil : shown beforeLines afterLines [] = {} := rfl

theorem show_shown {done : List Nat} (hdone : ∀ i ∈ done, i < index ∧ i < maxLength beforeLines afterLines)
    (hindex : index < maxLength beforeLines afterLines) :
    (shown beforeLines afterLines done).show beforeLines afterLines index
      = shown beforeLines afterLines (done ++ [index]) := by
  have hlast : (shown beforeLines afterLines (done ++ [index])).lastIndex = index := by
    rw [shown, List.getLast?_concat]
    rfl
  have hpreview : (shown beforeLines afterLines done).preview ++
      (if (index : Int) > (shown beforeLines afterLines done).lastIndex + 1 ∧
        (shown beforeLines afterLines done).preview ≠ [] then [gapText] else [])
      ++ rowsAt beforeLines afterLines index = listing beforeLines afterLines (done ++ [index]) := by
    rcases List.eq_nil_or_concat' done with rfl | ⟨rest, last, rfl⟩
    · rw [if_neg (fun h => h.2 rfl), List.nil_append, listing_singleton]
      rfl
    · have hend : (shown beforeLines afterLines (rest ++ [last])).lastIndex = last := by
        rw [shown, List.getLast?_concat]
        rfl
      have hne : (shown beforeLines afterLines (rest ++ [last])).preview ≠ [] :=
        listing_ne_nil (fun i hi => (hdone i hi).2) (by simp)
      have hbelow : last < index := (hdone last (by simp)).1
      by_cases h : last + 1 = index
      · subst h
        rw [if_neg (by rw [hend]; omega), listing_concat_adjacent, List.append_nil]
        rfl
      · rw [if_pos ⟨by rw [hend]; omega, hne⟩, listing_concat_apart rest h]
        rfl
  rw [show_eq _ hindex, hpreview, shown, shown, List.countP_append, List.countP_append]
  exact congrArg (Preview.mk _ · _ _) hlast.symm

theorem render_shown {all done rest : List Nat} (hall : all = done ++ rest) (hsorted : all.Pairwise (· < ·))
    (hlen : ∀ i ∈ all, i < maxLength beforeLines afterLines) :
    (shown beforeLines afterLines done).render beforeLines afterLines rest
      = shown beforeLines afterLines (done ++ rest.takeWhile fun index =>
          (listing beforeLines afterLines (all.filter (· < index))).length < previewLimit) := by
  induction rest generalizing done with
  | nil => rw [List.takeWhile_nil, List.append_nil, Preview.render]
  | cons index rest ih =>
    subst hall
    rw [List.pairwise_append, List.pairwise_cons] at hsorted
    have habove : (done ++ index :: rest).filter (· < index) = done := by
      rw [List.filter_append, List.filter_cons_of_neg (by simp), List.filter_eq_self.mpr, List.filter_eq_nil_iff.mpr,
        List.append_nil]
      · intro i hi
        simpa using Nat.le_of_lt (hsorted.2.1.1 i hi)
      · intro i hi
        simpa using hsorted.2.2 i hi index List.mem_cons_self
    rw [Preview.render]
    by_cases hcut : previewLimit ≤ (shown beforeLines afterLines done).preview.length
    · rw [if_pos hcut, List.takeWhile_cons_of_neg, List.append_nil]
      rw [habove, decide_eq_true_iff, not_lt]
      exact hcut
    · rw [if_neg hcut, List.takeWhile_cons_of_pos]
      · rw [show_shown (fun i hi => ⟨hsorted.2.2 i hi index List.mem_cons_self, hlen i (List.mem_append_left _ hi)⟩)
            (hlen index (by simp)), ih (by rw [List.append_assoc, List.singleton_append]), List.append_assoc,
          List.singleton_append]
      · rw [habove, decide_eq_true_iff]
        exact not_le.mp hcut

theorem InContext.of_differs (h : Differs beforeLines afterLines index) :
    InContext beforeLines afterLines index := ⟨index, by omega, by omega, h⟩

theorem countP_contextIndices {lines : List String} (hlines : lines.length ≤ maxLength beforeLines afterLines) :
    (contextIndices beforeLines afterLines).countP
        (fun index => Differs beforeLines afterLines index ∧ index < lines.length)
      = differingCount beforeLines afterLines lines := by
  rw [contextIndices, List.countP_filter, differingCount, ← countP_range_and hlines]
  refine List.countP_congr fun index _ => ?_
  simp only [Bool.and_eq_true, decide_eq_true_eq]
  exact ⟨fun h => h.1, fun h => ⟨h, .of_differs h.1⟩⟩

theorem linesAbove_mono {i j : Nat} (h : i ≤ j) :
    linesAbove beforeLines afterLines i ≤ linesAbove beforeLines afterLines j := by
  refine (listing_isPrefix ?_).length_le
  have hcut : (contextIndices beforeLines afterLines).filter (· < i)
      = ((contextIndices beforeLines afterLines).filter (· < j)).takeWhile (· < i) := by
    rw [takeWhile_eq_filter, List.filter_filter]
    · refine List.filter_congr fun k _ => ?_
      simp only [← Bool.decide_and]
      exact decide_eq_decide.mpr ⟨fun h0 => ⟨h0, by omega⟩, fun h0 => h0.1⟩
    · refine (contextIndices_sorted.filter _).imp fun {a b} hab hb => ?_
      rw [decide_eq_true_iff] at hb ⊢
      exact Nat.lt_trans hab hb
  rw [hcut]
  exact List.takeWhile_prefix _

def shownIndices (beforeLines afterLines : List String) : List Nat :=
  (contextIndices beforeLines afterLines).filter fun index => linesAbove beforeLines afterLines index < previewLimit

theorem takeWhile_contextIndices : (contextIndices beforeLines afterLines).takeWhile
        (fun index => linesAbove beforeLines afterLines index < previewLimit)
      = shownIndices beforeLines afterLines := by
  refine takeWhile_eq_filter (contextIndices_sorted.imp fun {a b} hab hb => ?_)
  rw [decide_eq_true_iff] at hb ⊢
  exact Nat.lt_of_le_of_lt (linesAbove_mono (Nat.le_of_lt hab)) hb

theorem shownIndices_isPrefix : shownIndices beforeLines afterLines <+: contextIndices beforeLines afterLines := by
  rw [← takeWhile_contextIndices]
  exact List.takeWhile_prefix _

theorem render_sortedIndices : Preview.render beforeLines afterLines {} (sortedIndices beforeLines afterLines)
      = shown beforeLines afterLines (shownIndices beforeLines afterLines) := by
  rw [sortedIndices_eq, ← shown_nil,
    render_shown (List.nil_append _).symm contextIndices_sorted fun i hi => (mem_contextIndices.mp hi).1,
    List.nil_append]
  exact congrArg _ takeWhile_contextIndices

theorem splitChar_injective {c : Char} {s t : String} (h : splitChar c s = splitChar c t) : s = t := by
  have hlists : s.toList.splitOn c = t.toList.splitOn c :=
    List.map_injective_iff.mpr (fun a b hab => by simpa using congrArg String.toList hab) h
  have hjoined := congrArg [c].intercalate hlists
  rw [List.intercalate_splitOn, List.intercalate_splitOn] at hjoined
  exact String.toList_inj.mp hjoined

theorem contextIndices_eq_nil_iff {before after : String} :
    contextIndices (splitChar '\n' before) (splitChar '\n' after) = [] ↔ before = after := by
  constructor
  · intro hnil
    refine splitChar_injective (c := '\n') (List.ext_getElem? fun index => ?_)
    by_contra hne
    have hmem := Differs.mem_contextIndices (c := index) hne
    rw [hnil] at hmem
    exact List.not_mem_nil hmem
  · rintro rfl
    rw [List.eq_nil_iff_forall_not_mem]
    intro index hmem
    obtain ⟨c, _, _, hc⟩ := (mem_contextIndices.mp hmem).2
    exact hc rfl

theorem shownIndices_eq_nil_iff :
    shownIndices beforeLines afterLines = [] ↔ contextIndices beforeLines afterLines = [] := by
  constructor
  · intro h
    cases hctx : contextIndices beforeLines afterLines with
    | nil => rfl
    | cons index rest =>
      have hsorted := @contextIndices_sorted beforeLines afterLines
      rw [hctx, List.pairwise_cons] at hsorted
      have habove : linesAbove beforeLines afterLines index = 0 := by
        rw [linesAbove, hctx, List.filter_eq_nil_iff.mpr]
        · rfl
        · intro i hi
          rcases List.mem_cons.mp hi with rfl | hi
          · simp
          · simpa using Nat.le_of_lt (hsorted.1 i hi)
      rw [shownIndices, hctx, List.filter_cons_of_pos (by rw [habove]; rfl)] at h
      cases h
  · intro h
    rw [shownIndices, h, List.filter_nil]

section Built

variable (before after : String)

theorem buildTextDiff_some : buildTextDiff (some before) (some after) =
    let p := shown (splitChar '\n' before) (splitChar '\n' after)
      (shownIndices (splitChar '\n' before) (splitChar '\n' after))
    ⟨p.added, p.removed, if p.preview = [] then [noDiffText] else p.preview⟩ := by
  rw [← render_sortedIndices]
  rfl

theorem added_buildTextDiff : (buildTextDiff (some before) (some after)).added =
    (shownIndices (splitChar '\n' before) (splitChar '\n' after)).countP fun index =>
      Differs (splitChar '\n' before) (splitChar '\n' after) index ∧ index < (splitChar '\n' after).length := by
  simp only [buildTextDiff_some, shown]

theorem removed_buildTextDiff : (buildTextDiff (some before) (some after)).removed =
    (shownIndices (splitChar '\n' before) (splitChar '\n' after)).countP fun index =>
      Differs (splitChar '\n' before) (splitChar '\n' after) index ∧ index < (splitChar '\n' before).length := by
  simp only [buildTextDiff_some, shown]

theorem lines_buildTextDiff : (buildTextDiff (some before) (some after)).lines =
    if listing (splitChar '\n' before) (splitChar '\n' after)
      (shownIndices (splitChar '\n' before) (splitChar '\n' after)) = [] then [noDiffText]
    else listing (splitChar '\n' before) (splitChar '\n' after)
      (shownIndices (splitChar '\n' before) (splitChar '\n' after)) := by
  simp only [buildTextDiff_some, shown]
  exact if_congr Iff.rfl rfl rfl

end Built

theorem buildTextDiff_lines {before after : String} (h : before ≠ after) :
    (buildTextDiff (some before) (some after)).lines
      = listing (splitChar '\n' before) (splitChar '\n' after)
          (shownIndices (splitChar '\n' before) (splitChar '\n' after)) := by
  rw [lines_buildTextDiff]
  refine if_neg (listing_ne_nil (fun i hi => ?_) ?_)
  · exact (mem_contextIndices.mp (shownIndices_isPrefix.subset hi)).1
  · rw [Ne, shownIndices_eq_nil_iff, contextIndices_eq_nil_iff]
    exact h

theorem buildTextDiff_noDiff (before after : String) :
    (buildTextDiff (some before) (some after)).lines = [noDiffText] ↔ before = after := by
  constructor
  · intro h
    by_contra hne
    rw [buildTextDiff_lines hne] at h
    exact noDiffText_notMem_listing _ (by rw [h]; exact List.mem_singleton_self _)
  · rintro rfl
    rw [lines_buildTextDiff, shownIndices_eq_nil_iff.mpr (contextIndices_eq_nil_iff.mpr rfl)]
    rfl

theorem countP_shownIndices {lines : List String} (hlines : lines.length ≤ maxLength beforeLines afterLines) :
    (shownIndices beforeLines afterLines).countP
          (fun index => Differs beforeLines afterLines index ∧ index < lines.length)
        = differingCount beforeLines afterLines lines ↔
      ∀ index, Differs beforeLines afterLines index → index < lines.length →
        linesAbove beforeLines afterLines index < previewLimit := by
  rw [← countP_contextIndices hlines, shownIndices, countP_filter_eq_iff]
  simp only [decide_eq_true_eq]
  exact ⟨fun h index hd hlen => h index hd.mem_contextIndices ⟨hd, hlen⟩, fun h index _ hd => h index hd.1 hd.2⟩

/-- A preview says how the file is rewritten just when no differing line has a whole preview above it: the lines that
are cut are not counted. -/
theorem tellsChange_iff (before after : String) :
    TellsChange before after (buildTextDiff (some before) (some after)) ↔
      ∀ index, Differs (splitChar '\n' before) (splitChar '\n' after) index →
        linesAbove (splitChar '\n' before) (splitChar '\n' after) index < previewLimit := by
  constructor
  · intro h index hindex
    obtain ⟨hadded, hremoved, _, _, _⟩ := h
    rw [added_buildTextDiff] at hadded
    rw [removed_buildTextDiff] at hremoved
    rcases lt_or_lt_of_lt_maxLength hindex.lt_maxLength with hlen | hlen
    · exact (countP_shownIndices (Nat.le_max_left _ _)).mp hremoved index hindex hlen
    · exact (countP_shownIndices (Nat.le_max_right _ _)).mp hadded index hindex hlen
  · intro h
    refine ⟨?_, ?_, buildTextDiff_noDiff before after, ?_, ?_⟩
    · rw [added_buildTextDiff]
      exact (countP_shownIndices (Nat.le_max_right _ _)).mpr fun index hindex _ => h index hindex
    · rw [removed_buildTextDiff]
      exact (countP_shownIndices (Nat.le_max_left _ _)).mpr fun index hindex _ => h index hindex
    · intro hne hall
      have hwhole : shownIndices (splitChar '\n' before) (splitChar '\n' after)
          = contextIndices (splitChar '\n' before) (splitChar '\n' after) :=
        List.filter_eq_self.mpr fun index hindex => decide_eq_true (hall index hindex)
      rw [buildTextDiff_lines hne, hwhole]
    · intro hne
      rw [buildTextDiff_lines hne]
      exact listing_isPrefix shownIndices_isPrefix

/-- Sixty-one lines that all change: the last one comes after the cut, and is not counted. -/
theorem sixty_one_lines_changed :
    ¬TellsChange (String.ofList (List.replicate 60 '\n'))
      (String.ofList ('b' :: (List.replicate 60 ['\n', 'b']).flatten))
      (buildTextDiff (some (String.ofList (List.replicate 60 '\n')))
        (some (String.ofList ('b' :: (List.replicate 60 ['\n', 'b']).flatten)))) := by
  intro h
  have hbefore : splitChar '\n' (String.ofList (List.replicate 60 '\n')) = List.replicate 61 "" := by
    rw [splitChar, String.toList_ofList]
    decide +kernel
  have hafter : splitChar '\n' (String.ofList ('b' :: (List.replicate 60 ['\n', 'b']).flatten)) =
      List.replicate 61 "b" := by
    rw [splitChar, String.toList_ofList]
    decide +kernel
  have hcount := h.added
  rw [added_buildTextDiff, hbefore, hafter] at hcount
  revert hcount
  decide +kernel

end Portix.Core
