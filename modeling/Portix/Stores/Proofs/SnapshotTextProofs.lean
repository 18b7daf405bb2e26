import Portix.Lib.Runs
import Portix.Stores.SessionSnapshotStore

/-!
# Soundness theorems for the text of a snapshot
-/

namespace Portix.Stores

open Lib

theorem toList_trimRight (s : String) : (trimRight s).toList = s.toList.rdropWhile isDartWhitespace :=
  String.toList_ofList

theorem trimRight_append {s t : String} (h : trimRight t ≠ "") : trimRight (s ++ t) = s ++ trimRight t := by
  have ht : t.toList.rdropWhile isDartWhitespace ≠ [] := fun h0 => h (by rw [trimRight, h0])
  rw [← String.toList_inj, toList_trimRight, String.toList_append, String.toList_append, toList_trimRight,
    rdropWhile_append ht]

theorem trimRight_append_blank {s t : String} (h : trimRight t = "") : trimRight (s ++ t) = trimRight s := by
  have ht : t.toList.rdropWhile isDartWhitespace = [] := by
    rw [← toList_trimRight, h]
    rfl
  rw [← String.toList_inj, toList_trimRight, String.toList_append, toList_trimRight, rdropWhile_append_of_nil ht]

theorem length_trimRight_le (s : String) : (trimRight s).length ≤ s.length := by
  rw [← String.length_toList, ← String.length_toList, toList_trimRight]
  exact (List.rdropWhile_prefix _ _).length_le

theorem append_eq_append_iff_of_le {a b s t : String} (ha : a.length ≤ b.length) (hs : s.length ≤ t.length) :
    a ++ s = b ++ t ↔ a = b ∧ s = t := by
  constructor
  · intro h
    have hlen := congrArg String.length h
    rw [String.length_append, String.length_append] at hlen
    have hlists := congrArg String.toList h
    rw [String.toList_append, String.toList_append] at hlists
    obtain ⟨hab, hst⟩ := List.append_inj hlists (by rw [String.length_toList, String.length_toList]; omega)
    exact ⟨String.toList_inj.mp hab, String.toList_inj.mp hst⟩
  · rintro ⟨rfl, rfl⟩
    rfl

variable (rows : List BufferLine)

/-- What the code makes of a logical line: each row is stripped of its own. -/
def joined : String := String.join (rows.map fun row => trimRight row.text)

variable (row : BufferLine)

theorem joined_cons (rows : List BufferLine) :
    joined (row :: rows) = trimRight row.text ++ joined rows := by
  rw [joined, List.map_cons, String.join_cons]
  rfl

theorem written_cons (rows : List BufferLine) : written
    (row :: rows) = row.text ++ written rows := by
  rw [written, List.map_cons, String.join_cons]
  rfl

theorem joined_eq_empty_iff : joined rows = "" ↔ IsBlank rows := by
  induction rows with
  | nil => exact ⟨fun _ => rfl, fun _ => rfl⟩
  | cons row rows ih =>
    rw [joined_cons, IsBlank, written_cons, String.append_eq_empty_iff, ih]
    constructor
    · rintro ⟨hrow, hrows⟩
      rw [trimRight_append_blank hrows, hrow]
    · intro h
      by_cases hrows : IsBlank rows
      · rw [trimRight_append_blank hrows] at h
        exact ⟨h, hrows⟩
      · rw [trimRight_append hrows, String.append_eq_empty_iff] at h
        exact absurd h.2 hrows

theorem length_joined_le : (joined rows).length ≤ (trimRight (written rows)).length := by
  induction rows with
  | nil => exact Nat.le_refl _
  | cons row rows ih =>
    rw [joined_cons, written_cons, String.length_append]
    by_cases hrows : IsBlank rows
    · rw [trimRight_append_blank hrows, (joined_eq_empty_iff rows).mpr hrows]
      exact Nat.le_refl _
    · rw [trimRight_append hrows, String.length_append]
      exact Nat.add_le_add (length_trimRight_le _) ih

theorem blanksAtEnd_cons (rows : List BufferLine) :
    BlanksAtEnd (row :: rows) ↔ (¬IsBlank rows → trimRight row.text = row.text) ∧ BlanksAtEnd rows := by
  constructor
  · intro h
    refine ⟨h [] row rows rfl, fun before r after heq => h (row :: before) r after ?_⟩
    rw [heq, List.cons_append]
  · rintro ⟨hrow, hrows⟩ before r after heq hafter
    cases before with
    | nil =>
      cases heq
      exact hrow hafter
    | cons first before =>
      cases heq
      exact hrows before r after rfl hafter

theorem joined_eq_iff : joined rows = trimRight (written rows) ↔ BlanksAtEnd rows := by
  induction rows with
  | nil =>
    refine iff_of_true rfl fun before row after heq => ?_
    simp at heq
  | cons row rows ih =>
    rw [blanksAtEnd_cons, joined_cons, written_cons, ← ih]
    by_cases hrows : IsBlank rows
    · have hjoined := (joined_eq_empty_iff rows).mpr hrows
      rw [trimRight_append_blank hrows, hjoined, String.append_empty]
      exact iff_of_true rfl ⟨fun h => absurd hrows h, hrows.symm⟩
    · rw [trimRight_append hrows, append_eq_append_iff_of_le (length_trimRight_le _) (length_joined_le rows)]
      exact and_congr_left fun _ => ⟨fun h _ => h, fun h => h hrows⟩

theorem joined_singleton : joined [row] = trimRight row.text := by
  rw [joined_cons]
  exact String.append_empty

theorem joined_concat :
    joined (rows ++ [row]) = joined rows ++ trimRight row.text := by
  rw [joined, List.map_append, String.join_append]
  exact congrArg (joined rows ++ ·) (joined_singleton row)

theorem addRow_concat (lines : List String) (last : String) (row : BufferLine) : addRow (lines ++ [last]) row =
      if row.isWrapped then lines ++ [last ++ trimRight row.text] else lines ++ [last] ++ [trimRight row.text] := by
  simp only [addRow, List.getLast?_concat, List.dropLast_concat]

theorem foldl_addRow (buffer : List BufferLine) : buffer.foldl addRow [] = (logicalLines buffer).map joined := by
  induction buffer using List.reverseRecOn with
  | nil => rfl
  | append_singleton buffer row ih =>
    rw [List.foldl_append, ih, List.foldl_cons, List.foldl_nil]
    rcases List.eq_nil_or_concat' buffer with rfl | ⟨rest, last, rfl⟩
    · exact congrArg (· :: []) (joined_singleton row).symm
    · cases hwrapped : row.isWrapped with
      | false =>
        have hruns : logicalLines (rest ++ [last] ++ [row]) = logicalLines (rest ++ [last]) ++ [[row]] :=
          splitBy_concat_of_false hwrapped
        have hne : logicalLines (rest ++ [last]) ≠ [] := List.splitBy_ne_nil.mpr (by simp)
        obtain ⟨runs, run, hrun⟩ := (List.eq_nil_or_concat' _).resolve_left hne
        rw [hruns, hrun, List.map_append, List.map_singleton, addRow_concat, hwrapped, if_neg Bool.false_ne_true,
          List.map_append, List.map_append, List.map_singleton, List.map_singleton, joined_singleton]
      | true =>
        obtain ⟨runs, run, hruns, hruns'⟩ := splitBy_concat_of_true (r := fun _ next => next.isWrapped)
          (l := rest) (a := last) (b := row) hwrapped
        rw [logicalLines, logicalLines, hruns, hruns', List.map_append, List.map_singleton, addRow_concat, hwrapped,
          if_pos rfl, List.map_append, List.map_singleton, joined_concat]

theorem rdropWhile_map {α β : Type} (f : α → β) (p : β → Bool) (l : List α) :
    (l.map f).rdropWhile p = (l.rdropWhile (p ∘ f)).map f := by
  rw [List.rdropWhile, ← List.map_reverse, List.dropWhile_map, ← List.map_reverse]
  rfl

theorem lastLines_map_joined (runs : List (List BufferLine)) : lastLines (runs.map joined) =
      ((runs.rdropWhile fun rows => IsBlank rows).drop
        ((runs.rdropWhile fun rows => IsBlank rows).length - maxSnapshotLines)).map joined := by
  have hblank : ((fun line : String => line.isEmpty) ∘ joined) = fun rows => decide (IsBlank rows) := by
    funext rows
    rw [Function.comp_apply, Bool.eq_iff_iff, String.isEmpty_iff, decide_eq_true_iff, joined_eq_empty_iff]
  rw [lastLines, rdropWhile_map, hblank, List.length_map, ← List.map_drop]
  split
  · rfl
  · rename_i hle
    rw [Nat.sub_eq_zero_of_le (not_lt.mp hle)]

theorem length_intercalate_le {α : Type} {f g : α → String} (hle : ∀ a, (f a).length ≤ (g a).length) (l : List α) :
    ("\n".intercalate (l.map f)).length ≤ ("\n".intercalate (l.map g)).length := by
  induction l with
  | nil => exact Nat.le_refl _
  | cons a rest ih =>
    cases rest with
    | nil =>
      rw [List.map_singleton, List.map_singleton, String.intercalate_singleton, String.intercalate_singleton]
      exact hle a
    | cons b rest =>
      simp only [List.map_cons, String.intercalate_cons_cons, String.length_append] at ih ⊢
      have ha := hle a
      omega

theorem intercalate_eq_iff {α : Type} {f g : α → String} (hle : ∀ a, (f a).length ≤ (g a).length) (l : List α) :
    "\n".intercalate (l.map f) = "\n".intercalate (l.map g) ↔ ∀ a ∈ l, f a = g a := by
  induction l with
  | nil => simp
  | cons a rest ih =>
    rw [List.forall_mem_cons, ← ih]
    cases rest with
    | nil =>
      rw [List.map_singleton, List.map_singleton, String.intercalate_singleton, String.intercalate_singleton]
      exact (and_iff_left rfl).symm
    | cons b rest =>
      have hrest := length_intercalate_le hle (b :: rest)
      simp only [List.map_cons, String.intercalate_cons_cons] at hrest ⊢
      rw [append_eq_append_iff_of_le _ hrest, append_eq_append_iff_of_le (hle a) (Nat.le_refl _), and_iff_left rfl]
      rw [String.length_append, String.length_append]
      exact Nat.add_le_add_right (hle a) _

/-- The text of a snapshot keeps the logical lines just when only the ends of these have blanks. -/
theorem terminalSnapshotText_eq_iff (buffer : List BufferLine) :
    terminalSnapshotText buffer = logicalText buffer ↔ ∀ rows ∈ keptLines buffer, BlanksAtEnd rows := by
  rw [terminalSnapshotText, foldl_addRow, lastLines_map_joined]
  refine (intercalate_eq_iff length_joined_le (keptLines buffer)).trans ?_
  exact forall₂_congr fun rows _ => joined_eq_iff rows

/-- A blank in the last column: the words on both sides of the wrap run together. -/
theorem blank_at_wrap_lost :
    ¬(terminalSnapshotText [⟨"one ", false⟩, ⟨"two", true⟩] = logicalText [⟨"one ", false⟩, ⟨"two", true⟩]) := by
  decide

end Portix.Stores
