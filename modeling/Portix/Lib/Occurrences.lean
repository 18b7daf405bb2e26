import Mathlib.Data.List.Basic

/-!
# Occurrences of one list in another

`indexOf` looks for the next one; a scan takes one after the other, none of which overlaps the one before.
-/

namespace Portix.Lib

variable {α : Type} {text needle : List α} {start i : Nat} {places : List Nat}

/-- A list begins at a place of another. -/
def OccursAt (text needle : List α) (i : Nat) : Prop := needle <+: text.drop i

theorem OccursAt.add_length_le (h : OccursAt text needle i) (hneedle : needle ≠ []) :
    i + needle.length ≤ text.length := by
  have hpos := List.length_pos_iff.mpr hneedle
  have hle := List.IsPrefix.length_le h
  rw [List.length_drop] at hle
  omega

section IndexOf

variable [DecidableEq α]

instance (text needle : List α) (i : Nat) : Decidable (OccursAt text needle i) :=
  inferInstanceAs (Decidable (_ <+: _))

def indexOf (text needle : List α) (start : Nat) : Option Nat :=
  (List.range' start (text.length + 1 - start)).find? fun i => OccursAt text needle i

theorem indexOf_eq_some (h : indexOf text needle start = some i) :
    start ≤ i ∧ OccursAt text needle i ∧ ∀ j, start ≤ j → j < i → ¬ OccursAt text needle j := by
  obtain ⟨hoccurs, before, after, hsplit, hbefore⟩ := List.find?_eq_some_iff_append.mp h
  have hplace : (List.range' start (text.length + 1 - start))[before.length]? = some i := by
    rw [hsplit, List.getElem?_append_right (Nat.le_refl _), Nat.sub_self]
    rfl
  obtain ⟨hlt, hvalue⟩ := List.getElem?_eq_some_iff.mp hplace
  rw [List.getElem_range'] at hvalue
  refine ⟨by omega, of_decide_eq_true hoccurs, fun j hstart hj => ?_⟩
  have hmem : j ∈ before := by
    have hj' : (List.range' start (text.length + 1 - start))[j - start]? = some j := by
      rw [List.getElem?_eq_some_iff]
      exact ⟨by omega, by rw [List.getElem_range']; omega⟩
    rw [hsplit, List.getElem?_append_left (by omega)] at hj'
    exact List.mem_of_getElem? hj'
  simpa using hbefore j hmem

theorem indexOf_eq_none (h : indexOf text needle start = none) (hneedle : needle ≠ []) (j : Nat) (hj : start ≤ j) :
    ¬ OccursAt text needle j := by
  intro hoccurs
  have hle := hoccurs.add_length_le hneedle
  have hmem : j ∈ List.range' start (text.length + 1 - start) := List.mem_range'_1.mpr ⟨hj, by omega⟩
  exact List.find?_eq_none.mp h j hmem (decide_eq_true hoccurs)

theorem indexOf_eq_some_of (hstart : start ≤ i) (hoccurs : OccursAt text needle i) (hneedle : needle ≠ [])
    (hfirst : ∀ j, start ≤ j → j < i → ¬ OccursAt text needle j) : indexOf text needle start = some i := by
  cases hnext : indexOf text needle start with
  | none => exact absurd hoccurs (indexOf_eq_none hnext hneedle i hstart)
  | some j =>
    obtain ⟨hstart', hoccurs', hfirst'⟩ := indexOf_eq_some hnext
    rcases Nat.lt_trichotomy i j with hlt | rfl | hlt
    · exact absurd hoccurs (hfirst' i hstart hlt)
    · rfl
    · exact absurd hoccurs' (hfirst j hstart' hlt)

theorem indexOf_eq_none_of (hnone : ∀ j, start ≤ j → ¬ OccursAt text needle j) : indexOf text needle start = none := by
  cases hnext : indexOf text needle start with
  | none => rfl
  | some i =>
    obtain ⟨hstart, hoccurs, _⟩ := indexOf_eq_some hnext
    exact absurd hoccurs (hnone i hstart)

end IndexOf

/-- The occurrences from a place on, from left to right; the next one is looked for behind the last. -/
inductive Scan (text needle : List α) : Nat → List Nat → Prop where
  | done {start : Nat} (hnone : ∀ j, start ≤ j → ¬ OccursAt text needle j) : Scan text needle start []
  | next {start i : Nat} {places : List Nat} (hstart : start ≤ i) (hoccurs : OccursAt text needle i)
      (hfirst : ∀ j, start ≤ j → j < i → ¬ OccursAt text needle j)
      (rest : Scan text needle (i + needle.length) places) : Scan text needle start (i :: places)

namespace Scan

theorem unique {places' : List Nat} (h : Scan text needle start places) (h' : Scan text needle start places') :
    places = places' := by
  induction h generalizing places' with
  | done hnone =>
    cases h' with
    | done => rfl
    | next hstart hoccurs => exact absurd hoccurs (hnone _ hstart)
  | @next start i places hstart hoccurs hfirst _ ih =>
    cases h' with
    | done hnone => exact absurd hoccurs (hnone _ hstart)
    | @next _ j _ hstart' hoccurs' hfirst' rest' =>
      rcases Nat.lt_trichotomy i j with hlt | heq | hlt
      · exact absurd hoccurs (hfirst' i hstart hlt)
      · subst heq
        rw [ih rest']
      · exact absurd hoccurs' (hfirst j hstart' hlt)

theorem exists_scan [DecidableEq α] (text : List α) (hneedle : needle ≠ []) (start : Nat) :
    ∃ places, Scan text needle start places := by
  have hpos := List.length_pos_iff.mpr hneedle
  induction hrest : text.length + 1 - start using Nat.strongRecOn generalizing start with
  | ind rest ih =>
    cases hnext : indexOf text needle start with
    | none => exact ⟨[], .done (indexOf_eq_none hnext hneedle)⟩
    | some i =>
      obtain ⟨hstart, hoccurs, hfirst⟩ := indexOf_eq_some hnext
      have hle := hoccurs.add_length_le hneedle
      obtain ⟨places, hscan⟩ := ih _ (by omega) (i + needle.length) rfl
      exact ⟨i :: places, .next hstart hoccurs hfirst hscan⟩

theorem occursAt (h : Scan text needle start places) (hmem : i ∈ places) : OccursAt text needle i := by
  induction h with
  | done => exact absurd hmem List.not_mem_nil
  | next _ hoccurs _ _ ih =>
    rcases List.mem_cons.mp hmem with rfl | hrest
    · exact hoccurs
    · exact ih hrest

theorem start_le (h : Scan text needle start places) (hmem : i ∈ places) : start ≤ i := by
  induction h with
  | done => exact absurd hmem List.not_mem_nil
  | next hstart _ _ _ ih =>
    rcases List.mem_cons.mp hmem with rfl | hrest
    · exact hstart
    · exact Nat.le_trans hstart (Nat.le_trans (Nat.le_add_right _ _) (ih hrest))

theorem pairwise_lt (h : Scan text needle start places) (hneedle : needle ≠ []) : places.Pairwise (· < ·) := by
  have hpos := List.length_pos_iff.mpr hneedle
  induction h with
  | done => exact .nil
  | next _ _ _ rest ih =>
    refine .cons (fun j hj => ?_) ih
    have hle := rest.start_le hj
    omega

end Scan

section Cut

variable [DecidableEq α]

/-- The pieces of a list between the occurrences of another, of which so many letters are still to come. -/
def cutAt (needle : List α) : Nat → List α → List (List α)
  | _, [] => [[]]
  | skip + 1, _ :: rest => cutAt needle skip rest
  | 0, a :: rest =>
    if needle <+: a :: rest then [] :: cutAt needle (needle.length - 1) rest
    else (cutAt needle 0 rest).modifyHead (a :: ·)

theorem cutAt_skip (needle : List α) : ∀ skipped rest : List α,
    cutAt needle skipped.length (skipped ++ rest) = cutAt needle 0 rest
  | [], _ => rfl
  | _ :: skipped, rest => cutAt_skip needle skipped rest

theorem cutAt_append {needle : List α} (hneedle : needle ≠ []) (rest : List α) : ∀ {piece : List α},
    (∀ i < piece.length, ¬ OccursAt (piece ++ needle ++ rest) needle i) →
    cutAt needle 0 (piece ++ needle ++ rest) = piece :: cutAt needle 0 rest
  | [], _ => by
    obtain ⟨a, needle, rfl⟩ := List.exists_cons_of_ne_nil hneedle
    rw [List.nil_append, List.cons_append, cutAt, if_pos ⟨rest, rfl⟩, List.length_cons, Nat.add_sub_cancel, cutAt_skip]
  | a :: piece, hnone => by
    have hrest : ∀ i < piece.length, ¬ OccursAt (piece ++ needle ++ rest) needle i := fun i hi =>
      hnone (i + 1) (Nat.succ_lt_succ hi)
    have hhere : ¬ needle <+: a :: (piece ++ needle ++ rest) := hnone 0 (Nat.succ_pos _)
    rw [List.cons_append, List.cons_append, cutAt, if_neg hhere, cutAt_append hneedle rest hrest]
    rfl

theorem cutAt_eq_singleton {needle : List α} : ∀ {piece : List α}, (∀ i, ¬ OccursAt piece needle i) →
    cutAt needle 0 piece = [piece]
  | [], _ => rfl
  | a :: piece, hnone => by
    have hhere : ¬ needle <+: a :: piece := hnone 0
    rw [cutAt, if_neg hhere, cutAt_eq_singleton fun i => hnone (i + 1)]
    rfl

end Cut

end Portix.Lib
