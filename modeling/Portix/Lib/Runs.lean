import Mathlib.Data.List.SplitBy

/-!
# Runs of a list

What one more element at the end does to the runs of a list (`List.splitBy`) and to pieces that are joined by a
separator (`List.intercalate`), and how a sorted list is cut.
-/

namespace Portix.Lib

variable {α : Type}

theorem splitBy_concat_of_false {r : α → α → Bool} {l : List α} {a b : α} (h : r a b = false) :
    (l ++ [a] ++ [b]).splitBy r = (l ++ [a]).splitBy r ++ [[b]] := by
  refine List.splitBy_append_cons [] fun x hx => ?_
  rw [List.getLast?_concat, Option.mem_some_iff] at hx
  rw [← hx, h]

theorem splitBy_concat_of_true {r : α → α → Bool} {l : List α} {a b : α} (h : r a b = true) :
    ∃ (runs : List (List α)) (run : List α), (l ++ [a]).splitBy r = runs ++ [run] ∧
      (l ++ [a] ++ [b]).splitBy r = runs ++ [run ++ [b]] := by
  have hne : (l ++ [a]).splitBy r ≠ [] := List.splitBy_ne_nil.mpr (by simp)
  obtain ⟨runs, run, hruns⟩ : ∃ runs run, (l ++ [a]).splitBy r = runs ++ [run] :=
    ⟨_, _, (List.dropLast_append_getLast hne).symm⟩
  refine ⟨runs, run, hruns, ?_⟩
  obtain ⟨hflat, hnil, hchain, hlast⟩ := List.splitBy_eq_iff.mp hruns
  have hrun : run ≠ [] := fun h0 => hnil (by rw [h0]; simp)
  -- The last run ends with the last element of the list.
  have hend : run.getLast? = some a := by
    have hcongr := congrArg List.getLast? hflat
    rw [List.getLast?_concat, List.flatten_append, List.flatten_singleton,
      List.getLast?_append_of_ne_nil _ hrun] at hcongr
    exact hcongr.symm
  rw [List.splitBy_eq_iff]
  refine ⟨?_, ?_, ?_, ?_⟩
  · rw [hflat, List.flatten_append, List.flatten_append, List.flatten_singleton, List.flatten_singleton,
      List.append_assoc]
  · intro hmem
    rcases List.mem_append.mp hmem with hmem | hmem
    · exact hnil (List.mem_append_left _ hmem)
    · simp at hmem
  · intro m hm
    rcases List.mem_append.mp hm with hm | hm
    · exact hchain m (List.mem_append_left _ hm)
    · rw [List.mem_singleton.mp hm, List.isChain_append]
      refine ⟨hchain run (by simp), List.isChain_singleton _, fun x hx y hy => ?_⟩
      rw [hend, Option.mem_some_iff] at hx
      rw [List.head?_cons, Option.mem_some_iff] at hy
      rw [← hx, ← hy, h]
  · rw [List.isChain_append] at hlast ⊢
    refine ⟨hlast.1, List.isChain_singleton _, fun x hx y hy => ?_⟩
    obtain ⟨hx0, _, hrel⟩ := hlast.2.2 x hx run (by simp)
    rw [List.head?_cons, Option.mem_some_iff] at hy
    subst hy
    refine ⟨hx0, by simp, ?_⟩
    rw [List.head_append_of_ne_nil hrun]
    exact hrel

theorem intercalate_concat {sep x : List α} {pieces : List (List α)} (h : pieces ≠ []) :
    sep.intercalate (pieces ++ [x]) = sep.intercalate pieces ++ sep ++ x := by
  induction pieces with
  | nil => exact absurd rfl h
  | cons piece rest ih =>
    cases rest with
    | nil =>
      rw [List.singleton_append, List.intercalate_cons_cons, List.intercalate_singleton,
        List.intercalate_singleton]
    | cons next rest =>
      rw [List.cons_append, List.cons_append, List.intercalate_cons_cons, ← List.cons_append,
        ih (List.cons_ne_nil _ _), List.intercalate_cons_cons]
      simp only [List.append_assoc]

theorem intercalate_concat_append {sep x y : List α} (pieces : List (List α)) :
    sep.intercalate (pieces ++ [x ++ y]) = sep.intercalate (pieces ++ [x]) ++ y := by
  by_cases h : pieces = []
  · rw [h, List.nil_append, List.nil_append, List.intercalate_singleton, List.intercalate_singleton]
  · rw [intercalate_concat h, intercalate_concat h, List.append_assoc, List.append_assoc, List.append_assoc]

theorem takeWhile_eq_filter {p : α → Bool} {l : List α} (h : l.Pairwise fun a b => p b = true → p a = true) :
    l.takeWhile p = l.filter p := by
  induction l with
  | nil => rfl
  | cons a rest ih =>
    rw [List.pairwise_cons] at h
    by_cases ha : p a = true
    · rw [List.takeWhile_cons_of_pos ha, List.filter_cons_of_pos ha, ih h.2]
    · rw [List.takeWhile_cons_of_neg ha, List.filter_cons_of_neg ha]
      refine (List.filter_eq_nil_iff.mpr fun b hb hpb => ?_).symm
      exact ha (h.1 b hb hpb)

theorem countP_filter_eq_iff {p q : α → Bool} {l : List α} :
    (l.filter q).countP p = l.countP p ↔ ∀ a ∈ l, p a = true → q a = true := by
  rw [List.countP_eq_countP_filter_add l p q, Nat.left_eq_add, List.countP_eq_zero]
  constructor
  · intro h a ha hp
    by_contra hq
    exact h a (List.mem_filter.mpr ⟨ha, by simp [hq]⟩) hp
  · intro h a ha hp
    obtain ⟨ha, hq⟩ := List.mem_filter.mp ha
    rw [h a ha hp] at hq
    simp at hq

theorem countP_range_and {p : Nat → Bool} {n m : Nat} (h : n ≤ m) :
    (List.range m).countP (fun i => p i && decide (i < n)) = (List.range n).countP p := by
  obtain ⟨k, rfl⟩ := Nat.exists_eq_add_of_le h
  rw [List.range_add, List.countP_append, List.countP_map]
  have hlow : (List.range n).countP (fun i => p i && decide (i < n)) = (List.range n).countP p := by
    refine List.countP_congr fun i hi => ?_
    simp [List.mem_range.mp hi]
  have hhigh : (List.range k).countP ((fun i => p i && decide (i < n)) ∘ fun x => n + x) = 0 := by
    rw [List.countP_eq_zero]
    intro i _
    simp
  rw [hlow, hhigh, Nat.add_zero]

end Portix.Lib
