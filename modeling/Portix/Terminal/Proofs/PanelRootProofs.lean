import Mathlib.Data.List.Perm.Subperm
import Portix.Terminal.Proofs.SplitNodeProofs

/-!
# The trees of the terminal panel

What becomes of the sessions of a tree where the panel takes one out, drags one in, or drops those that
are not in the list any more.
-/

namespace Portix.Terminal.TerminalPanelState

open Connection (ConnectionManager)

variable {root node : SplitNode} {id target dragged : String} {m : ConnectionManager}

theorem removeOrKeep_of_some (hleft : root.removeSession id = some node) : removeOrKeep id root = node := by
  unfold removeOrKeep
  rw [hleft]
  rfl

theorem sublist_removeOrKeep (id : String) (root : SplitNode) :
    (removeOrKeep id root).sessionIds.Sublist root.sessionIds := by
  cases hleft : root.removeSession id with
  | none =>
    unfold removeOrKeep
    rw [hleft]
    exact .refl _
  | some node =>
    rw [removeOrKeep_of_some hleft, SplitNode.sessionIds_of_removeSession hleft]
    exact List.filter_sublist

variable {ids : List String}

theorem length_le_one_of_all_eq (hnodup : ids.Nodup) (hall : ∀ other ∈ ids, other = id) : ids.length ≤ 1 := by
  have hsub : ids ⊆ [id] := fun other hmem => List.mem_singleton.mpr (hall other hmem)
  exact (List.subperm_of_subset hnodup hsub).length_le

theorem removeSession_of_two_le (hnodup : root.sessionIds.Nodup) (htwo : 2 ≤ (removeOrKeep id root).sessionIds.length) :
    root.removeSession id = some (removeOrKeep id root) := by
  cases hleft : root.removeSession id with
  | some node => rw [removeOrKeep_of_some hleft]
  | none =>
    have hall : ∀ other ∈ root.sessionIds, other = id := by
      intro other hmem
      by_contra hne
      have hempty := List.filter_eq_nil_iff.mp (SplitNode.removeSession_eq_none.mp hleft) other hmem
      exact hempty (decide_eq_true hne)
    have hone := length_le_one_of_all_eq hnodup hall
    have hless := (sublist_removeOrKeep id root).length_le
    omega

theorem sessionIds_removeOrKeep_of_two_le (hnodup : root.sessionIds.Nodup)
    (htwo : 2 ≤ (removeOrKeep id root).sessionIds.length) :
    (removeOrKeep id root).sessionIds = root.sessionIds.filter fun other => other ≠ id :=
  SplitNode.sessionIds_of_removeSession (removeSession_of_two_le hnodup htwo)

/-- A tree with a session dragged next to one of its panes is the tree without it, with the session
inserted. -/
theorem splitRootWith_eq (htarget : target ∈ root.sessionIds) (hne : target ≠ dragged) (direction : SplitDirection) :
    splitRootWith root target dragged direction =
      (removeOrKeep dragged root).insertSplit target dragged direction := by
  obtain ⟨node, hleft⟩ := SplitNode.exists_removeSession htarget hne
  unfold splitRootWith
  rw [removeOrKeep_of_some hleft, hleft]
  rfl

theorem sessionIds_removeOrKeep_of_mem (htarget : target ∈ root.sessionIds) (hne : target ≠ dragged) :
    (removeOrKeep dragged root).sessionIds = root.sessionIds.filter fun other => other ≠ dragged := by
  obtain ⟨node, hleft⟩ := SplitNode.exists_removeSession htarget hne
  rw [removeOrKeep_of_some hleft]
  exact SplitNode.sessionIds_of_removeSession hleft

theorem perm_splitRootWith (hnodup : root.sessionIds.Nodup) (htarget : target ∈ root.sessionIds)
    (hne : target ≠ dragged) (direction : SplitDirection) :
    (splitRootWith root target dragged direction).sessionIds.Perm
      (dragged :: (removeOrKeep dragged root).sessionIds) := by
  have hleft := sessionIds_removeOrKeep_of_mem htarget hne
  rw [splitRootWith_eq htarget hne]
  apply SplitNode.perm_insertSplit
  · rw [hleft]
    exact hnodup.filter _
  · rw [hleft, List.mem_filter]
    exact ⟨htarget, decide_eq_true hne⟩

theorem idsOf_dropClosed (root : Option SplitNode) :
    SplitNode.idsOf (if id ∈ m.ids then root else root.bind (SplitNode.removeSession id)) =
      (SplitNode.idsOf root).filter fun other => other ∈ m.ids ∨ other ≠ id := by
  by_cases hlisted : id ∈ m.ids
  · rw [if_pos hlisted]
    refine (List.filter_eq_self.mpr fun other _ => decide_eq_true ?_).symm
    by_cases hsame : other = id
    · exact .inl (hsame ▸ hlisted)
    · exact .inr hsame
  · rw [if_neg hlisted]
    have hfilter : ∀ ids : List String, (ids.filter fun other => decide (other ∈ m.ids ∨ other ≠ id)) =
        ids.filter fun other => decide (other ≠ id) := by
      intro ids
      apply List.filter_congr
      intro other _
      by_cases hsame : other = id
      · simp [hsame, hlisted]
      · simp [hsame]
    rw [hfilter]
    cases root with
    | none => rfl
    | some root => exact SplitNode.idsOf_removeSession id root

theorem idsOf_dropAll (ids : List String) (root : Option SplitNode) :
    SplitNode.idsOf (ids.foldl (fun root id => if id ∈ m.ids then root
      else root.bind (SplitNode.removeSession id)) root) =
        (SplitNode.idsOf root).filter fun other => other ∈ m.ids ∨ other ∉ ids := by
  induction ids generalizing root with
  | nil => simp
  | cons id ids ih =>
    rw [List.foldl_cons, ih, idsOf_dropClosed, List.filter_filter]
    apply List.filter_congr
    intro other _
    rw [← Bool.decide_and]
    congr 1
    rw [List.mem_cons, not_or, eq_iff_iff]
    tauto

@[simp] theorem idsOf_syncRoot (m : ConnectionManager) (root : SplitNode) :
    SplitNode.idsOf (syncRoot m root) = root.sessionIds.filter fun id => id ∈ m.ids := by
  unfold syncRoot
  rw [idsOf_dropAll]
  apply List.filter_congr
  intro id hmem
  have hmem' : id ∈ root.sessionIds := hmem
  simp [hmem']

theorem foldl_sync (hmem : id ∈ root.sessionIds) (hlisted : id ∈ m.ids) :
    (ids.foldl (fun root id => if id ∈ m.ids then root else root.bind (SplitNode.removeSession id))
      (some root)) = some (ids.foldl (fun root id => if id ∈ m.ids then root else removeOrKeep id root) root) := by
  induction ids generalizing root with
  | nil => rfl
  | cons other ids ih =>
    rw [List.foldl_cons, List.foldl_cons]
    by_cases hother : other ∈ m.ids
    · rw [if_pos hother, if_pos hother]
      exact ih hmem
    · have hne : id ≠ other := by
        rintro rfl
        exact hother hlisted
      obtain ⟨node, hleft⟩ := SplitNode.exists_removeSession hmem hne
      rw [if_neg hother, if_neg hother, Option.bind_some, hleft, removeOrKeep_of_some hleft]
      apply ih
      rw [SplitNode.sessionIds_of_removeSession hleft, List.mem_filter]
      exact ⟨hmem, decide_eq_true hne⟩

theorem syncRoot_of_listed (hmem : id ∈ root.sessionIds) (hlisted : id ∈ m.ids) :
    syncRoot m root = some (syncWorkspaceRoot m root) := foldl_sync hmem hlisted

theorem sessionIds_syncWorkspaceRoot_of_listed (hmem : id ∈ root.sessionIds) (hlisted : id ∈ m.ids) :
    (syncWorkspaceRoot m root).sessionIds = root.sessionIds.filter fun id => id ∈ m.ids := by
  rw [← idsOf_syncRoot, syncRoot_of_listed hmem hlisted]
  rfl

theorem sublist_foldl_keep (ids : List String) (root : SplitNode) :
    (ids.foldl (fun root id => if id ∈ m.ids then root else removeOrKeep id root) root).sessionIds.Sublist
      root.sessionIds := by
  induction ids generalizing root with
  | nil => exact .refl _
  | cons id ids ih =>
    rw [List.foldl_cons]
    refine (ih _).trans ?_
    split
    · exact .refl _
    · exact sublist_removeOrKeep id root

theorem sublist_syncWorkspaceRoot (m : ConnectionManager) (root : SplitNode) :
    (syncWorkspaceRoot m root).sessionIds.Sublist root.sessionIds := sublist_foldl_keep _ _

theorem length_foldl_keep (hnodup : root.sessionIds.Nodup)
    (hclosed : ∀ id ∈ root.sessionIds, id ∉ m.ids) (hsub : root.sessionIds ⊆ ids) :
    (ids.foldl (fun root id => if id ∈ m.ids then root else removeOrKeep id root) root).sessionIds.length ≤ 1 := by
  induction ids generalizing root with
  | nil =>
    rw [List.foldl_nil, List.subset_nil.mp hsub]
    exact Nat.zero_le 1
  | cons id ids ih =>
    rw [List.foldl_cons]
    by_cases hlisted : id ∈ m.ids
    · rw [if_pos hlisted]
      apply ih hnodup hclosed
      intro other hmem
      rcases List.mem_cons.mp (hsub hmem) with rfl | hrest
      · exact absurd hlisted (hclosed _ hmem)
      · exact hrest
    · rw [if_neg hlisted]
      have hshrunk := sublist_removeOrKeep id root
      by_cases htwo : 2 ≤ (removeOrKeep id root).sessionIds.length
      · have hleft := sessionIds_removeOrKeep_of_two_le hnodup htwo
        apply ih (hshrunk.nodup hnodup) fun other hmem => hclosed other (hshrunk.subset hmem)
        intro other hmem
        rw [hleft, List.mem_filter, decide_eq_true_iff] at hmem
        rcases List.mem_cons.mp (hsub hmem.1) with heq | hrest
        · exact absurd heq hmem.2
        · exact hrest
      · have hless := (sublist_foldl_keep (m := m) ids (removeOrKeep id root)).length_le
        omega

theorem exists_listed_of_two_le (hnodup : root.sessionIds.Nodup)
    (htwo : 2 ≤ (syncWorkspaceRoot m root).sessionIds.length) : ∃ id ∈ root.sessionIds, id ∈ m.ids := by
  by_contra hnone
  have hclosed : ∀ id ∈ root.sessionIds, id ∉ m.ids := fun id hmem hlisted => hnone ⟨id, hmem, hlisted⟩
  have hone : (syncWorkspaceRoot m root).sessionIds.length ≤ 1 :=
    length_foldl_keep hnodup hclosed (List.Subset.refl _)
  omega

end Portix.Terminal.TerminalPanelState
