import Mathlib.Data.List.Flatten
import Mathlib.Data.List.ReduceOption
import Portix.Terminal.TerminalPanelState

/-!
# The sessions of a tree of panes

What the operations on a tree of panes do to its sessions, in the order of their panes.
-/

namespace Portix.Terminal.SplitNode

variable {root node : SplitNode} {children : List SplitNode} {id target new : String}

@[induction_eliminator]
theorem induction {P : SplitNode → Prop} (leaf : ∀ sessionId, P (.leaf sessionId))
    (branch : ∀ axis children weights, (∀ child ∈ children, P child) → P (.branch axis children weights)) :
    ∀ root, P root :=
  SplitNode.rec (motive_1 := P) (motive_2 := fun children => ∀ child ∈ children, P child) leaf branch
    (fun _ hmem => absurd hmem List.not_mem_nil)
    (fun _ _ hchild hchildren _ hmem => (List.mem_cons.mp hmem).elim (fun heq => heq ▸ hchild)
      (hchildren _))

theorem childIds_eq_flatMap : childIds children = children.flatMap sessionIds := by
  induction children with
  | nil => rfl
  | cons child children ih =>
    rw [childIds, List.flatMap_cons, ih]

theorem removeChildren_eq_map : removeChildren id children = children.map (removeSession id) := by
  induction children with
  | nil => rfl
  | cons child children ih =>
    rw [removeChildren, List.map_cons, ih]

theorem insertChildren_eq_map {direction : SplitDirection} :
    insertChildren target new direction children = children.map (insertSplit target new direction) := by
  induction children with
  | nil => rfl
  | cons child children ih =>
    rw [insertChildren, List.map_cons, ih]

theorem replaceChildren_eq_map {replacements : String → Option String} :
    replaceChildren replacements children = children.map (replaceSessionIds replacements) := by
  induction children with
  | nil => rfl
  | cons child children ih =>
    rw [replaceChildren, List.map_cons, ih]

theorem replaceChildBranches_eq_map {axis : Axis} {ids : List String} {replacement : SplitNode} :
    replaceChildBranches axis ids replacement children = children.map (replaceBranch axis ids replacement) := by
  induction children with
  | nil => rfl
  | cons child children ih =>
    rw [replaceChildBranches, List.map_cons, ih]

def idsOf (root : Option SplitNode) : List String := root.elim [] sessionIds

theorem flatMap_reduceOption (children : List (Option SplitNode)) :
    children.reduceOption.flatMap sessionIds = children.flatMap idsOf := by
  induction children with
  | nil => rfl
  | cons child children ih =>
    cases child with
    | none => rw [List.reduceOption_cons_of_none, List.flatMap_cons, ih]; rfl
    | some child => rw [List.reduceOption_cons_of_some, List.flatMap_cons, List.flatMap_cons, ih]; rfl

theorem idsOf_collapse (axis : Axis) (children : List (Option SplitNode)) (weights : List ℚ) :
    idsOf (collapse axis children weights) = children.flatMap idsOf := by
  rw [← flatMap_reduceOption]
  unfold collapse
  split
  · rename_i hnone
    rw [hnone]
    rfl
  · rename_i child hone
    rw [hone]
    exact (List.append_nil _).symm
  · rename_i hmany
    show childIds children.reduceOption = _
    exact childIds_eq_flatMap

@[simp] theorem idsOf_removeSession (id : String) (root : SplitNode) :
    idsOf (root.removeSession id) = root.sessionIds.filter fun other => other ≠ id := by
  induction root with
  | leaf sessionId =>
    unfold removeSession
    by_cases hsame : sessionId = id
    · rw [if_pos hsame, sessionIds, List.filter_cons_of_neg (by simpa using hsame)]
      rfl
    · rw [if_neg hsame, sessionIds, List.filter_cons_of_pos (by simpa using hsame)]
      rfl
  | branch axis children weights ih =>
    rw [removeSession, idsOf_collapse, removeChildren_eq_map, List.flatMap_map, sessionIds,
      childIds_eq_flatMap, List.filter_flatMap]
    apply List.flatMap_congr
    exact ih

theorem sessionIds_ne_nil_of_removeSession (hleft : root.removeSession id = some node) :
    node.sessionIds ≠ [] := by
  induction root generalizing node with
  | leaf sessionId =>
    unfold removeSession at hleft
    split at hleft
    · cases hleft
    · cases hleft
      exact List.cons_ne_nil _ _
  | branch axis children weights ih =>
    have hkept : ∀ child ∈ (removeChildren id children).reduceOption, child.sessionIds ≠ [] := by
      intro child hmem
      rw [removeChildren_eq_map, List.reduceOption, List.mem_filterMap] at hmem
      obtain ⟨left, hmem, rfl⟩ := hmem
      rw [List.mem_map] at hmem
      obtain ⟨old, hold, hchild⟩ := hmem
      exact ih old hold hchild
    unfold removeSession collapse at hleft
    split at hleft
    · cases hleft
    · rename_i child hone
      cases hleft
      apply hkept
      rw [hone]
      exact List.mem_cons_self
    · cases hleft
      rename_i hnone hone
      cases hall : (removeChildren id children).reduceOption with
      | nil => exact absurd hall hnone
      | cons first rest =>
        have hfirst : first.sessionIds ≠ [] := by
          apply hkept
          rw [hall]
          exact List.mem_cons_self
        rw [sessionIds, childIds]
        exact List.append_ne_nil_of_left_ne_nil hfirst _

theorem removeSession_eq_none :
    root.removeSession id = none ↔ (root.sessionIds.filter fun other => other ≠ id) = [] := by
  rw [← idsOf_removeSession]
  constructor
  · intro hnone
    rw [hnone]
    rfl
  · intro hempty
    cases hleft : root.removeSession id with
    | none => rfl
    | some node =>
      rw [hleft] at hempty
      exact absurd hempty (sessionIds_ne_nil_of_removeSession hleft)

theorem sessionIds_of_removeSession (hleft : root.removeSession id = some node) :
    node.sessionIds = root.sessionIds.filter fun other => other ≠ id := by
  rw [← idsOf_removeSession, hleft]
  rfl

theorem exists_removeSession {other : String} (hmem : other ∈ root.sessionIds) (hne : other ≠ id) :
    ∃ node, root.removeSession id = some node := by
  apply Option.ne_none_iff_exists'.mp
  intro hnone
  have hempty := removeSession_eq_none.mp hnone
  rw [List.filter_eq_nil_iff] at hempty
  exact hempty other hmem (decide_eq_true hne)

def splitPair (target new : String) (direction : SplitDirection) : List String :=
  if direction.isBefore then [new, target] else [target, new]

variable (direction : SplitDirection)

theorem sessionIds_insertSplit : (root.insertSplit target new direction).sessionIds =
      root.sessionIds.flatMap fun id => if id = target then splitPair target new direction else [id] := by
  induction root with
  | leaf sessionId =>
    rw [insertSplit, sessionIds, List.flatMap_singleton]
    by_cases hsame : sessionId = target
    · rw [if_neg (not_not_intro hsame), if_pos hsame]
      unfold splitPair
      cases direction.isBefore with
      | true => rfl
      | false => rfl
    · rw [if_pos hsame, if_neg hsame, sessionIds]
  | branch axis children weights ih =>
    rw [insertSplit, sessionIds, sessionIds, childIds_eq_flatMap, childIds_eq_flatMap, insertChildren_eq_map,
      List.flatMap_map, List.flatMap_assoc]
    apply List.flatMap_congr
    exact ih

theorem perm_splitPair : (splitPair target new direction).Perm [new, target] := by
  unfold splitPair
  split
  · exact .refl _
  · exact .swap _ _ _

theorem perm_insertSplit (hnodup : root.sessionIds.Nodup)
    (htarget : target ∈ root.sessionIds) :
    (root.insertSplit target new direction).sessionIds.Perm (new :: root.sessionIds) := by
  rw [sessionIds_insertSplit]
  generalize root.sessionIds = ids at hnodup htarget
  induction ids with
  | nil => cases htarget
  | cons id ids ih =>
    obtain ⟨hnot, hrest⟩ := List.nodup_cons.mp hnodup
    rw [List.flatMap_cons]
    rcases List.mem_cons.mp htarget with rfl | hmem
    · have hsame : (ids.flatMap fun other => if other = target then splitPair target new direction
          else [other]) = ids.flatMap fun other => [other] := by
        apply List.flatMap_congr
        intro other hother
        apply if_neg
        rintro rfl
        exact hnot hother
      rw [if_pos rfl, hsame, List.flatMap_singleton']
      exact (perm_splitPair direction).append_right ids
    · have hne : id ≠ target := by
        rintro rfl
        exact hnot hmem
      rw [if_neg hne]
      exact ((ih hrest hmem).cons id).trans (.swap _ _ _)

@[simp] theorem sessionIds_replaceSessionIds (replacements : String → Option String) (root : SplitNode) :
    (root.replaceSessionIds replacements).sessionIds = root.sessionIds.map fun id => (replacements id).getD id := by
  induction root with
  | leaf sessionId => rfl
  | branch axis children weights ih =>
    rw [replaceSessionIds, sessionIds, sessionIds, childIds_eq_flatMap, childIds_eq_flatMap,
      replaceChildren_eq_map, List.flatMap_map, List.map_flatMap]
    apply List.flatMap_congr
    exact ih

theorem sessionIds_replaceBranch {axis : Axis} {ids : List String} {replacement : SplitNode}
    (hids : replacement.sessionIds = ids) : (replaceBranch axis ids replacement root).sessionIds = root.sessionIds := by
  induction root with
  | leaf sessionId => rfl
  | branch axis' children weights ih =>
    rw [replaceBranch]
    split
    · rename_i hsame
      rw [hids, sessionIds]
      exact hsame.2.symm
    · rw [sessionIds, sessionIds, childIds_eq_flatMap, childIds_eq_flatMap, replaceChildBranches_eq_map,
        List.flatMap_map]
      apply List.flatMap_congr
      exact ih

theorem sessionIds_withAdjustedDivider (axis : Axis) (weights : List ℚ) (dividerIndex : Int) (delta : ℚ) :
    (withAdjustedDivider axis children weights dividerIndex delta).sessionIds = childIds children := by
  unfold withAdjustedDivider
  split
  · rfl
  · rfl

end Portix.Terminal.SplitNode
