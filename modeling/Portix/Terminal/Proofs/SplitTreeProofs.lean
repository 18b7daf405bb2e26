import Mathlib.Logic.Relation
import Mathlib.Tactic.Linarith
import Portix.Terminal.Proofs.SplitNodeProofs

/-!
# Trees that are split, dragged and closed

Each branch that comes up has two panes, whose weights add up to two: so the weights stay within their bounds, and a
branch is told by its sessions.
-/

namespace Portix.Terminal.SplitNode

structure Branch where
  axis : Axis
  children : List SplitNode
  weights : List ℚ

namespace Branch

def ids (b : Branch) : List String := childIds b.children

def normalized (b : Branch) : List ℚ := normalizedWeights b.children.length b.weights

def view (b : Branch) : Axis × List String × List ℚ := (b.axis, b.ids, b.normalized)

end Branch

mutual

def branches : SplitNode → List Branch
  | .leaf _ => []
  | .branch axis children weights => ⟨axis, children, weights⟩ :: childBranches children

def childBranches : List SplitNode → List Branch
  | [] => []
  | child :: children => child.branches ++ childBranches children

end

/-- What the panel does to a tree. -/
inductive Changes : SplitNode → SplitNode → Prop where
  | insertSplit {root : SplitNode} {target new : String} (direction : SplitDirection)
      (htarget : target ∈ root.sessionIds) (hnew : new ∉ root.sessionIds) :
      Changes root (root.insertSplit target new direction)
  | removeSession {root node : SplitNode} {id : String} (hleft : root.removeSession id = some node) : Changes root node
  | replaceSessionIds {root : SplitNode} (replacements : String → Option String)
      (hdistinct : ∀ id other new, replacements id = some new → replacements other = some new → id = other)
      (hnew : ∀ id, ∀ new ∈ replacements id, new ∉ root.sessionIds) :
      Changes root (root.replaceSessionIds replacements)
  | drag {root : SplitNode} {b : Branch} (hb : b ∈ root.branches) (divider : Int) (delta : ℚ) :
      Changes root (replaceBranch b.axis b.ids (withAdjustedDivider b.axis b.children b.weights divider delta) root)

/-- A divider is dragged to other weights of its branch. -/
structure Dragged (root : SplitNode) (b : Branch) (divider : Int) (delta : ℚ) (next : List ℚ) : Prop where
  adjusted : withAdjustedDivider b.axis b.children b.weights divider delta = .branch b.axis b.children next
  only : (replaceBranch b.axis b.ids (.branch b.axis b.children next) root).branches.map Branch.view =
    root.branches.map fun other => if other.ids = b.ids then Branch.view { b with weights := next } else other.view
  others : ∀ k : Nat, (k : Int) ≠ divider → (k : Int) ≠ divider + 1 →
    (normalizedWeights b.children.length next)[k]? = b.normalized[k]?
  sum : (normalizedWeights b.children.length next).sum = b.normalized.sum

/-- What holds of a tree of panes. -/
structure Sound (root : SplitNode) : Prop where
  nodup : root.sessionIds.Nodup
  branches : ∀ b ∈ root.branches, 2 ≤ b.children.length ∧ b.normalized.length = b.children.length ∧
    ∀ weight ∈ b.normalized, 18 / 100 ≤ weight ∧ weight ≤ 8
  distinct : (root.branches.map Branch.ids).Nodup
  removed : ∀ id, idsOf (root.removeSession id) = root.sessionIds.erase id
  inserted : ∀ {target new : String} (direction : SplitDirection), target ∈ root.sessionIds → new ∉ root.sessionIds →
    ∃ before rest, root.sessionIds = before ++ target :: rest ∧
      (root.insertSplit target new direction).sessionIds = before ++ splitPair target new direction ++ rest
  dragged : ∀ b ∈ root.branches, ∀ divider delta, ∃ next, Dragged root b divider delta next

/-- A tree of branches with two panes each. -/
inductive Halved : SplitNode → Prop where
  | leaf (id : String) : Halved (.leaf id)
  | branch (axis : Axis) {x y : SplitNode} {v w : ℚ} (hx : Halved x) (hy : Halved y) (hsum : v + w = 2)
      (hv : 18 / 100 ≤ v) (hw : 18 / 100 ≤ w) : Halved (.branch axis [x, y] [v, w])

variable {root x y node : SplitNode} {axis : Axis} {v w : ℚ} {b : Branch}

theorem normalizedWeights_pair (hsum : v + w = 2) (hv : 18 / 100 ≤ v) (hw : 18 / 100 ≤ w) :
    normalizedWeights 2 [v, w] = [v, w] := by
  have hkeep : ∀ u : ℚ, 18 / 100 ≤ u → u ≤ 8 → max (18 / 100) (min u 8) = u := by
    intro u hlow hhigh
    rw [min_eq_left hhigh, max_eq_right hlow]
  rw [normalizedWeights, if_neg (by simp), List.map_cons, List.map_cons, List.map_nil, hkeep v hv (by linarith),
    hkeep w hw (by linarith)]

theorem Halved.ids_ne_nil (h : Halved root) : root.sessionIds ≠ [] := by
  induction h with
  | leaf id => exact List.cons_ne_nil _ _
  | branch axis hx hy hsum hv hw ihx ihy =>
    rw [sessionIds, childIds]
    exact List.append_ne_nil_of_left_ne_nil ihx _

theorem ids_pair : childIds [x, y] = x.sessionIds ++ y.sessionIds := by
  rw [childIds, childIds, childIds, List.append_nil]

theorem branches_pair : (SplitNode.branch axis [x, y] [v, w]).branches =
    ⟨axis, [x, y], [v, w]⟩ :: (x.branches ++ y.branches) := by
  rw [branches, childBranches, childBranches, childBranches, List.append_nil]

theorem view_pair {weights : List ℚ} : Branch.view ⟨axis, [x, y], weights⟩ =
    (axis, x.sessionIds ++ y.sessionIds, normalizedWeights 2 weights) := by
  rw [Branch.view, Branch.ids, ids_pair]
  rfl

/-- A branch of a halved tree is one itself, and its sessions are some of the tree. -/
theorem Halved.of_mem (h : Halved root) (hb : b ∈ root.branches) :
    Halved (.branch b.axis b.children b.weights) ∧ b.ids <:+: root.sessionIds := by
  induction h with
  | leaf id => exact absurd hb List.not_mem_nil
  | branch axis hx hy hsum hv hw ihx ihy =>
    rw [branches_pair] at hb
    rw [sessionIds, ids_pair]
    rcases List.mem_cons.mp hb with rfl | hb
    · exact ⟨.branch axis hx hy hsum hv hw, by rw [Branch.ids, ids_pair]⟩
    · rcases List.mem_append.mp hb with hb | hb
      · exact ⟨(ihx hb).1, (ihx hb).2.trans (List.prefix_append _ _).isInfix⟩
      · exact ⟨(ihy hb).1, (ihy hb).2.trans (List.suffix_append _ _).isInfix⟩

theorem Halved.length_lt (hx : Halved x) (hy : Halved y) (hb : b ∈ x.branches ++ y.branches) :
    b.ids.length < (childIds [x, y]).length := by
  have hxpos := List.length_pos_of_ne_nil hx.ids_ne_nil
  have hypos := List.length_pos_of_ne_nil hy.ids_ne_nil
  rw [ids_pair, List.length_append]
  rcases List.mem_append.mp hb with hb | hb
  · have hle := (hx.of_mem hb).2.length_le
    omega
  · have hle := (hy.of_mem hb).2.length_le
    omega

theorem Halved.nodup_branches (h : Halved root) (hnodup : root.sessionIds.Nodup) :
    (root.branches.map Branch.ids).Nodup := by
  induction h with
  | leaf id => exact List.nodup_nil
  | branch axis hx hy hsum hv hw ihx ihy =>
    rw [sessionIds, ids_pair] at hnodup
    obtain ⟨hnx, hny, hdisjoint⟩ := List.nodup_append'.mp hnodup
    rw [branches_pair, List.map_cons, List.nodup_cons, List.map_append]
    refine ⟨fun hmem => ?_, (ihx hnx).append (ihy hny) fun ids hidsx hidsy => ?_⟩
    · rw [← List.map_append] at hmem
      obtain ⟨b, hb, hids⟩ := List.mem_map.mp hmem
      exact (hx.length_lt hy hb).ne (congrArg List.length hids)
    · obtain ⟨b, hb, rfl⟩ := List.mem_map.mp hidsx
      obtain ⟨c, hc, hids⟩ := List.mem_map.mp hidsy
      obtain ⟨id, hid⟩ := List.exists_mem_of_ne_nil _ (hx.of_mem hb).1.ids_ne_nil
      exact hdisjoint ((hx.of_mem hb).2.subset hid) ((hy.of_mem hc).2.subset (hids ▸ hid))

/-- A divider goes as far as it is dragged, but leaves each of its panes a weight of 0.18. -/
theorem withAdjustedDivider_pair (hsum : v + w = 2) (hv : 18 / 100 ≤ v) (hw : 18 / 100 ≤ w) (delta : ℚ) :
    withAdjustedDivider axis [x, y] [v, w] 0 delta = .branch axis [x, y]
      [max (18 / 100) (min (v + delta) (182 / 100)), 2 - max (18 / 100) (min (v + delta) (182 / 100))] := by
  have hnow : normalizedWeights [x, y].length [v, w] = [v, w] := normalizedWeights_pair hsum hv hw
  have htotal : [v, w].getD 0 0 + [v, w].getD (0 + 1) 0 = 2 := hsum
  have hclamp : max (18 / 100) (min (v + max (-2 + 36 / 100) (min delta (2 - 36 / 100))) (2 - 18 / 100)) =
      max (18 / 100) (min (v + delta) (182 / 100)) := by
    have hleast : (-2 + 36 / 100 : ℚ) = -(164 / 100) := by norm_num
    have hmost : (2 - 36 / 100 : ℚ) = 164 / 100 := by norm_num
    have hlast : (2 - 18 / 100 : ℚ) = 182 / 100 := by norm_num
    rw [hleast, hmost, hlast]
    rcases le_total delta (164 / 100) with hdelta | hdelta
    · rw [min_eq_left hdelta]
      rcases le_total (-(164 / 100)) delta with hback | hback
      · rw [max_eq_right hback]
      · rw [max_eq_left hback, min_eq_left (by linarith), min_eq_left (by linarith), max_eq_left (by linarith),
          max_eq_left (by linarith)]
    · have hback : (-(164 / 100) : ℚ) ≤ 164 / 100 := by norm_num
      rw [min_eq_right hdelta, max_eq_right hback, min_eq_right (by linarith), min_eq_right (by linarith)]
  unfold withAdjustedDivider
  rw [if_neg (by simp), hnow]
  dsimp only
  rw [Int.toNat_zero, htotal]
  exact congrArg (fun left => SplitNode.branch axis [x, y] [left, 2 - left]) hclamp

theorem Halved.adjusted (h : Halved (.branch b.axis b.children b.weights)) (divider : Int) (delta : ℚ) :
    ∃ next, withAdjustedDivider b.axis b.children b.weights divider delta = .branch b.axis b.children next ∧
      Halved (.branch b.axis b.children next) ∧
      (∀ k : Nat, (k : Int) ≠ divider → (k : Int) ≠ divider + 1 →
        (normalizedWeights b.children.length next)[k]? = b.normalized[k]?) ∧
      (normalizedWeights b.children.length next).sum = b.normalized.sum := by
  obtain ⟨axis, children, weights⟩ := b
  cases h with
  | @branch _ x y v w hx hy hsum hv hw =>
    have hnow : Branch.normalized ⟨axis, [x, y], [v, w]⟩ = [v, w] := normalizedWeights_pair hsum hv hw
    dsimp only
    rw [hnow]
    by_cases hdivider : divider = 0
    · subst hdivider
      rw [withAdjustedDivider_pair hsum hv hw]
      generalize hleft : max (18 / 100 : ℚ) (min (v + delta) (182 / 100)) = left
      have hlow : 18 / 100 ≤ left := hleft ▸ le_max_left _ _
      have hhigh : left ≤ 182 / 100 := hleft ▸ max_le (by norm_num) (min_le_right _ _)
      have hother : 18 / 100 ≤ 2 - left := by linarith
      have hboth : left + (2 - left) = 2 := add_sub_cancel _ _
      have hnext : normalizedWeights [x, y].length [left, 2 - left] = [left, 2 - left] :=
        normalizedWeights_pair hboth hlow hother
      refine ⟨[left, 2 - left], rfl, .branch axis hx hy hboth hlow hother, fun k hk hk' => ?_, ?_⟩
      · rw [hnext]
        have hbeyond : 2 ≤ k := by omega
        rw [List.getElem?_eq_none (by simpa using hbeyond), List.getElem?_eq_none (by simpa using hbeyond)]
      · rw [hnext]
        simp [hsum]
    · have hout : divider < 0 ∨ ([x, y].length : Int) - 1 ≤ divider := by
        rw [List.length_cons, List.length_singleton]
        omega
      refine ⟨[v, w], ?_, .branch axis hx hy hsum hv hw, fun k _ _ => ?_, ?_⟩
      · rw [withAdjustedDivider, if_pos hout]
      · exact congrArg (fun weights => weights[k]?) hnow
      · exact congrArg List.sum hnow

theorem sessionIds_reweighted {next : List ℚ} :
    (replaceBranch b.axis b.ids (.branch b.axis b.children next) root).sessionIds = root.sessionIds :=
  sessionIds_replaceBranch rfl

/-- One branch gets other weights. -/
theorem Halved.replaceBranch {next : List ℚ} (h : Halved root) (hb : Halved (.branch b.axis b.children next))
    (honly : ∀ other ∈ root.branches, other.ids = b.ids → other.axis = b.axis ∧ other.children = b.children) :
    Halved (replaceBranch b.axis b.ids (.branch b.axis b.children next) root) ∧
      (replaceBranch b.axis b.ids (.branch b.axis b.children next) root).branches.map Branch.view =
        root.branches.map fun other => if other.ids = b.ids then Branch.view { b with weights := next }
          else other.view := by
  induction h with
  | leaf id => exact ⟨.leaf id, rfl⟩
  | @branch axis x y v w hx hy hsum hv hw ihx ihy =>
    rw [branches_pair] at honly ⊢
    have hself := honly ⟨axis, [x, y], [v, w]⟩ List.mem_cons_self
    have hrest : ∀ other ∈ x.branches ++ y.branches, other.ids = b.ids →
        other.axis = b.axis ∧ other.children = b.children := fun other hmem =>
      honly other (List.mem_cons_of_mem _ hmem)
    rw [SplitNode.replaceBranch, List.map_cons, List.map_append]
    by_cases hids : Branch.ids ⟨axis, [x, y], [v, w]⟩ = b.ids
    · obtain ⟨haxis, hchildren⟩ := hself hids
      have hshorter : ∀ other ∈ x.branches ++ y.branches, other.ids ≠ b.ids := by
        intro other hmem hsame
        exact (hx.length_lt hy hmem).ne (congrArg List.length (hsame.trans hids.symm))
      have hkept : ∀ side ⊆ x.branches ++ y.branches, side.map (fun other =>
          if other.ids = b.ids then Branch.view { b with weights := next } else other.view) = side.map Branch.view :=
        fun side hside => List.map_congr_left fun other hmem => if_neg (hshorter other (hside hmem))
      rw [if_pos (show axis = b.axis ∧ childIds [x, y] = b.ids from ⟨haxis, hids⟩), if_pos hids,
        hkept _ (List.subset_append_left _ _),
        hkept _ (List.subset_append_right _ _), ← List.map_append]
      refine ⟨hb, ?_⟩
      rw [branches, List.map_cons, ← hchildren, childBranches, childBranches, childBranches, List.append_nil]
    · obtain ⟨hx', hviewx⟩ := ihx fun other hmem => hrest other (List.mem_append_left _ hmem)
      obtain ⟨hy', hviewy⟩ := ihy fun other hmem => hrest other (List.mem_append_right _ hmem)
      rw [if_neg fun hsame => hids hsame.2, replaceChildBranches, replaceChildBranches, replaceChildBranches,
        show normalizedWeights [x, y].length [v, w] = [v, w] from normalizedWeights_pair hsum hv hw, branches_pair,
        List.map_cons, List.map_append, hviewx, hviewy, if_neg hids]
      refine ⟨.branch axis hx' hy' hsum hv hw, congrArg (· :: _) ?_⟩
      rw [view_pair, view_pair, sessionIds_reweighted, sessionIds_reweighted]

theorem Halved.dragged (h : Halved root) (hnodup : root.sessionIds.Nodup) (hb : b ∈ root.branches) (divider : Int)
    (delta : ℚ) : ∃ next, Dragged root b divider delta next ∧
      Halved (SplitNode.replaceBranch b.axis b.ids (.branch b.axis b.children next) root) := by
  obtain ⟨next, hadjusted, hnext, hothers, hsum⟩ := (h.of_mem hb).1.adjusted divider delta
  obtain ⟨hhalved, hviews⟩ := h.replaceBranch hnext fun other hmem hids => by
    rw [List.inj_on_of_nodup_map (h.nodup_branches hnodup) hmem hb hids]
    exact ⟨rfl, rfl⟩
  exact ⟨next, ⟨hadjusted, hviews, hothers, hsum⟩, hhalved⟩

theorem Halved.insertSplit {target new : String} (direction : SplitDirection) (h : Halved root) :
    Halved (root.insertSplit target new direction) := by
  induction h with
  | leaf id =>
    rw [SplitNode.insertSplit]
    split
    · exact .leaf id
    · cases direction.isBefore with
      | true => exact .branch _ (.leaf new) (.leaf target) (by norm_num) (by norm_num) (by norm_num)
      | false => exact .branch _ (.leaf target) (.leaf new) (by norm_num) (by norm_num) (by norm_num)
  | branch axis hx hy hsum hv hw ihx ihy =>
    rw [SplitNode.insertSplit, insertChildren, insertChildren, insertChildren]
    exact (normalizedWeights_pair hsum hv hw).symm ▸ .branch axis ihx ihy hsum hv hw

theorem Halved.removeSession {id : String} (h : Halved root) (hleft : root.removeSession id = some node) :
    Halved node := by
  induction h generalizing node with
  | leaf other =>
    rw [SplitNode.removeSession] at hleft
    split at hleft
    · cases hleft
    · cases hleft
      exact .leaf other
  | @branch axis x y v w hx hy hsum hv hw ihx ihy =>
    rw [SplitNode.removeSession, removeChildren, removeChildren, removeChildren,
      show normalizedWeights [x, y].length [v, w] = [v, w] from normalizedWeights_pair hsum hv hw] at hleft
    cases hrx : x.removeSession id with
    | none =>
      cases hry : y.removeSession id with
      | none =>
        rw [hrx, hry] at hleft
        cases hleft
      | some y' =>
        rw [hrx, hry] at hleft
        cases hleft
        exact ihy hry
    | some x' =>
      cases hry : y.removeSession id with
      | none =>
        rw [hrx, hry] at hleft
        cases hleft
        exact ihx hrx
      | some y' =>
        rw [hrx, hry] at hleft
        cases hleft
        exact .branch axis (ihx hrx) (ihy hry) hsum hv hw

theorem Halved.replaceSessionIds {replacements : String → Option String} (h : Halved root) :
    Halved (root.replaceSessionIds replacements) := by
  induction h with
  | leaf id => exact .leaf _
  | branch axis hx hy hsum hv hw ihx ihy =>
    rw [SplitNode.replaceSessionIds, replaceChildren, replaceChildren, replaceChildren]
    exact (normalizedWeights_pair hsum hv hw).symm ▸ .branch axis ihx ihy hsum hv hw

theorem inserted {target new : String} (direction : SplitDirection) (hnodup : root.sessionIds.Nodup)
    (htarget : target ∈ root.sessionIds) : ∃ before rest, root.sessionIds = before ++ target :: rest ∧
      (root.insertSplit target new direction).sessionIds = before ++ splitPair target new direction ++ rest := by
  obtain ⟨before, rest, hids⟩ := List.append_of_mem htarget
  rw [hids, List.nodup_middle, List.nodup_cons, List.mem_append, not_or] at hnodup
  obtain ⟨⟨hbefore, hrest⟩, -⟩ := hnodup
  have hsame : ∀ ids : List String, target ∉ ids →
      (ids.flatMap fun id => if id = target then splitPair target new direction else [id]) = ids := by
    intro ids hnot
    refine (List.flatMap_congr fun id hmem => if_neg ?_).trans (List.flatMap_singleton' ids)
    rintro rfl
    exact hnot hmem
  refine ⟨before, rest, hids, ?_⟩
  rw [sessionIds_insertSplit, hids, List.flatMap_append, List.flatMap_cons, hsame before hbefore, hsame rest hrest,
    if_pos rfl, List.append_assoc]

/-- Both invariants are kept by every change. -/
theorem Changes.keeps {root' : SplitNode} (h : Changes root root') (hhalved : Halved root)
    (hnodup : root.sessionIds.Nodup) : Halved root' ∧ root'.sessionIds.Nodup := by
  cases h with
  | insertSplit direction htarget hnew =>
    exact ⟨hhalved.insertSplit direction,
      (perm_insertSplit direction hnodup htarget).nodup_iff.mpr (List.nodup_cons.mpr ⟨hnew, hnodup⟩)⟩
  | removeSession hleft =>
    exact ⟨hhalved.removeSession hleft, sessionIds_of_removeSession hleft ▸ hnodup.filter _⟩
  | replaceSessionIds replacements hdistinct hnew =>
    refine ⟨hhalved.replaceSessionIds, ?_⟩
    rw [sessionIds_replaceSessionIds]
    refine hnodup.map_on fun id hid other hother hsame => ?_
    cases hid' : replacements id with
    | none =>
      cases hother' : replacements other with
      | none => simpa [hid', hother'] using hsame
      | some new =>
        rw [hid', hother', Option.getD_none, Option.getD_some] at hsame
        exact absurd (hsame ▸ hid) (hnew other new hother')
    | some new =>
      cases hother' : replacements other with
      | none =>
        rw [hid', hother', Option.getD_none, Option.getD_some] at hsame
        exact absurd (hsame ▸ hother) (hnew id new hid')
      | some new' =>
        rw [hid', hother', Option.getD_some, Option.getD_some] at hsame
        exact hdistinct id other new hid' (hsame ▸ hother')
  | drag hb divider delta =>
    obtain ⟨next, hdragged, hhalved'⟩ := hhalved.dragged hnodup hb divider delta
    rw [hdragged.adjusted]
    exact ⟨hhalved', sessionIds_reweighted.symm ▸ hnodup⟩

/-- Every tree that comes up is sound. -/
theorem sound_of_changes {id : String} (h : Relation.ReflTransGen Changes (.leaf id) root) : root.Sound := by
  have hinv : Halved root ∧ root.sessionIds.Nodup := by
    induction h with
    | refl => exact ⟨.leaf id, List.nodup_singleton id⟩
    | tail _ hchange ih => exact hchange.keeps ih.1 ih.2
  obtain ⟨hhalved, hnodup⟩ := hinv
  refine ⟨hnodup, fun b hb => ?_, hhalved.nodup_branches hnodup, fun id => ?_, fun direction htarget _ =>
    inserted direction hnodup htarget, fun b hb divider delta => ?_⟩
  · obtain ⟨axis, children, weights⟩ := b
    cases (hhalved.of_mem hb).1 with
    | @branch _ x y v w hx hy hsum hv hw =>
      have hnormal : Branch.normalized ⟨axis, [x, y], [v, w]⟩ = [v, w] := normalizedWeights_pair hsum hv hw
      rw [hnormal]
      refine ⟨le_refl 2, rfl, ?_⟩
      simp only [List.mem_cons, List.not_mem_nil, or_false, forall_eq_or_imp, forall_eq]
      exact ⟨⟨hv, by linarith⟩, hw, by linarith⟩
  · rw [idsOf_removeSession, hnodup.erase_eq_filter]
    refine List.filter_congr fun other _ => ?_
    rw [Bool.eq_iff_iff, decide_eq_true_eq, bne_iff_ne]
  · obtain ⟨next, hdragged, -⟩ := hhalved.dragged hnodup hb divider delta
    exact ⟨next, hdragged⟩

/-- A pane within a pane is split, another one is closed, and the divider that is left is dragged. -/
theorem sound_of_split :
    (SplitNode.branch .vertical [.leaf "b", .leaf "c"] [3 / 2, 1 / 2]).Sound := by
  have hones : normalizedWeights 2 [1, 1] = [1, 1] :=
    normalizedWeights_pair (by norm_num) (by norm_num) (by norm_num)
  let split := (SplitNode.leaf "a").insertSplit "a" "b" .right
  let nested := split.insertSplit "b" "c" .bottom
  let closed := SplitNode.branch .vertical [.leaf "b", .leaf "c"] [1, 1]
  have hsplit : Changes (.leaf "a") split := .insertSplit .right (by decide) (by decide)
  have hnested : Changes split nested := .insertSplit .bottom (by decide) (by decide)
  have hclosed : Changes nested closed := by
    refine @Changes.removeSession nested closed "a" ?_
    show collapse .horizontal [none, collapse .vertical [some (.leaf "b"), some (.leaf "c")]
      (normalizedWeights 2 [1, 1])] (normalizedWeights 2 (normalizedWeights 2 [1, 1])) = some closed
    rw [hones]
    rfl
  have hdragged : Changes closed (.branch .vertical [.leaf "b", .leaf "c"] [3 / 2, 1 / 2]) := by
    have hdrag := @Changes.drag closed ⟨.vertical, [.leaf "b", .leaf "c"], [1, 1]⟩ List.mem_cons_self 0 (1 / 2)
    have hhalf : max (18 / 100) (min (1 + 1 / 2) (182 / 100)) = (3 / 2 : ℚ) := by norm_num
    have hrest : (2 - 3 / 2 : ℚ) = 1 / 2 := by norm_num
    rw [withAdjustedDivider_pair (by norm_num) (by norm_num) (by norm_num), hhalf, hrest] at hdrag
    exact hdrag
  exact sound_of_changes (.tail (.tail (.tail (.single hsplit) hnested) hclosed) hdragged)

end Portix.Terminal.SplitNode
