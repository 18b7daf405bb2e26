import Mathlib.Algebra.Order.Ring.Unbundled.Rat
import Mathlib.Data.List.Basic

/-!
# Panes

`TerminalSplitController` of `terminal_split_controller.dart`: the tree of the panes of a terminal
workspace. Weights are rational numbers here, so they are all finite.
-/

namespace Portix.Terminal

/-- How the panes of a split stand: side by side, or one above the other. -/
inductive Axis where
  | horizontal
  | vertical
  deriving DecidableEq

/-- The side of a pane at which another is put. -/
inductive SplitDirection where
  | left
  | right
  | top
  | bottom

namespace SplitDirection

def axis : SplitDirection → Axis
  | .left => .horizontal
  | .right => .horizontal
  | .top => .vertical
  | .bottom => .vertical

def isBefore : SplitDirection → Bool
  | .left => true
  | .right => false
  | .top => true
  | .bottom => false

end SplitDirection

/-- A pane, or panes side by side with their weights. -/
inductive SplitNode where
  | leaf (sessionId : String)
  | branch (axis : Axis) (children : List SplitNode) (weights : List ℚ)

/-- Weights within their bounds, one for each pane. -/
def normalizedWeights (count : Nat) (weights : List ℚ) : List ℚ :=
  if weights.length ≠ count then List.replicate count 1
  else weights.map fun weight => max (18 / 100) (min weight 8)

namespace SplitNode

mutual

/-- The sessions of a tree, from its first pane to its last. -/
def sessionIds : SplitNode → List String
  | .leaf sessionId => [sessionId]
  | .branch _ children _ => childIds children

def childIds : List SplitNode → List String
  | [] => []
  | child :: children => child.sessionIds ++ childIds children

end

def keptWeights (weights : List ℚ) (children : List (Option SplitNode)) : List ℚ :=
  ((weights.zip children).filter fun entry => entry.2.isSome).map Prod.fst

/-- A split whose panes are gone is gone, and one pane stands by itself. -/
def collapse (axis : Axis) (children : List (Option SplitNode)) (weights : List ℚ) : Option SplitNode :=
  match children.reduceOption with
  | [] => none
  | [child] => some child
  | kept => some (.branch axis kept (keptWeights weights children))

mutual

/-- The tree without the pane of a session. -/
def removeSession (sessionId : String) : SplitNode → Option SplitNode
  | .leaf id => if id = sessionId then none else some (.leaf id)
  | .branch axis children weights =>
    collapse axis (removeChildren sessionId children) (normalizedWeights children.length weights)

def removeChildren (sessionId : String) : List SplitNode → List (Option SplitNode)
  | [] => []
  | child :: children => child.removeSession sessionId :: removeChildren sessionId children

end

mutual

/-- A new pane at a side of another one. -/
def insertSplit (targetSessionId newSessionId : String) (direction : SplitDirection) :
    SplitNode → SplitNode
  | .leaf id =>
    if id ≠ targetSessionId then .leaf id
    else .branch direction.axis
      (if direction.isBefore then [.leaf newSessionId, .leaf targetSessionId]
        else [.leaf targetSessionId, .leaf newSessionId]) [1, 1]
  | .branch axis children weights =>
    .branch axis (insertChildren targetSessionId newSessionId direction children)
      (normalizedWeights children.length weights)

def insertChildren (targetSessionId newSessionId : String) (direction : SplitDirection) :
    List SplitNode → List SplitNode
  | [] => []
  | child :: children => child.insertSplit targetSessionId newSessionId direction ::
      insertChildren targetSessionId newSessionId direction children

end

mutual

/-- Each pane gets its new session. -/
def replaceSessionIds (replacements : String → Option String) : SplitNode → SplitNode
  | .leaf id => .leaf ((replacements id).getD id)
  | .branch axis children weights =>
    .branch axis (replaceChildren replacements children) (normalizedWeights children.length weights)

def replaceChildren (replacements : String → Option String) : List SplitNode → List SplitNode
  | [] => []
  | child :: children => child.replaceSessionIds replacements :: replaceChildren replacements children

end

mutual

/-- The split with these sessions is replaced. -/
def replaceBranch (targetAxis : Axis) (targetIds : List String) (replacement : SplitNode) :
    SplitNode → SplitNode
  | .leaf id => .leaf id
  | .branch axis children weights =>
    if axis = targetAxis ∧ childIds children = targetIds then replacement
    else .branch axis (replaceChildBranches targetAxis targetIds replacement children)
      (normalizedWeights children.length weights)

def replaceChildBranches (targetAxis : Axis) (targetIds : List String) (replacement : SplitNode) :
    List SplitNode → List SplitNode
  | [] => []
  | child :: children => replaceBranch targetAxis targetIds replacement child ::
      replaceChildBranches targetAxis targetIds replacement children

end

/-- A divider is dragged: one pane gives way to its neighbour, both within the bounds. -/
def withAdjustedDivider (axis : Axis) (children : List SplitNode) (weights : List ℚ)
    (dividerIndex : Int) (delta : ℚ) : SplitNode :=
  if dividerIndex < 0 ∨ (children.length : Int) - 1 ≤ dividerIndex then .branch axis children weights
  else
    let next := normalizedWeights children.length weights
    let left := dividerIndex.toNat
    let pairTotal := next.getD left 0 + next.getD (left + 1) 0
    let adjustment := max (-pairTotal + 36 / 100) (min delta (pairTotal - 36 / 100))
    let adjusted := max (18 / 100) (min (next.getD left 0 + adjustment) (pairTotal - 18 / 100))
    .branch axis children ((next.set left adjusted).set (left + 1) (pairTotal - adjusted))

end SplitNode

/-- A tab with several panes. -/
structure TerminalWorkspaceGroup where
  id : String
  label : String
  root : SplitNode

/-- The pane that another one is dropped on. -/
def resolveSplitTargetForDrag (draggedSessionId fallbackTargetSessionId : String)
    (orderedSessionIds workspaceSessionIds existingSessionIds : List String) : String :=
  if fallbackTargetSessionId ≠ draggedSessionId ∧ fallbackTargetSessionId ∈ existingSessionIds then
    fallbackTargetSessionId
  else
    let standaloneOrderedIds := orderedSessionIds.filter fun id => id ∉ workspaceSessionIds
    match standaloneOrderedIds.idxOf? draggedSessionId with
    | none => fallbackTargetSessionId
    | some 0 => standaloneOrderedIds.getD 1 fallbackTargetSessionId
    | some (index + 1) => standaloneOrderedIds.getD index fallbackTargetSessionId

end Portix.Terminal
