import Portix.Connection.ConnectionManager
import Portix.Terminal.TerminalSplitController

/-!
# The state of the terminal panel

What `_TerminalPanelState` of `terminal_panel.dart` does at once: tabs, split workspaces, the pane
shown alone, and typing to several panes. The sessions are those of the connection manager.
-/

namespace Portix.Terminal

open Lib

open Connection (ConnectionManager TerminalSession)

-- `TerminalSessionOrderController` of `terminal_session_order_controller.dart`; an index that is not there is -1 in
-- the source.

structure TerminalSessionOrderController where
  order : List String := []

namespace TerminalSessionOrderController

variable (c : TerminalSessionOrderController)

def indexOf (sessionId : String) : Option Nat :=
  c.order.idxOf? sessionId

def remove (sessionId : String) : TerminalSessionOrderController where
  order := c.order.erase sessionId

def restoreAtOrPlaceLast (sessionId : String) (index : Option Nat) :
    TerminalSessionOrderController where
  order := match index with
    | none => c.order.erase sessionId ++ [sessionId]
    | some index =>
      if index ≤ (c.order.erase sessionId).length then (c.order.erase sessionId).insertIdx index sessionId
      else c.order.erase sessionId ++ [sessionId]

def update (ids : List String) : TerminalSessionOrderController where
  order := ids.foldl (fun order id => if id ∈ order then order else order ++ [id])
    (c.order.filter fun id => id ∈ ids)

def ordered {T : Type} (c : TerminalSessionOrderController) (sessions : List T) (idOf : T → String) :
    List T :=
  (c.update (sessions.map idOf)).order.filterMap fun id =>
    sessions.reverse.find? fun session => idOf session = id

def place (draggedSessionId : String) (targetSessionId : Option String)
    (afterTarget : Bool) : TerminalSessionOrderController where
  order := match targetSessionId.bind fun target => (c.order.erase draggedSessionId).idxOf? target with
    | none => c.order.erase draggedSessionId ++ [draggedSessionId]
    | some targetIndex => (c.order.erase draggedSessionId).insertIdx
        (if afterTarget then targetIndex + 1 else targetIndex) draggedSessionId

end TerminalSessionOrderController

/-- What the panel shows, and what it keeps of its workspaces. -/
structure TerminalPanelState where
  splitRoot : Option SplitNode := none
  workspaces : List TerminalWorkspaceGroup := []
  workspaceActive : Bool := false
  workspaceReconnectInProgress : Bool := false
  workspaceCounter : Nat := 0
  activeWorkspaceId : Option String := none
  soloSessionId : Option String := none
  broadcastTyping : Bool := false
  sessionId : Option String := none
  connectedProfileId : Option String := none
  connectInProgress : Bool := false
  activeTabClosed : Bool := false
  sessionOrder : TerminalSessionOrderController := {}
  sessionDirectories : String → Option String := fun _ => none

def isSessionConnected (m : ConnectionManager) (id : String) : Bool :=
  (m.sessionById id).any fun session => session.status = .connected

def isSessionReusable (m : ConnectionManager) (id : String) : Bool :=
  (m.sessionById id).any fun session => session.status = .connected ∨ session.status = .connecting

def lastSessionForProfile (m : ConnectionManager) (profileId : String) : Option TerminalSession :=
  (m.sessions.filter fun session => session.profileId = profileId).getLast?

def newSessionForProfile (m : ConnectionManager) (profileId : String) (existingSessionIds : List String) :
    Option TerminalSession :=
  (m.sessions.filter fun session =>
    session.profileId = profileId ∧ session.id ∉ existingSessionIds).getLast?

def profileIdOf (m : ConnectionManager) (id : String) : Option String :=
  (m.sessionById id).map TerminalSession.profileId

namespace TerminalPanelState

variable (p : TerminalPanelState)

def workspaceById (id : String) : Option TerminalWorkspaceGroup :=
  under TerminalWorkspaceGroup.id id p.workspaces

def activeWorkspace : Option TerminalWorkspaceGroup :=
  p.activeWorkspaceId.bind p.workspaceById

def workspaceContainingSession (id : String) : Option TerminalWorkspaceGroup :=
  p.workspaces.find? fun workspace => id ∈ workspace.root.sessionIds

def workspaceSessionIds : List String :=
  p.workspaces.flatMap fun workspace => workspace.root.sessionIds

def panes : List String :=
  match p.splitRoot with
  | some root => root.sessionIds
  | none => p.sessionId.toList

variable (m : ConnectionManager)

def soloShown : Option String :=
  p.soloSessionId.filter fun id => (m.sessionById id).isSome

def displayed : List String :=
  match p.soloShown m with
  | some id => [id]
  | none => p.panes

def treeSessionIds : List String :=
  (p.splitRoot.elim [] SplitNode.sessionIds).filter fun id => id ∈ m.ids

def visibleSessionIds : List String :=
  if p.treeSessionIds m ≠ [] then p.treeSessionIds m
  else p.sessionId.toList.filter fun id => id ∈ m.ids

/-- Who is sent what is typed into the terminal of a session, `_handleTerminalInput`. -/
def inputTargets (id : String) : List String :=
  if isSessionConnected m id = false then []
  else if p.broadcastTyping ∧ id ∈ p.visibleSessionIds m then
    (p.visibleSessionIds m).filter fun visible => isSessionConnected m visible
  else [id]

/-- No other pane than that of this session is shown alone. -/
def SoloAt (id : String) : Prop := ∀ solo, p.soloSessionId = some solo → solo = id

variable (session : TerminalSession)

def showTab : TerminalPanelState :=
  { p with
    sessionId := some session.id
    connectedProfileId := some session.profileId
    activeTabClosed := false
    splitRoot := some (.leaf session.id)
    workspaceActive := false
    activeWorkspaceId := none }

def activateSession (keepWorkspaceVisible : Bool) :
    TerminalPanelState :=
  match if keepWorkspaceVisible then p.workspaceContainingSession session.id else none with
  | some workspace =>
    { p with
      sessionId := some session.id
      connectedProfileId := some session.profileId
      activeTabClosed := false
      activeWorkspaceId := some workspace.id
      splitRoot := some workspace.root
      workspaceActive := true }
  | none => p.showTab session

def mapRoots (f : TerminalWorkspaceGroup → SplitNode) : TerminalPanelState :=
  { p with workspaces := p.workspaces.map fun workspace => { workspace with root := f workspace } }

variable (sessionId : String)

def removeOrKeep (root : SplitNode) : SplitNode :=
  (root.removeSession sessionId).getD root

def removeSessionFromWorkspaces (exceptWorkspaceId : Option String) : TerminalPanelState :=
  p.mapRoots fun workspace =>
    if some workspace.id = exceptWorkspaceId then workspace.root
    else removeOrKeep sessionId workspace.root

variable (workspaceId : String)

def setRoot (root : SplitNode) : TerminalPanelState :=
  p.mapRoots fun workspace => if workspace.id = workspaceId then root else workspace.root

def leaveWorkspace : TerminalPanelState :=
  if p.activeWorkspaceId.isSome ∧ p.activeWorkspace.isNone then
    { p with activeWorkspaceId := none, workspaceActive := false }
  else p

def pruneWorkspaces : TerminalPanelState :=
  { p with
    workspaces := p.workspaces.filter fun workspace =>
      2 ≤ workspace.root.sessionIds.length }.leaveWorkspace

def syncRoot (root : SplitNode) : Option SplitNode :=
  root.sessionIds.foldl
    (fun root id => if id ∈ m.ids then root else root.bind (SplitNode.removeSession id)) (some root)

def syncWorkspaceRoot (root : SplitNode) : SplitNode :=
  root.sessionIds.foldl (fun root id => if id ∈ m.ids then root else removeOrKeep id root) root

def syncSplitTreeWithSessions : TerminalPanelState :=
  ({ p with
    splitRoot := p.splitRoot.bind (syncRoot m)
    soloSessionId := p.soloSessionId.filter fun id => id ∈ m.ids }.mapRoots fun workspace =>
      syncWorkspaceRoot m workspace.root).pruneWorkspaces

def replacing (oldId newId id : String) : Option String := if id = oldId then some newId else none

def replaceIn (oldId newId : String) (root : SplitNode) : SplitNode :=
  if oldId ∈ root.sessionIds then root.replaceSessionIds (replacing oldId newId) else root

def replaceSessionIdEverywhere (oldId newId : String) : TerminalPanelState :=
  { p with
    splitRoot := p.splitRoot.map (replaceIn oldId newId) }.mapRoots fun workspace =>
      replaceIn oldId newId workspace.root

def updateOrder : TerminalPanelState :=
  { p with sessionOrder := p.sessionOrder.update m.ids }

def noneLeft : TerminalPanelState :=
  { p with
    sessionId := none
    connectedProfileId := none
    activeTabClosed := true }

def handleConnectionManagerChanged :
    TerminalPanelState :=
  if p.workspaceReconnectInProgress then p
  else if p.sessionId.all fun id => id ∈ m.ids then p.syncSplitTreeWithSessions m
  else match m.sessions.getLast? with
    | some session => (p.syncSplitTreeWithSessions m).activateSession session false
    | none =>
      if p.connectInProgress then
        { p.syncSplitTreeWithSessions m with sessionId := none, splitRoot := none }
      else (p.syncSplitTreeWithSessions m).noneLeft

def toggleBroadcastTyping : TerminalPanelState :=
  if (p.visibleSessionIds m).length < 2 then { p with broadcastTyping := false }
  else { p with broadcastTyping := !p.broadcastTyping }

def toggleSoloPane :
    TerminalPanelState :=
  { p with
    soloSessionId := if p.soloSessionId ≠ some sessionId then some sessionId else none
    broadcastTyping := if p.soloSessionId ≠ some sessionId then false else p.broadcastTyping
    sessionId := some sessionId
    connectedProfileId := profileIdOf m sessionId }

def showWorkspace (root : SplitNode) (sessionId : Option String) : TerminalPanelState :=
  { p with
    activeWorkspaceId := some workspaceId
    splitRoot := some root
    workspaceActive := true
    sessionId := sessionId
    connectedProfileId := sessionId.bind (profileIdOf m) }

/-- The active session if it is one of these panes, else the last of them. -/
def sessionIn (root : SplitNode) : Option String :=
  if p.sessionId.any fun id => id ∈ root.sessionIds then p.sessionId else root.sessionIds.getLast?

def activateWorkspace :
    TerminalPanelState :=
  match p.workspaceById workspaceId with
  | some workspace => p.showWorkspace m workspace.id workspace.root (p.sessionIn workspace.root)
  | none => p

def splitTargetForDrag (draggedSessionId fallbackTargetSessionId : String) : String :=
  resolveSplitTargetForDrag draggedSessionId fallbackTargetSessionId
    ((p.sessionOrder.ordered m.sessions TerminalSession.id).map TerminalSession.id)
    p.workspaceSessionIds m.ids

/-- The tree of a workspace with a session dragged next to one of its panes. -/
def splitRootWith (root : SplitNode) (target dragged : String) (direction : SplitDirection) : SplitNode :=
  ((root.removeSession dragged).getD (.leaf target)).insertSplit target dragged direction

def splitInto (workspace : TerminalWorkspaceGroup) (target dragged : String)
    (direction : SplitDirection) : TerminalPanelState :=
  { (p.removeSessionFromWorkspaces dragged (some workspace.id)).setRoot workspace.id
      (splitRootWith workspace.root target dragged direction) with
    activeWorkspaceId := some workspace.id
    splitRoot := some (splitRootWith workspace.root target dragged direction) }

def newWorkspace (root : SplitNode) : TerminalWorkspaceGroup where
  id := s!"workspace-{p.workspaceCounter}"
  label := if p.workspaceCounter = 0 then "Workspace" else s!"Workspace-{p.workspaceCounter}"
  root := root

def addWorkspace (root : SplitNode) : TerminalPanelState :=
  { p with
    workspaces := p.workspaces ++ [p.newWorkspace root]
    workspaceCounter := p.workspaceCounter + 1
    activeWorkspaceId := some (p.newWorkspace root).id
    splitRoot := some root }

def splitNew (target dragged : String) (direction : SplitDirection) :
    TerminalPanelState :=
  (p.removeSessionFromWorkspaces dragged none).addWorkspace
    ((SplitNode.leaf target).insertSplit target dragged direction)

def split (target : String) (session : TerminalSession)
    (direction : SplitDirection) : TerminalPanelState :=
  { (match p.workspaceContainingSession target with
      | some workspace => p.splitInto workspace target session.id direction
      | none => p.splitNew target session.id direction).pruneWorkspaces with
    workspaceActive := true
    sessionId := some session.id
    connectedProfileId := some session.profileId }

def splitPane (targetSessionId draggedSessionId : String)
    (direction : SplitDirection) : TerminalPanelState :=
  if p.splitTargetForDrag m draggedSessionId targetSessionId = draggedSessionId then p.updateOrder m
  else match m.sessionById draggedSessionId with
    | some session =>
      (p.updateOrder m).split (p.splitTargetForDrag m draggedSessionId targetSessionId) session direction
    | none => p.updateOrder m

def takeOut : TerminalPanelState :=
  match p.workspaceContainingSession sessionId with
  | some workspace =>
    (p.setRoot workspace.id (removeOrKeep sessionId workspace.root)).pruneWorkspaces
  | none => p

def moveTab (targetSessionId : Option String)
    (afterTarget : Bool) : TerminalPanelState :=
  { p.takeOut session.id with
    sessionOrder := p.sessionOrder.place session.id targetSessionId afterTarget
    workspaceActive := false
    activeWorkspaceId := none
    splitRoot := some (.leaf session.id)
    sessionId := some session.id
    connectedProfileId := some session.profileId }

def moveSessionTab (draggedSessionId : String)
    (targetSessionId : Option String) (afterTarget : Bool) : TerminalPanelState :=
  if some draggedSessionId = targetSessionId then p
  else match m.sessionById draggedSessionId with
    | some session => p.moveTab session targetSessionId afterTarget
    | none => p

def showActiveWorkspace : TerminalPanelState :=
  match p.activeWorkspace with
  | some workspace => { p with splitRoot := some workspace.root }
  | none => p

/-- A session leaves what is shown and every workspace, the active one first. -/
def removePane : TerminalPanelState :=
  ({ p with
    splitRoot := p.splitRoot.bind (SplitNode.removeSession sessionId) }.removeSessionFromWorkspaces
      sessionId none).pruneWorkspaces.showActiveWorkspace

def lastPane : Option String :=
  p.splitRoot.bind fun root => root.sessionIds.getLast?

def replacePane :
    TerminalPanelState :=
  { p with
    soloSessionId := if p.soloSessionId = some sessionId then p.lastPane else p.soloSessionId
    sessionId := if p.sessionId = some sessionId then p.lastPane else p.sessionId
    connectedProfileId := if p.sessionId = some sessionId then p.lastPane.bind (profileIdOf m)
      else p.connectedProfileId }

def removeSplit :
    TerminalPanelState :=
  if p.splitRoot.elim 0 (fun root => root.sessionIds.length) ≤ 1 then p
  else (p.removePane sessionId).replacePane m sessionId

def ungroup (sessionId : Option String) : TerminalPanelState :=
  { p with
    workspaces := p.workspaces.filter fun item => item.id ≠ workspaceId
    workspaceActive := false
    activeWorkspaceId := none
    splitRoot := sessionId.map .leaf
    sessionId := sessionId
    connectedProfileId := sessionId.bind (profileIdOf m) }

def ungroupActiveWorkspace : TerminalPanelState :=
  match p.activeWorkspace with
  | none => p
  | some workspace =>
    p.ungroup m workspace.id (p.sessionId.orElse fun _ => workspace.root.sessionIds.getLast?)

def resizeSplitBranch (axis : Axis) (ids : List String)
    (replacement : SplitNode) : TerminalPanelState :=
  match p.activeWorkspace with
  | some workspace =>
    { p.setRoot workspace.id (SplitNode.replaceBranch axis ids replacement workspace.root) with
      splitRoot := some (SplitNode.replaceBranch axis ids replacement workspace.root) }
  | none => { p with splitRoot := p.splitRoot.map (SplitNode.replaceBranch axis ids replacement) }

def dropSession : TerminalPanelState :=
  ({ p with
    sessionOrder := p.sessionOrder.remove sessionId
    splitRoot := p.splitRoot.bind (SplitNode.removeSession sessionId) }.removeSessionFromWorkspaces
      sessionId none).pruneWorkspaces

variable (before : List TerminalSession)

def remaining (sessionId : String) : List TerminalSession :=
  before.filter fun session => session.id ≠ sessionId

def closedIndex (sessionId : String) : Nat :=
  (before.findIdx? fun session => session.id = sessionId).getD 0

def neighbour (sessionId : String) : Option TerminalSession :=
  (remaining before sessionId).getLast?.map fun last =>
    (remaining before sessionId).getD (closedIndex before sessionId) last

def tabClosed (sessionId : String)
    (wasActive : Bool) : TerminalPanelState :=
  match neighbour before sessionId with
  | none => { (p.dropSession sessionId).noneLeft with
      splitRoot := none
      workspaces := []
      workspaceActive := false
      activeWorkspaceId := none }
  | some session =>
    if wasActive then (p.dropSession sessionId).activateSession session false
    else p.dropSession sessionId

def removeWorkspace (sessionIds : List String) :
    TerminalPanelState :=
  { p with
    workspaces := p.workspaces.filter fun item => item.id ≠ workspaceId
    activeWorkspaceId := p.activeWorkspaceId.filter fun id => id ≠ workspaceId
    workspaceActive := if p.activeWorkspaceId = some workspaceId then false else p.workspaceActive
    splitRoot := if p.activeWorkspaceId = some workspaceId then none else p.splitRoot
    soloSessionId := p.soloSessionId.filter fun id => id ∉ sessionIds }

def workspaceClosed (sessionIds : List String) : TerminalPanelState :=
  match (m.sessions.filter fun session => session.id ∉ sessionIds).getLast? with
  | none => (p.removeWorkspace workspaceId sessionIds).noneLeft
  | some last => { p.removeWorkspace workspaceId sessionIds with
      sessionId := some last.id
      connectedProfileId := some last.profileId
      splitRoot := some (.leaf last.id) }

def startConnecting (profileId : String) : TerminalPanelState :=
  { p with
    connectedProfileId := some profileId
    connectInProgress := true
    sessionId := none
    splitRoot := none }

def connectFailed (failedSession : Option TerminalSession) :
    TerminalPanelState :=
  { p with
    sessionId := failedSession.map TerminalSession.id
    connectedProfileId := failedSession.map TerminalSession.profileId
    splitRoot := failedSession.map fun session => .leaf session.id
    sessionOrder := match failedSession with
      | some session => p.sessionOrder.place session.id none true
      | none => p.sessionOrder
    connectInProgress := false }

def startSessionIn (path : Option String) :
    TerminalPanelState :=
  match path with
  | none => p
  | some path =>
    { p with sessionDirectories := Function.update p.sessionDirectories sessionId (some path) }

def placeTab : TerminalPanelState :=
  { p.showTab session with sessionOrder := p.sessionOrder.place session.id none true }

def restoreTab (index : Option Nat) :
    TerminalPanelState :=
  { p.showTab session with sessionOrder := p.sessionOrder.restoreAtOrPlaceLast session.id index }

def leaveTab : TerminalPanelState :=
  { p with sessionOrder := p.sessionOrder.remove sessionId }.syncSplitTreeWithSessions m

def endReconnect : TerminalPanelState :=
  { p with workspaceReconnectInProgress := false }.syncSplitTreeWithSessions m

/-- A new session takes the place of an old one in the tabs and the panes. -/
def substitute (oldId newId : String) (index : Option Nat) : TerminalPanelState :=
  { p with
    workspaceReconnectInProgress := false
    sessionOrder := p.sessionOrder.restoreAtOrPlaceLast newId index }.replaceSessionIdEverywhere oldId newId

def reconnected (oldId : String) (session : TerminalSession)
    (index : Option Nat) : TerminalPanelState :=
  { p.substitute oldId session.id index with
    sessionId := some session.id
    connectedProfileId := some session.profileId
    splitRoot := some ((p.substitute oldId session.id index).splitRoot.getD (.leaf session.id)) }

end TerminalPanelState

end Portix.Terminal
