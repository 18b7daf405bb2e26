import Portix.Terminal.TerminalPanelState

/-!
# The terminal panel

The panel of `terminal_panel.dart` over the connection manager. Its methods are cut at their awaits: a
call waits for the manager to close a session, or to connect one, and goes on from there in any order
with others. While the panel is there it listens to the manager.
-/

namespace Portix.Terminal

open Lib

open Connection (ConnectionManager TerminalSession Hop Connections ConnectionEvent ConnectionObs)

structure SessionSnapshot where
  profileId : String
  title : String
  text : String

structure WorkspaceReconnect where
  workspaceId : String
  oldRoot : SplitNode
  oldActiveId : Option String
  current : String × Hop
  rest : List (String × Hop)
  replacements : List (String × String) := []

/-- What a call of the panel is for. -/
inductive PanelTask where
  | closeTab (sessionId : String) (before : List TerminalSession) (wasActive : Bool)
  | closeWorkspace (workspaceId : String) (sessionIds : List String) (current : String)
      (rest : List String)
  | connectNew (profile : Hop) (existingSessionIds : List String) (restore : Option SessionSnapshot)
      (startDirectory : Option String)
  | duplicate (sessionId : String) (profile : Hop) (existingSessionIds : List String)
  | connectWithPassword (profile : Hop) (orderIndex : Option Nat) (failedSessionId : Option String)
      (existingSessionIds : List String)
  | reconnect (oldSession : TerminalSession) (profile : Hop) (orderIndex : Option Nat)
      (recordingPath : Option String)
  | reconnectWorkspace (reconnect : WorkspaceReconnect)

/-- What a call waits for. -/
inductive CallPhase where
  | closing
  | connecting (call : Nat)
  | connected (success : Bool)
  | resizing
  | over
  deriving DecidableEq

/-- The profile of the new session that a task looks for once its connect has succeeded or failed, and the
sessions that it is not. -/
def PanelTask.search : PanelTask → Bool → Option (String × List String)
  | .connectNew profile existing _ _, _ => some (profile.id, existing)
  | .connectWithPassword profile _ _ existing, _ => some (profile.id, existing)
  | .duplicate _ profile existing, true => some (profile.id, existing)
  | .reconnect _ profile _ _, true => some (profile.id, [])
  | .reconnectWorkspace w, true => some (w.current.2.id, [])
  | _, _ => none

structure PanelCall where
  task : PanelTask
  phase : CallPhase
  added : Option String := none

/-- What is done to a session. -/
inductive Use where
  | write (text : String)
  | rename (title : String)
  | record (path : String)
  | cd (path : String)
  | place
  | substitute (oldId : String)
  deriving DecidableEq

inductive PanelObs where
  | added (call : Nat) (id : String)
  | used (call : Nat) (use : Use) (id : String)
  | sent (id data : String)
  deriving DecidableEq

/-- The panel over the connections, with its calls under way. -/
structure TerminalPanel where
  connections : Connections := {}
  profiles : List Hop := []
  panel : TerminalPanelState := {}
  calls : List PanelCall := []
  broadcastPanes : List String := []

/-- What the user does in the panel, and the steps of its calls. -/
inductive PanelEvent where
  | activateSession (id : String)
  | focusPane (id : String)
  | activateWorkspace (workspaceId : String)
  | splitPane (targetSessionId draggedSessionId : String) (direction : SplitDirection)
  | moveSessionTab (draggedSessionId : String) (targetSessionId : Option String) (afterTarget : Bool)
  | removeSplit (id : String)
  | ungroupActiveWorkspace
  | toggleSoloPane (id : String)
  | toggleBroadcastTyping
  | resizeSplitBranch (axis : Axis) (children : List SplitNode) (weights : List ℚ) (dividerIndex : Int)
      (delta : ℚ)
  | build
  | input (data id : String)
  | openNewSession (profile : Hop) (id : String)
  | openSnapshot (snapshot : SessionSnapshot) (id : String)
  | retry (profile : Hop) (id : String)
  | connect (profile : Hop) (id : String)
  | duplicateSession (sessionId id : String)
  | connectWithPassword (profile : Hop) (password id : String)
  | reconnectSession (sessionId : String)
  | reconnectWorkspace (workspaceId : Option String)
  | closeTab (sessionId : String)
  | closeWorkspace (workspaceId : String)
  | closed (call : Nat) (id : String)
  | finish (call : Nat)
  | resized (call : Nat)
  | startRecording (id path : String)
  | directoryChanged (path sessionId : String)
  | profilesChanged (profiles : List Hop)
  | didUpdateWidget (sameProfile : Bool)
  | connection (event : ConnectionEvent)

def PanelEvent.newId : PanelEvent → Option String
  | .openNewSession _ id => some id
  | .openSnapshot _ id => some id
  | .retry _ id => some id
  | .connect _ id => some id
  | .duplicateSession _ id => some id
  | .connectWithPassword _ _ id => some id
  | .closed _ id => some id
  | _ => none

def clearText : String := String.ofList [Char.ofNat 27, '[', '2', 'J', Char.ofNat 27, '[', 'H']

/-- `shellQuotePath`: a tilde at the start stays for the shell to expand. -/
def shellQuotePath (path : String) : String :=
  let quote := fun value => "'" ++ replaceChar '\'' "'\\''" value ++ "'"
  if path = "~" then "~"
  else match stripPrefix "~/" path with
    | some rest => "~/" ++ quote rest
    | none => quote path

def returnedResult (c : Nat) (o : List ConnectionObs) : Option Bool :=
  o.findSome? fun
    | .returned call result => if call = c then some result.toBool else none
    | _ => none

def PanelCall.hear (o : List ConnectionObs) (call : PanelCall) : PanelCall :=
  match call.phase with
  | .connecting c => match returnedResult c o with
    | some success => { call with phase := .connected success }
    | none => call
  | _ => call

namespace TerminalPanel

def initial (connections : Connections) (profiles : List Hop) : TerminalPanel :=
  { connections := connections, profiles := profiles }

variable (s : TerminalPanel)

def manager : ConnectionManager := s.connections.manager

def afterManager (r : Connections × List ConnectionObs) (notified : Bool) :
    TerminalPanel :=
  { s with
    connections := r.1
    calls := s.calls.map (PanelCall.hear r.2)
    panel := if notified then s.panel.handleConnectionManagerChanged r.1.manager else s.panel }

def closeSession (id : String) : TerminalPanel :=
  s.afterManager (s.connections.withManager (s.manager.closeSession id))
    (s.connections.notifies (.closeSession id))

def renameSession (id title : String) : TerminalPanel :=
  s.afterManager (s.connections.withManager (s.manager.renameSession id title, []))
    (s.connections.notifies (.renameSession id title))

def startRecording (id path : String) : TerminalPanel :=
  s.afterManager (s.connections.withManager (s.manager.startRecording id path, []))
    (s.manager.recordings id).isNone

def keepRecording (id : String) (path : Option String) : TerminalPanel :=
  match path with
  | some path => s.startRecording id path
  | none => s

variable (k : Nat) (call : PanelCall)

def setCall : TerminalPanel :=
  { s with calls := s.calls.set k call }

def newCall (task : PanelTask) (phase : CallPhase) : TerminalPanel :=
  { s with calls := s.calls ++ [{ task := task, phase := phase }] }

def withPanel (panel : TerminalPanelState) : TerminalPanel :=
  { s with panel := panel }

def addedSession (profile : Hop) (id : String) : Option String :=
  if dartTrim profile.host = "" ∨ dartTrim profile.username = "" then none else some id

def connectFor (task : PanelTask) (profile : Hop) (id : String) :
    TerminalPanel × List PanelObs :=
  ((s.setCall k
      { task := task
        phase := .connecting s.connections.calls.length
        added := addedSession profile id }).afterManager
      (s.connections.connect id profile) (s.connections.notifies (.connect id profile)),
    ((addedSession profile id).map (PanelObs.added k)).toList)

def profileFor (profileId : String) : Option Hop :=
  s.profiles.find? fun profile => profile.id = profileId

def connectNewSession (profile : Hop) (restore : Option SessionSnapshot)
    (startDirectory : Option String) (id : String) : TerminalPanel × List PanelObs :=
  ((s.withPanel (s.panel.startConnecting profile.id)).newCall
    (.connectNew profile s.manager.ids restore startDirectory) .over).connectFor s.calls.length
      (.connectNew profile s.manager.ids restore startDirectory) profile id

variable (session : TerminalSession)

/-- `_reconnectSession` of a session with its profile, up to its first `await`. -/
def startReconnect (profile : Hop) : TerminalPanel :=
  ((s.withPanel { s.panel with workspaceReconnectInProgress := true }).newCall
    (.reconnect session profile (s.panel.sessionOrder.indexOf session.id)
      (s.manager.recordings session.id)) .closing).closeSession session.id

def reconnectSession (sessionId : String) : TerminalPanel :=
  match s.manager.sessionById sessionId with
  | none => s
  | some session => match s.profileFor session.profileId with
    | none => s
    | some profile => s.startReconnect session profile

def endWorkspaceReconnect : TerminalPanel :=
  (s.withPanel (s.panel.endReconnect s.manager)).setCall k { call with phase := .over }

variable (w : WorkspaceReconnect)

def replacedRoot : SplitNode :=
  w.oldRoot.replaceSessionIds fun id => w.replacements.lookup id

def replacedActive : Option String :=
  (w.oldActiveId.bind fun id => w.replacements.lookup id).orElse fun _ =>
    (replacedRoot w).sessionIds.getLast?

def applyReplacements : TerminalPanel :=
  if w.replacements = [] then s
  else { s.withPanel ((s.panel.setRoot w.workspaceId (replacedRoot w)).showWorkspace s.manager
        w.workspaceId (replacedRoot w) (replacedActive w)) with
      broadcastPanes := s.broadcastPanes.map fun id => (w.replacements.lookup id).getD id }

def nextReconnect (todo : List (String × Hop)) :
    TerminalPanel × List PanelObs :=
  match todo with
  | next :: rest =>
    ((s.setCall k { task := .reconnectWorkspace { w with current := next, rest := rest }
                    phase := .closing }).closeSession next.1, [])
  | [] => ((s.applyReplacements w).endWorkspaceReconnect k { task := .reconnectWorkspace w, phase := .over },
      w.replacements.map fun entry => .used k (.substitute entry.1) entry.2)

def toReconnect (root : SplitNode) : List (String × Hop) :=
  root.sessionIds.filterMap fun id =>
    ((s.manager.sessionById id).bind fun session => s.profileFor session.profileId).map (Prod.mk id)

def startReconnectWorkspace (workspace : TerminalWorkspaceGroup) : TerminalPanel :=
  let started := s.withPanel { s.panel with workspaceReconnectInProgress := true }
  match s.toReconnect workspace.root with
  | [] => started.withPanel (started.panel.endReconnect s.manager)
  | next :: rest =>
    (started.newCall (.reconnectWorkspace ⟨workspace.id, workspace.root, s.panel.sessionId, next, rest, []⟩)
      .closing).closeSession next.1

def reconnectWorkspace (workspaceId : Option String) : TerminalPanel :=
  match workspaceId.elim s.panel.activeWorkspace s.panel.workspaceById with
  | none => s
  | some workspace => s.startReconnectWorkspace workspace

def closeTab (sessionId : String) : TerminalPanel :=
  (s.newCall (.closeTab sessionId s.manager.sessions (s.panel.sessionId = some sessionId))
    .closing).closeSession sessionId

def closeWorkspace (workspaceId : String) : TerminalPanel :=
  match s.panel.workspaceById workspaceId with
  | none => s
  | some workspace => match workspace.root.sessionIds with
    | [] => s
    | first :: rest =>
      (s.newCall (.closeWorkspace workspaceId (first :: rest) first rest) .closing).closeSession first

def duplicateSession (sessionId id : String) : TerminalPanel × List PanelObs :=
  match (s.manager.sessionById sessionId).bind fun session => s.profileFor session.profileId with
  | none => (s, [])
  | some profile =>
    (s.newCall (.duplicate sessionId profile s.manager.ids) .over).connectFor s.calls.length
      (.duplicate sessionId profile s.manager.ids) profile id

def withPassword (profile : Hop) (password : String) : Hop :=
  { profile with password := some password, hasPassword := true, privateKeyPath := none }

/-- The session whose place `_connectWithPassword` takes, if it has to be closed. -/
def failedSession : Option String :=
  s.panel.sessionId.filter fun id => isSessionConnected s.manager id = false

def connectPassword (profile : Hop) (index : Option Nat)
    (failed : Option String) (id : String) : TerminalPanel × List PanelObs :=
  s.connectFor k (.connectWithPassword profile index failed s.manager.ids) profile id

def startPassword (profileId : String) : TerminalPanel :=
  s.withPanel { s.panel with connectedProfileId := some profileId, connectInProgress := true }

def connectWithPassword (profile : Hop) (password id : String) :
    TerminalPanel × List PanelObs :=
  let index := s.panel.sessionId.bind s.panel.sessionOrder.indexOf
  match s.failedSession with
  | some failed =>
    (((s.startPassword profile.id).newCall
      (.connectWithPassword (withPassword profile password) index (some failed) []) .closing).closeSession
        failed, [])
  | none =>
    ((s.startPassword profile.id).newCall
      (.connectWithPassword (withPassword profile password) index none []) .over).connectPassword
        s.calls.length (withPassword profile password) index none id

def connect (profile : Hop) (id : String) : TerminalPanel × List PanelObs :=
  if s.panel.activeTabClosed ∨ s.panel.connectInProgress then (s, [])
  else if s.panel.connectedProfileId = some profile.id ∧
      s.panel.sessionId.any (isSessionReusable s.manager) then (s, [])
  else match lastSessionForProfile s.manager profile.id with
    | some session =>
      if isSessionReusable s.manager session.id then
        (s.withPanel (s.panel.activateSession session false), [])
      else (s.reconnectSession session.id, [])
    | none => s.connectNewSession profile none none id

def sessionClosed (id : String) :
    PanelTask → Option (TerminalPanel × List PanelObs)
  | .closeTab sessionId before wasActive =>
    some ((s.withPanel (s.panel.tabClosed before sessionId wasActive)).setCall k
      { task := .closeTab sessionId before wasActive, phase := .over }, [])
  | .closeWorkspace workspaceId sessionIds current rest =>
    let removed := s.withPanel { s.panel with sessionOrder := s.panel.sessionOrder.remove current }
    match rest with
    | next :: rest =>
      some ((removed.setCall k
        { task := .closeWorkspace workspaceId sessionIds next rest, phase := .closing }).closeSession next, [])
    | [] => some ((removed.withPanel (removed.panel.workspaceClosed s.manager workspaceId sessionIds)).setCall k
        { task := .closeWorkspace workspaceId sessionIds current [], phase := .over }, [])
  | .connectWithPassword profile index failed _ =>
    match failed with
    | none => none
    | some failedId =>
      some ((s.withPanel (s.panel.leaveTab s.manager failedId)).connectPassword k profile index failed id)
  | .reconnect session profile index recordingPath =>
    some ((s.withPanel (s.panel.leaveTab s.manager session.id)).connectFor k
      (.reconnect session profile index recordingPath) profile id)
  | .reconnectWorkspace w => some (s.connectFor k (.reconnectWorkspace w) w.current.2 id)
  | .connectNew .. => none
  | .duplicate .. => none

def cdObs (path : Option String) (id : String) : List PanelObs :=
  (path.map fun path => .used k (.cd s!" cd {shellQuotePath path}\r") id).toList

def newSessionFailed (failed : Option TerminalSession) :
    TerminalPanel × List PanelObs :=
  ((s.withPanel (s.panel.connectFailed failed)).setCall k { call with phase := .over },
    (failed.map fun session => .used k .place session.id).toList)

def restoreSnapshot (id : String) (restore : Option SessionSnapshot) : TerminalPanel :=
  match restore with
  | some snapshot => s.renameSession id snapshot.title
  | none => s

def restoreObs (restore : Option SessionSnapshot) (id : String) : List PanelObs :=
  match restore with
  | some snapshot => [.used k (.write snapshot.text) id, .used k (.rename snapshot.title) id]
  | none => []

def openNew (restore : Option SessionSnapshot) (startDirectory : Option String) : TerminalPanel × List PanelObs :=
  let restored := s.restoreSnapshot session.id restore
  ((restored.withPanel ((restored.panel.startSessionIn session.id startDirectory).placeTab session)).setCall k
      { call with phase := .resizing },
    [.used k (.write clearText) session.id] ++ restoreObs k restore session.id ++
      cdObs k startDirectory session.id ++ [.used k .place session.id])

def openDuplicate (sessionId : String) : TerminalPanel × List PanelObs :=
  ((s.withPanel ((s.panel.startSessionIn session.id (s.panel.sessionDirectories sessionId)).placeTab
      session)).setCall k { call with phase := .over },
    [.used k (.write clearText) session.id] ++
      cdObs k (s.panel.sessionDirectories sessionId) session.id ++ [.used k .place session.id])

def openWithPassword (index : Option Nat) : TerminalPanel × List PanelObs :=
  ((s.withPanel (s.panel.restoreTab session index)).setCall k { call with phase := .resizing },
    [.used k (.write clearText) session.id, .used k .place session.id])

def reopen (session old : TerminalSession)
    (index : Option Nat) (recordingPath : Option String) : TerminalPanel × List PanelObs :=
  let kept := (s.renameSession session.id old.title).keepRecording session.id recordingPath
  ({ (kept.withPanel (kept.panel.reconnected old.id session index)).setCall k
        { call with phase := .over } with
      broadcastPanes := s.broadcastPanes.map fun id => if id = old.id then session.id else id },
    [.used k (.write clearText) session.id, .used k (.rename old.title) session.id] ++
      (recordingPath.map fun path => .used k (.record path) session.id).toList ++
      [.used k .place session.id, .used k (.substitute old.id) session.id])

def reconnectDone (profile : Hop) (index : Option Nat) (recordingPath : Option String) (success : Bool) :
    TerminalPanel × List PanelObs :=
  if success then
    match lastSessionForProfile s.manager profile.id with
    -- `lastWhere` throws, and the reconnect stays in progress
    | none => (s.setCall k { call with phase := .over }, [])
    | some new => s.reopen k call new session index recordingPath
  else ((s.withPanel (s.panel.endReconnect s.manager)).setCall k { call with phase := .over }, [])

def reconnectedText (profile : Hop) : String :=
  String.ofList [Char.ofNat 27] ++ s!"[36mReconnected to {profile.username}@{profile.host}:" ++
    toString profile.port.toInt ++ "..." ++ String.ofList [Char.ofNat 27] ++ "[0m\r\n"

def workspaceReconnectDone (success : Bool) : TerminalPanel × List PanelObs :=
  if success then
    match lastSessionForProfile s.manager w.current.2.id with
    -- `lastWhere` throws
    | none => (s.endWorkspaceReconnect k call, [])
    | some new =>
      let r := s.nextReconnect k { w with replacements := (w.current.1, new.id) :: w.replacements } w.rest
      (r.1, [.used k (.write clearText) new.id, .used k (.write (reconnectedText w.current.2)) new.id] ++ r.2)
  else s.nextReconnect k w w.rest

def finish (success : Bool) :
    Option (TerminalPanel × List PanelObs) :=
  match call.task with
  | .connectNew profile existing restore startDirectory =>
    match if success then newSessionForProfile s.manager profile.id existing else none with
    | some session => some (s.openNew k call session restore startDirectory)
    | none => some (s.newSessionFailed k call (newSessionForProfile s.manager profile.id existing))
  | .duplicate sessionId profile existing =>
    match if success then newSessionForProfile s.manager profile.id existing else none with
    | some session => some (s.openDuplicate k call session sessionId)
    | none => some (s.setCall k { call with phase := .over }, [])
  | .connectWithPassword profile index _ existing =>
    match if success then newSessionForProfile s.manager profile.id existing else none with
    | some session => some (s.openWithPassword k call session index)
    | none => some (s.newSessionFailed k call (newSessionForProfile s.manager profile.id existing))
  | .reconnect session profile index recordingPath =>
    some (s.reconnectDone k call session profile index recordingPath success)
  | .reconnectWorkspace w => some (s.workspaceReconnectDone k call w success)
  | .closeTab .. => none
  | .closeWorkspace .. => none

def toggleBroadcastTyping : TerminalPanel :=
  { s.withPanel (s.panel.toggleBroadcastTyping s.manager) with
    broadcastPanes := if s.panel.broadcastTyping then s.broadcastPanes else s.panel.displayed s.manager }

def input (data id : String) : TerminalPanel × List PanelObs :=
  if data = String.singleton (Char.ofNat 2) then (s.toggleBroadcastTyping, [])
  else (s, (s.panel.inputTargets s.manager id).map fun target => .sent target data)

def startDirectory (profileId : String) : Option String :=
  if s.panel.connectedProfileId = some profileId then s.panel.sessionId.bind s.panel.sessionDirectories
  else none

def didUpdateWidget (sameProfile : Bool) : TerminalPanel :=
  if sameProfile ∧ (s.panel.sessionId.isSome ∨ s.panel.connectInProgress) then s
  else s.withPanel { s.panel with activeTabClosed := false }

def stepFresh : PanelEvent → Option (TerminalPanel × List PanelObs)
  | .activateSession id => match s.manager.sessionById id with
    | some session => some (s.withPanel (s.panel.activateSession session false), [])
    | none => none
  | .focusPane id =>
    if id ∈ s.panel.displayed s.manager then
      match s.manager.sessionById id with
      | some session => some (s.withPanel (s.panel.activateSession session true), [])
      | none => some (s, [])
    else none
  | .activateWorkspace workspaceId => some (s.withPanel (s.panel.activateWorkspace s.manager workspaceId), [])
  | .splitPane target dragged direction =>
    -- what is dragged is dropped on a pane or on a tab
    if target ∈ s.panel.displayed s.manager ∨ target ∈ s.manager.ids then
      some (s.withPanel (s.panel.splitPane s.manager target dragged direction), [])
    else none
  | .moveSessionTab dragged target afterTarget =>
    some (s.withPanel (s.panel.moveSessionTab s.manager dragged target afterTarget), [])
  | .removeSplit id =>
    if id ∈ s.panel.displayed s.manager then some (s.withPanel (s.panel.removeSplit s.manager id), [])
    else none
  | .ungroupActiveWorkspace => some (s.withPanel (s.panel.ungroupActiveWorkspace s.manager), [])
  | .toggleSoloPane id =>
    -- the button of a pane is there while there is more than one
    if id ∈ s.panel.displayed s.manager ∧ 1 < s.panel.panes.length then
      some (s.withPanel (s.panel.toggleSoloPane s.manager id), [])
    else none
  | .toggleBroadcastTyping => some (s.toggleBroadcastTyping, [])
  | .resizeSplitBranch axis children weights dividerIndex delta =>
    some (s.withPanel (s.panel.resizeSplitBranch axis (SplitNode.childIds children)
      (SplitNode.withAdjustedDivider axis children weights dividerIndex delta)), [])
  | .build => some (s.withPanel (s.panel.updateOrder s.manager), [])
  | .input data id => if id ∈ s.panel.displayed s.manager then some (s.input data id) else none
  | .openNewSession profile id =>
    some ((s.withPanel { s.panel with
      activeTabClosed := false, connectedProfileId := none, sessionId := none }).connectNewSession profile none
        (s.startDirectory profile.id) id)
  | .openSnapshot snapshot id => match s.profileFor snapshot.profileId with
    | some profile => some ((s.withPanel { s.panel with activeTabClosed := false }).connectNewSession profile
        (some snapshot) none id)
    | none => some (s, [])
  | .retry profile id => some (s.connectNewSession profile none none id)
  | .connect profile id => some (s.connect profile id)
  | .duplicateSession sessionId id => some (s.duplicateSession sessionId id)
  | .connectWithPassword profile password id => some (s.connectWithPassword profile password id)
  | .reconnectSession sessionId => some (s.reconnectSession sessionId, [])
  | .reconnectWorkspace workspaceId => some (s.reconnectWorkspace workspaceId, [])
  | .closeTab sessionId =>
    -- the tab is, or was until now, that of a session
    if sessionId ∈ s.connections.used then some (s.closeTab sessionId, []) else none
  | .closeWorkspace workspaceId => some (s.closeWorkspace workspaceId, [])
  | .closed k id => match s.calls[k]? with
    | some call => if call.phase = .closing then s.sessionClosed k id call.task else none
    | none => none
  | .finish k => match s.calls[k]? with
    | some call => match call.phase with
      | .connected success => s.finish k call success
      | _ => none
    | none => none
  | .resized k => match s.calls[k]? with
    | some call =>
      if call.phase = .resizing then
        some ((s.withPanel { s.panel with connectInProgress := false }).setCall k { call with phase := .over },
          [])
      else none
    | none => none
  | .startRecording id path => some (s.startRecording id path, [])
  | .directoryChanged path sessionId => some (s.withPanel { s.panel with
      sessionDirectories := Function.update s.panel.sessionDirectories sessionId (some path) }, [])
  | .profilesChanged profiles => some ({ s with profiles := profiles }, [])
  | .didUpdateWidget sameProfile => some (s.didUpdateWidget sameProfile, [])
  | .connection event => match s.connections.step event with
    | some r => some (s.afterManager r (s.connections.notifies event), [])
    | none => none

/-- One step of the panel or of the connections below it. -/
def step (event : PanelEvent) : Option (TerminalPanel × List PanelObs) :=
  if event.newId.any fun id => id ∈ s.connections.used then none else s.stepFresh event

/-- Each call uses the session that its own `connect` has added, and no two calls use the same. -/
structure OwnSessions (h : List PanelObs) : Prop where
  own {k : Nat} {use : Use} {id : String} : .used k use id ∈ h → .added k id ∈ h
  distinct {k k' : Nat} {use use' : Use} {id : String} :
    .used k use id ∈ h → .used k' use' id ∈ h → k = k'

/-- A session is in the list, and none of the profile comes after it. -/
def LastOf (m : ConnectionManager) (profileId : String) (id : Option String) : Prop :=
  ∃ before session after, m.sessions = before ++ session :: after ∧ some session.id = id ∧
    ∀ later ∈ after, later.profileId ≠ profileId

/-- When a call looks for its new session, its own is still in the list, and none of the same profile was
added after it; or there is no new one at all. -/
def Unmixed : PanelEvent → Prop
  | .finish k => ∀ call success profileId existing, s.calls[k]? = some call →
      call.phase = .connected success → call.task.search success = some (profileId, existing) →
      (∀ session ∈ s.manager.sessions, session.profileId = profileId → session.id ∈ existing) ∨
        LastOf s.manager profileId call.added
  | _ => True

/-- An operation on the tabs and the panes, or a change of the list of sessions: none that opens or
reconnects a session. -/
def arranges : PanelEvent → Bool
  | .openNewSession .. => false
  | .openSnapshot .. => false
  | .retry .. => false
  | .connect .. => false
  | .duplicateSession .. => false
  | .connectWithPassword .. => false
  | .reconnectSession .. => false
  | .reconnectWorkspace .. => false
  | .finish .. => false
  | .resized .. => false
  | _ => true

/-- The workspaces, what is shown and the active session fit together. -/
structure Consistent (s : TerminalPanel) : Prop where
  apart : s.panel.workspaceSessionIds.Nodup
  several : ∀ workspace ∈ s.panel.workspaces, 2 ≤ workspace.root.sessionIds.length
  opened : ∀ id ∈ s.panel.workspaceSessionIds, id ∈ s.manager.ids
  active : s.panel.workspaceActive = true ∨ s.panel.activeWorkspaceId.isSome = true →
    ∃ workspace, s.panel.activeWorkspace = some workspace ∧ s.panel.splitRoot = some workspace.root
  session : ∀ id, s.panel.sessionId = some id → id ∈ s.manager.ids ∧ id ∈ s.panel.displayed s.manager

/-- While a pane is shown alone no other session gets active. A closed tab that was active leaves a
neighbour that is still open, and a closed workspace leaves no other workspace active. -/
def Steady : PanelEvent → Prop
  | .activateSession id => s.panel.SoloAt id
  | .activateWorkspace workspaceId => ∀ workspace id, s.panel.workspaceById workspaceId = some workspace →
      s.panel.sessionIn workspace.root = some id → s.panel.SoloAt id
  | .splitPane target dragged _ =>
    s.panel.splitTargetForDrag s.manager dragged target ≠ dragged → s.panel.SoloAt dragged
  | .moveSessionTab dragged target _ => some dragged ≠ target → s.panel.SoloAt dragged
  | .closed k _ => match (s.calls[k]?).map PanelCall.task with
    | some (.closeTab sessionId before true) => ∀ session,
        TerminalPanelState.neighbour before sessionId = some session →
          session.id ∈ s.manager.ids ∧ s.panel.SoloAt session.id
    | some (.closeWorkspace workspaceId sessionIds _ []) => ∀ last,
        (s.manager.sessions.filter fun session => session.id ∉ sessionIds).getLast? = some last →
          (∀ active, s.panel.activeWorkspaceId = some active → active = workspaceId) ∧
            ∀ solo, s.panel.soloSessionId = some solo → solo ∈ sessionIds ∨ solo = last.id
    | _ => True
  | _ => True

end TerminalPanel

end Portix.Terminal
