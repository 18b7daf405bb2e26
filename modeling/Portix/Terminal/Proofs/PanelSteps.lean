import Portix.Connection.Proofs.SessionListProofs
import Portix.Terminal.TerminalPanel

/-!
# Steps of the terminal panel

A step is taken apart into what it finds (`Taken`).
-/

namespace Portix.Terminal.TerminalPanel

open Connection (ConnectionManager TerminalSession Hop Connections ConnectionEvent ConnectionObs)

variable {s s' : TerminalPanel} {o : List PanelObs} {event : PanelEvent}

/-- The steps there are, by what they find. -/
inductive Taken (s : TerminalPanel) : PanelEvent → TerminalPanel → List PanelObs → Prop where
  | nothing (event : PanelEvent) : Taken s event s []
  | activateSession {event : PanelEvent} {session : TerminalSession}
      (hevent : event = .activateSession session.id ∨ ∃ profile id, event = .connect profile id ∧
        lastSessionForProfile s.manager profile.id = some session)
      (hsession : session ∈ s.manager.sessions) :
      Taken s event (s.withPanel (s.panel.activateSession session false)) []
  | focusPane {id : String} {session : TerminalSession} (hshown : id ∈ s.panel.displayed s.manager)
      (hsession : s.manager.sessionById id = some session) :
      Taken s (.focusPane id) (s.withPanel (s.panel.activateSession session true)) []
  | activateWorkspace (workspaceId : String) : Taken s (.activateWorkspace workspaceId)
      (s.withPanel (s.panel.activateWorkspace s.manager workspaceId)) []
  | splitPane {target dragged : String} {direction : SplitDirection}
      (htarget : target ∈ s.panel.displayed s.manager ∨ target ∈ s.manager.ids) :
      Taken s (.splitPane target dragged direction)
        (s.withPanel (s.panel.splitPane s.manager target dragged direction)) []
  | moveSessionTab (dragged : String) (target : Option String) (afterTarget : Bool) :
      Taken s (.moveSessionTab dragged target afterTarget)
        (s.withPanel (s.panel.moveSessionTab s.manager dragged target afterTarget)) []
  | removeSplit {id : String} (hshown : id ∈ s.panel.displayed s.manager) : Taken s (.removeSplit id)
      (s.withPanel (s.panel.removeSplit s.manager id)) []
  | ungroupActiveWorkspace : Taken s .ungroupActiveWorkspace
      (s.withPanel (s.panel.ungroupActiveWorkspace s.manager)) []
  | toggleSoloPane {id : String} (hshown : id ∈ s.panel.displayed s.manager) :
      Taken s (.toggleSoloPane id) (s.withPanel (s.panel.toggleSoloPane s.manager id)) []
  | toggleBroadcastTyping {event : PanelEvent}
      (hevent : event = .toggleBroadcastTyping ∨
        ∃ id, event = .input (String.singleton (Char.ofNat 2)) id) :
      Taken s event s.toggleBroadcastTyping []
  | typed {data id : String} (hshown : id ∈ s.panel.displayed s.manager) : Taken s (.input data id) s
      ((s.panel.inputTargets s.manager id).map fun target => .sent target data)
  | resizeSplitBranch (axis : Axis) (children : List SplitNode) (weights : List ℚ) (dividerIndex : Int)
      (delta : ℚ) : Taken s (.resizeSplitBranch axis children weights dividerIndex delta)
        (s.withPanel (s.panel.resizeSplitBranch axis (SplitNode.childIds children)
          (SplitNode.withAdjustedDivider axis children weights dividerIndex delta))) []
  | build : Taken s .build (s.withPanel (s.panel.updateOrder s.manager)) []
  | openNewSession {profile : Hop} {id : String} (hfresh : id ∉ s.connections.used) :
      Taken s (.openNewSession profile id)
        ((s.withPanel { s.panel with
          activeTabClosed := false, connectedProfileId := none, sessionId := none }).connectNewSession
            profile none (s.startDirectory profile.id) id).1
        ((s.withPanel { s.panel with
          activeTabClosed := false, connectedProfileId := none, sessionId := none }).connectNewSession
            profile none (s.startDirectory profile.id) id).2
  | openSnapshot {snapshot : SessionSnapshot} {profile : Hop} {id : String}
      (hfresh : id ∉ s.connections.used) : Taken s (.openSnapshot snapshot id)
        ((s.withPanel { s.panel with activeTabClosed := false }).connectNewSession profile (some snapshot)
          none id).1
        ((s.withPanel { s.panel with activeTabClosed := false }).connectNewSession profile (some snapshot)
          none id).2
  | connectNewSession {event : PanelEvent} {profile : Hop} {id : String}
      (hevent : event = .retry profile id ∨ event = .connect profile id)
      (hfresh : id ∉ s.connections.used) : Taken s event
        (s.connectNewSession profile none none id).1 (s.connectNewSession profile none none id).2
  | duplicateSession {sessionId id : String} {profile : Hop} (hfresh : id ∉ s.connections.used) :
      Taken s (.duplicateSession sessionId id)
        ((s.newCall (.duplicate sessionId profile s.manager.ids) .over).connectFor s.calls.length
          (.duplicate sessionId profile s.manager.ids) profile id).1
        ((s.newCall (.duplicate sessionId profile s.manager.ids) .over).connectFor s.calls.length
          (.duplicate sessionId profile s.manager.ids) profile id).2
  | passwordClosing {profile : Hop} {password id failed : String}
      (hfailed : s.failedSession = some failed) : Taken s (.connectWithPassword profile password id)
        (((s.startPassword profile.id).newCall (.connectWithPassword (withPassword profile password)
          (s.panel.sessionId.bind s.panel.sessionOrder.indexOf) (some failed) []) .closing).closeSession
            failed) []
  | passwordConnecting {profile : Hop} {password id : String} (hfailed : s.failedSession = none)
      (hfresh : id ∉ s.connections.used) : Taken s (.connectWithPassword profile password id)
        (((s.startPassword profile.id).newCall (.connectWithPassword (withPassword profile password)
          (s.panel.sessionId.bind s.panel.sessionOrder.indexOf) none []) .over).connectPassword
            s.calls.length (withPassword profile password)
            (s.panel.sessionId.bind s.panel.sessionOrder.indexOf) none id).1
        (((s.startPassword profile.id).newCall (.connectWithPassword (withPassword profile password)
          (s.panel.sessionId.bind s.panel.sessionOrder.indexOf) none []) .over).connectPassword
            s.calls.length (withPassword profile password)
            (s.panel.sessionId.bind s.panel.sessionOrder.indexOf) none id).2
  | startReconnect {event : PanelEvent} {session : TerminalSession} {profile : Hop}
      (hevent : event = .reconnectSession session.id ∨ ∃ profile id, event = .connect profile id)
      (hsession : s.manager.sessionById session.id = some session)
      (hprofile : s.profileFor session.profileId = some profile) :
      Taken s event (s.startReconnect session profile) []
  | startReconnectWorkspace {workspaceId : Option String} {workspace : TerminalWorkspaceGroup}
      (hfound : workspaceId.elim s.panel.activeWorkspace s.panel.workspaceById = some workspace) :
      Taken s (.reconnectWorkspace workspaceId) (s.startReconnectWorkspace workspace) []
  | closeTab {sessionId : String} (hused : sessionId ∈ s.connections.used) :
      Taken s (.closeTab sessionId) (s.closeTab sessionId) []
  | closeWorkspace {workspaceId first : String} {rest : List String} {workspace : TerminalWorkspaceGroup}
      (hfound : s.panel.workspaceById workspaceId = some workspace)
      (hids : workspace.root.sessionIds = first :: rest) : Taken s (.closeWorkspace workspaceId)
        ((s.newCall (.closeWorkspace workspaceId (first :: rest) first rest) .closing).closeSession first)
        []
  | closed {k : Nat} {call : PanelCall} {id : String} {s' : TerminalPanel} {o : List PanelObs}
      (hat : s.calls[k]? = some call) (hphase : call.phase = .closing)
      (hfresh : id ∉ s.connections.used) (hclosed : s.sessionClosed k id call.task = some (s', o)) :
      Taken s (.closed k id) s' o
  | finish {k : Nat} {call : PanelCall} {success : Bool} {s' : TerminalPanel} {o : List PanelObs}
      (hat : s.calls[k]? = some call) (hphase : call.phase = .connected success)
      (hfinish : s.finish k call success = some (s', o)) : Taken s (.finish k) s' o
  | resized {k : Nat} {call : PanelCall} (hat : s.calls[k]? = some call)
      (hphase : call.phase = .resizing) : Taken s (.resized k)
        ((s.withPanel { s.panel with connectInProgress := false }).setCall k { call with phase := .over }) []
  | startRecording (id path : String) : Taken s (.startRecording id path) (s.startRecording id path) []
  | directoryChanged (path sessionId : String) : Taken s (.directoryChanged path sessionId)
      (s.withPanel { s.panel with
        sessionDirectories := Function.update s.panel.sessionDirectories sessionId (some path) }) []
  | profilesChanged (profiles : List Hop) :
      Taken s (.profilesChanged profiles) { s with profiles := profiles } []
  | didUpdateWidget (sameProfile : Bool) : Taken s (.didUpdateWidget sameProfile)
      (s.withPanel { s.panel with activeTabClosed := false }) []
  | connection {event : ConnectionEvent} {r : Connections × List ConnectionObs}
      (hstep : s.connections.step event = some r) :
      Taken s (.connection event) (s.afterManager r (s.connections.notifies event)) []

variable {sessionId id : String}

theorem lastSessionForProfile_mem {m : ConnectionManager} {profileId : String} {session : TerminalSession}
    (hlast : lastSessionForProfile m profileId = some session) :
    session ∈ m.sessions ∧ session.profileId = profileId := by
  have hmem := List.mem_of_getLast? hlast
  rw [List.mem_filter] at hmem
  exact ⟨hmem.1, of_decide_eq_true hmem.2⟩

theorem taken_of_reconnectSession
    (hevent : event = .reconnectSession sessionId ∨ ∃ profile id, event = .connect profile id) :
    Taken s event (s.reconnectSession sessionId) [] := by
  unfold reconnectSession
  split
  · exact .nothing event
  · rename_i session hsession
    obtain ⟨-, rfl⟩ := ConnectionManager.mem_of_sessionById hsession
    split
    · exact .nothing event
    · rename_i profile hprofile
      exact .startReconnect hevent hsession hprofile

theorem taken_of_connect {profile : Hop} (hfresh : id ∉ s.connections.used) :
    Taken s (.connect profile id) (s.connect profile id).1 (s.connect profile id).2 := by
  unfold connect
  split
  · exact .nothing _
  · split
    · exact .nothing _
    · split
      · rename_i session hlast
        split
        · exact .activateSession (.inr ⟨profile, id, rfl, hlast⟩) (lastSessionForProfile_mem hlast).1
        · exact taken_of_reconnectSession (.inr ⟨profile, id, rfl⟩)
      · exact .connectNewSession (.inr rfl) hfresh

theorem taken_of_input {data : String} (hshown : id ∈ s.panel.displayed s.manager) :
    Taken s (.input data id) (s.input data id).1 (s.input data id).2 := by
  unfold input
  split
  · rename_i hdata
    subst hdata
    exact .toggleBroadcastTyping (.inr ⟨id, rfl⟩)
  · exact .typed hshown

theorem taken_of_duplicateSession (hfresh : id ∉ s.connections.used) :
    Taken s (.duplicateSession sessionId id) (s.duplicateSession sessionId id).1
      (s.duplicateSession sessionId id).2 := by
  unfold duplicateSession
  split
  · exact .nothing _
  · exact .duplicateSession hfresh

theorem taken_of_connectWithPassword {profile : Hop} {password : String}
    (hfresh : id ∉ s.connections.used) : Taken s (.connectWithPassword profile password id)
      (s.connectWithPassword profile password id).1 (s.connectWithPassword profile password id).2 := by
  unfold connectWithPassword
  cases hfailed : s.failedSession with
  | some failed => exact .passwordClosing hfailed
  | none => exact .passwordConnecting hfailed hfresh

theorem taken_of_reconnectWorkspace (workspaceId : Option String) :
    Taken s (.reconnectWorkspace workspaceId) (s.reconnectWorkspace workspaceId) [] := by
  unfold reconnectWorkspace
  split
  · exact .nothing _
  · rename_i workspace hfound
    exact .startReconnectWorkspace hfound

theorem taken_of_closeWorkspace (workspaceId : String) :
    Taken s (.closeWorkspace workspaceId) (s.closeWorkspace workspaceId) [] := by
  unfold closeWorkspace
  split
  · exact .nothing _
  · rename_i workspace hfound
    split
    · exact .nothing _
    · rename_i first rest hids
      exact .closeWorkspace hfound hids

theorem taken_of_pair {r : TerminalPanel × List PanelObs} (htaken : Taken s event r.1 r.2)
    (hstep : some r = some (s', o)) : Taken s event s' o := by
  cases hstep
  exact htaken

theorem taken_of_activateSession (hstep : s.stepFresh (.activateSession id) = some (s', o)) :
    Taken s (.activateSession id) s' o := by
  unfold stepFresh at hstep
  dsimp only at hstep
  split at hstep
  next session hsession =>
    obtain ⟨hmem, rfl⟩ := ConnectionManager.mem_of_sessionById hsession
    exact taken_of_pair (.activateSession (.inl rfl) hmem) hstep
  next => cases hstep

theorem taken_of_focusPane (hstep : s.stepFresh (.focusPane id) = some (s', o)) : Taken s (.focusPane id) s' o := by
  obtain ⟨hshown, hstep⟩ := Option.ite_none_right_eq_some.mp hstep
  split at hstep
  next session hsession => exact taken_of_pair (.focusPane hshown hsession) hstep
  next => exact taken_of_pair (.nothing _) hstep

theorem taken_of_openSnapshot {snapshot : SessionSnapshot} (hfresh : id ∉ s.connections.used)
    (hstep : s.stepFresh (.openSnapshot snapshot id) = some (s', o)) : Taken s (.openSnapshot snapshot id) s' o := by
  unfold stepFresh at hstep
  dsimp only at hstep
  split at hstep
  next => exact taken_of_pair (.openSnapshot hfresh) hstep
  next => exact taken_of_pair (.nothing _) hstep

section Calls

variable {k : Nat}

theorem taken_of_closed (hfresh : id ∉ s.connections.used) (hstep : s.stepFresh (.closed k id) = some (s', o)) :
    Taken s (.closed k id) s' o := by
  unfold stepFresh at hstep
  dsimp only at hstep
  split at hstep
  next call hat =>
    obtain ⟨hphase, hclosed⟩ := Option.ite_none_right_eq_some.mp hstep
    exact .closed hat hphase hfresh hclosed
  next => cases hstep

theorem taken_of_finish (hstep : s.stepFresh (.finish k) = some (s', o)) : Taken s (.finish k) s' o := by
  unfold stepFresh at hstep
  dsimp only at hstep
  split at hstep
  next call hat =>
    split at hstep
    next success hphase => exact .finish hat hphase hstep
    next => cases hstep
  next => cases hstep

theorem taken_of_resized (hstep : s.stepFresh (.resized k) = some (s', o)) : Taken s (.resized k) s' o := by
  unfold stepFresh at hstep
  dsimp only at hstep
  split at hstep
  next call hat =>
    obtain ⟨hphase, hstep⟩ := Option.ite_none_right_eq_some.mp hstep
    exact taken_of_pair (.resized hat hphase) hstep
  next => cases hstep

end Calls

theorem taken_of_didUpdateWidget (sameProfile : Bool) :
    Taken s (.didUpdateWidget sameProfile) (s.didUpdateWidget sameProfile) [] := by
  unfold didUpdateWidget
  split
  · exact .nothing _
  · exact .didUpdateWidget sameProfile

theorem taken_of_connection {event : ConnectionEvent} (hstep : s.stepFresh (.connection event) = some (s', o)) :
    Taken s (.connection event) s' o := by
  unfold stepFresh at hstep
  dsimp only at hstep
  split at hstep
  next r htaken => exact taken_of_pair (.connection htaken) hstep
  next => cases hstep

theorem taken_of_stepFresh (hfresh : ∀ id, event.newId = some id → id ∉ s.connections.used)
    (hstep : s.stepFresh event = some (s', o)) : Taken s event s' o := by
  cases event with
  | activateSession => exact taken_of_activateSession hstep
  | focusPane => exact taken_of_focusPane hstep
  | activateWorkspace => exact taken_of_pair (.activateWorkspace _) hstep
  | splitPane =>
    obtain ⟨htarget, hstep⟩ := Option.ite_none_right_eq_some.mp hstep
    exact taken_of_pair (.splitPane htarget) hstep
  | moveSessionTab => exact taken_of_pair (.moveSessionTab _ _ _) hstep
  | removeSplit =>
    obtain ⟨hshown, hstep⟩ := Option.ite_none_right_eq_some.mp hstep
    exact taken_of_pair (.removeSplit hshown) hstep
  | ungroupActiveWorkspace => exact taken_of_pair .ungroupActiveWorkspace hstep
  | toggleSoloPane =>
    obtain ⟨hshown, hstep⟩ := Option.ite_none_right_eq_some.mp hstep
    exact taken_of_pair (.toggleSoloPane hshown.1) hstep
  | toggleBroadcastTyping => exact taken_of_pair (.toggleBroadcastTyping (.inl rfl)) hstep
  | resizeSplitBranch => exact taken_of_pair (.resizeSplitBranch _ _ _ _ _) hstep
  | build => exact taken_of_pair .build hstep
  | input =>
    obtain ⟨hshown, hstep⟩ := Option.ite_none_right_eq_some.mp hstep
    exact taken_of_pair (taken_of_input hshown) hstep
  | openNewSession _ id => exact taken_of_pair (.openNewSession (hfresh id rfl)) hstep
  | openSnapshot _ id => exact taken_of_openSnapshot (hfresh id rfl) hstep
  | retry _ id => exact taken_of_pair (.connectNewSession (.inl rfl) (hfresh id rfl)) hstep
  | connect _ id => exact taken_of_pair (taken_of_connect (hfresh id rfl)) hstep
  | duplicateSession _ id => exact taken_of_pair (taken_of_duplicateSession (hfresh id rfl)) hstep
  | connectWithPassword _ _ id => exact taken_of_pair (taken_of_connectWithPassword (hfresh id rfl)) hstep
  | reconnectSession => exact taken_of_pair (taken_of_reconnectSession (.inl rfl)) hstep
  | reconnectWorkspace workspaceId => exact taken_of_pair (taken_of_reconnectWorkspace workspaceId) hstep
  | closeTab =>
    obtain ⟨hused, hstep⟩ := Option.ite_none_right_eq_some.mp hstep
    exact taken_of_pair (.closeTab hused) hstep
  | closeWorkspace workspaceId => exact taken_of_pair (taken_of_closeWorkspace workspaceId) hstep
  | closed _ id => exact taken_of_closed (hfresh id rfl) hstep
  | finish => exact taken_of_finish hstep
  | resized => exact taken_of_resized hstep
  | startRecording => exact taken_of_pair (.startRecording _ _) hstep
  | directoryChanged => exact taken_of_pair (.directoryChanged _ _) hstep
  | profilesChanged => exact taken_of_pair (.profilesChanged _) hstep
  | didUpdateWidget sameProfile => exact taken_of_pair (taken_of_didUpdateWidget sameProfile) hstep
  | connection => exact taken_of_connection hstep

theorem taken_of_step (hstep : s.step event = some (s', o)) : Taken s event s' o := by
  unfold step at hstep
  split at hstep
  · cases hstep
  · rename_i hfresh
    refine taken_of_stepFresh ?_ hstep
    intro id hnew hused
    apply hfresh
    rw [hnew]
    exact decide_eq_true hused

end Portix.Terminal.TerminalPanel
