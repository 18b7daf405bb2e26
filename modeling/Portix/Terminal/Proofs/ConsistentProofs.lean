import Portix.Terminal.Proofs.LeaveProofs
import Portix.Terminal.Proofs.OwnSessionProofs

/-!
# The panel stays consistent

The panel is `Arranged` over the list of its manager (`Fit`), and what a call has closed is never in the
list again (`Gone`). Each step keeps this, so it holds in every run whose steps are `Steady`.
-/

namespace Portix.Terminal

open Lib

open Connection (ConnectionManager TerminalSession Hop Connections ConnectionEvent ConnectionObs)

variable {panel : TerminalPanelState} {c c' : Connections} {id : String} {notified : Bool}

/-- The panel is arranged over the sessions in the list, whose ids are taken. -/
structure Fit (panel : TerminalPanelState) (c : Connections) : Prop where
  arranged : panel.Arranged c.manager.ids
  used : ∀ id ∈ c.manager.ids, id ∈ c.used

/-- The session was in the list and will never be again. -/
structure Gone (c : Connections) (id : String) : Prop where
  used : id ∈ c.used
  closed : id ∉ c.manager.ids

/-- The calls are those that close tabs and workspaces, and what they have closed is gone. -/
def PanelTask.Closing (c : Connections) : PanelTask → Prop
  | .closeTab sessionId _ _ => Gone c sessionId
  | .closeWorkspace _ sessionIds _ rest => ∀ id ∈ sessionIds, id ∈ c.used ∧ (id ∈ rest ∨ Gone c id)
  | _ => False

theorem Gone.after (hgone : Gone c id) (hchange : Connections.ListChange c c' notified) : Gone c' id where
  used := hchange.used hgone.used
  closed hmem := by
    rcases hchange.ids hmem with hold | ⟨hfresh, -⟩
    · exact hgone.closed hold
    · exact hfresh hgone.used

theorem PanelTask.Closing.after {task : PanelTask} (hclosing : task.Closing c)
    (hchange : Connections.ListChange c c' notified) : task.Closing c' := by
  cases task with
  | closeTab sessionId before wasActive => exact Gone.after hclosing hchange
  | closeWorkspace workspaceId sessionIds current rest =>
    intro id hmem
    obtain ⟨hused, hstate⟩ := hclosing id hmem
    exact ⟨hchange.used hused, hstate.imp_right fun hgone => hgone.after hchange⟩
  | connectNew | duplicate | connectWithPassword | reconnect | reconnectWorkspace => cases hclosing

theorem gone_of_closeSession (hused : id ∈ c.used) : Gone (c.withManager (c.manager.closeSession id)).1 id where
  used := hused
  closed hmem := by
    have hmem' : id ∈ (c.manager.closeSession id).1.ids := hmem
    rw [ConnectionManager.ids_eq_entries, ConnectionManager.entries_closeSession, List.mem_map] at hmem'
    obtain ⟨entry, hentry, rfl⟩ := hmem'
    exact of_decide_eq_true (List.mem_filter.mp hentry).2 rfl

theorem Fit.after (hfit : Fit panel c) (hchange : Connections.ListChange c c' notified) :
    Fit (if notified then panel.handleConnectionManagerChanged c'.manager else panel) c' where
  arranged := by
    cases hnotified : notified with
    | true => exact hfit.arranged.handleConnectionManagerChanged c'.manager
    | false =>
      cases hchange with
      | same hentries hused =>
        rw [ConnectionManager.ids_eq_entries, hentries, ← ConnectionManager.ids_eq_entries]
        exact hfit.arranged
      | added hfresh hentries hused htrue =>
        rw [hnotified] at htrue
        cases htrue
      | closed hentries hused htrue =>
        rw [hnotified] at htrue
        cases htrue
  used id hmem := by
    rcases hchange.ids hmem with hold | ⟨-, hused⟩
    · exact hchange.used (hfit.used id hold)
    · exact hused

namespace TerminalPanel

variable {s s' : TerminalPanel} {h o : List PanelObs} {event : PanelEvent} {k : Nat} {call : PanelCall}

structure Kept (s : TerminalPanel) : Prop where
  fit : Fit s.panel s.connections
  calls : ∀ call ∈ s.calls, call.task.Closing s.connections

theorem kept_initial (profiles : List Hop) : Kept (initial Connections.initial profiles) where
  fit :=
    { arranged := TerminalPanelState.arranged_empty rfl rfl rfl rfl rfl rfl fun _ hsolo => by cases hsolo
      used := fun _ hmem => absurd hmem List.not_mem_nil }
  calls _ hmem := absurd hmem List.not_mem_nil

namespace Kept

theorem withPanel (hkept : Kept s) (harranged : panel.Arranged s.manager.ids) : Kept (s.withPanel panel) where
  fit := ⟨harranged, hkept.fit.used⟩
  calls := hkept.calls

theorem afterManager {r : Connections × List ConnectionObs} (hfit : Fit s.panel s.connections)
    (hchange : Connections.ListChange s.connections r.1 notified)
    (hcalls : ∀ call ∈ s.calls, call.task.Closing r.1) : Kept (s.afterManager r notified) where
  fit := hfit.after hchange
  calls call hmem := by
    obtain ⟨old, hold, rfl⟩ := List.mem_map.mp hmem
    rw [PanelCall.hear_task]
    exact hcalls old hold

theorem closeSession (hfit : Fit s.panel s.connections) (hcalls : ∀ call ∈ s.calls,
      call.task.Closing (s.connections.withManager (s.manager.closeSession id)).1) :
    Kept (s.closeSession id) :=
  afterManager hfit (Connections.listChange_closeSession id) hcalls

theorem startRecording (hkept : Kept s) (id path : String) : Kept (s.startRecording id path) := by
  have hchange := Connections.listChange_withManager (o := []) (b := (s.manager.recordings id).isNone)
    (@ConnectionManager.entries_startRecording s.manager id path)
  exact afterManager hkept.fit hchange fun call hmem => (hkept.calls call hmem).after hchange

theorem closeTab (hkept : Kept s) (hused : id ∈ s.connections.used) : Kept (s.closeTab id) := by
  refine closeSession hkept.fit ?_
  intro call hmem
  rcases List.mem_append.mp hmem with hold | hnew
  · exact (hkept.calls call hold).after (Connections.listChange_closeSession id)
  · obtain rfl := List.mem_singleton.mp hnew
    exact gone_of_closeSession hused

variable {workspaceId newId current : String} {rest sessionIds : List String}

theorem closeWorkspace {first : String} {workspace : TerminalWorkspaceGroup}
    (hkept : Kept s) (hfound : s.panel.workspaceById workspaceId = some workspace)
    (hids : workspace.root.sessionIds = first :: rest) :
    Kept ((s.newCall (.closeWorkspace workspaceId (first :: rest) first rest) .closing).closeSession
      first) := by
  have hchange := Connections.listChange_closeSession (s := s.connections) first
  have hused : ∀ id ∈ first :: rest, id ∈ s.connections.used := by
    intro id hmem
    rw [← hids] at hmem
    exact hkept.fit.used id (hkept.fit.arranged.grouped.opened workspace (mem_of_under hfound) id hmem)
  refine closeSession hkept.fit ?_
  intro call hmem
  rcases List.mem_append.mp hmem with hold | hnew
  · exact (hkept.calls call hold).after hchange
  · obtain rfl := List.mem_singleton.mp hnew
    intro id hid
    refine ⟨hchange.used (hused id hid), ?_⟩
    rcases List.mem_cons.mp hid with rfl | hrest
    · exact .inr (gone_of_closeSession (hused _ hid))
    · exact .inl hrest

theorem setCall (hkept : Kept s) (hclosing : call.task.Closing s.connections) : Kept (s.setCall k call) where
  fit := hkept.fit
  calls other hmem := by
    rcases List.mem_or_eq_of_mem_set hmem with hold | rfl
    · exact hkept.calls other hold
    · exact hclosing

theorem tabClosed {before : List TerminalSession} {wasActive : Bool} (hkept : Kept s)
    (hat : s.calls[k]? = some call) (htask : call.task = .closeTab id before wasActive)
    (hsteady : s.Steady (.closed k newId)) (hclosing : call.task.Closing s.connections) :
    Kept ((s.withPanel (s.panel.tabClosed before id wasActive)).setCall k
      { task := .closeTab id before wasActive, phase := .over }) := by
  rw [htask] at hclosing
  refine setCall (hkept.withPanel (hkept.fit.arranged.tabClosed hclosing.closed ?_)) hclosing
  intro hactive
  simp only [Steady, hat, Option.map_some, htask, hactive] at hsteady
  exact hsteady

theorem workspaceClosed (hkept : Kept s) (hat : s.calls[k]? = some call)
    (htask : call.task = .closeWorkspace workspaceId sessionIds current [])
    (hsteady : s.Steady (.closed k newId)) (hclosing : call.task.Closing s.connections) :
    Kept ((s.withPanel ({ s.panel with
      sessionOrder := s.panel.sessionOrder.remove current }.workspaceClosed s.manager workspaceId
        sessionIds)).setCall k
          { task := .closeWorkspace workspaceId sessionIds current [], phase := .over }) := by
  rw [htask] at hclosing
  have harranged : ({ s.panel with sessionOrder := s.panel.sessionOrder.remove current } :
      TerminalPanelState).Arranged s.manager.ids := hkept.fit.arranged.others _ _ _ _
  refine setCall (hkept.withPanel (harranged.workspaceClosed ?_ ?_)) hclosing
  · intro id hid
    obtain ⟨-, hgone⟩ := hclosing id hid
    exact (hgone.resolve_left List.not_mem_nil).closed
  · simp only [Steady, hat, Option.map_some, htask] at hsteady
    exact hsteady

theorem closeNext {next : String} (hkept : Kept s)
    (hclosing : PanelTask.Closing s.connections
      (.closeWorkspace workspaceId sessionIds current (next :: rest))) :
    Kept (((s.withPanel { s.panel with sessionOrder := s.panel.sessionOrder.remove current }).setCall k
      { task := .closeWorkspace workspaceId sessionIds next rest
        phase := .closing }).closeSession next) := by
  have hchange := Connections.listChange_closeSession (s := s.connections) next
  refine closeSession ⟨hkept.fit.arranged.others _ _ _ _, hkept.fit.used⟩ ?_
  intro other hmem
  rcases List.mem_or_eq_of_mem_set hmem with hold | rfl
  · exact (hkept.calls other hold).after hchange
  · intro id hid
    obtain ⟨hused, hstate⟩ := hclosing id hid
    refine ⟨hchange.used hused, ?_⟩
    rcases hstate with hrest | hgone
    · rcases List.mem_cons.mp hrest with rfl | hrest
      · exact .inr (gone_of_closeSession hused)
      · exact .inl hrest
    · exact .inr (hgone.after hchange)

end Kept

theorem Kept.sessionClosed {newId : String} (hkept : Kept s) (hat : s.calls[k]? = some call)
    (hsteady : s.Steady (.closed k newId)) (hclosed : s.sessionClosed k newId call.task = some (s', o)) :
    Kept s' := by
  have hclosing := hkept.calls call (List.mem_of_getElem? hat)
  cases htask : call.task with
  | closeTab sessionId before wasActive =>
    rw [htask] at hclosed
    cases hclosed
    exact hkept.tabClosed hat htask hsteady hclosing
  | closeWorkspace workspaceId sessionIds current rest =>
    rw [htask] at hclosed
    cases rest with
    | nil =>
      cases hclosed
      exact hkept.workspaceClosed hat htask hsteady hclosing
    | cons next rest =>
      cases hclosed
      rw [htask] at hclosing
      exact hkept.closeNext hclosing
  | connectNew | duplicate | connectWithPassword | reconnect | reconnectWorkspace =>
    rw [htask] at hclosing
    cases hclosing

theorem Kept.step (hkept : Kept s) (harranges : arranges event = true) (hsteady : s.Steady event)
    (htaken : Taken s event s' o) : Kept s' := by
  have harranged := hkept.fit.arranged
  cases htaken with
  | nothing => exact hkept
  | @activateSession event session hevent hsession =>
    rcases hevent with rfl | ⟨profile, id, rfl, -⟩
    · exact hkept.withPanel (harranged.activateSession (List.mem_map_of_mem hsession) hsteady false)
    · cases harranges
  | focusPane hshown hsession =>
    obtain ⟨hmem, rfl⟩ := ConnectionManager.mem_of_sessionById hsession
    exact hkept.withPanel
      (harranged.activateSession (List.mem_map_of_mem hmem) (harranged.soloAt_of_displayed hshown) true)
  | activateWorkspace workspaceId => exact hkept.withPanel (harranged.activateWorkspace hsteady)
  | splitPane htarget =>
    have hlisted := htarget.elim harranged.listed_of_displayed id
    exact hkept.withPanel (harranged.splitPane hlisted hsteady _)
  | moveSessionTab => exact hkept.withPanel (harranged.moveSessionTab hsteady _)
  | removeSplit hshown => exact hkept.withPanel (harranged.removeSplit hshown)
  | ungroupActiveWorkspace => exact hkept.withPanel harranged.ungroupActiveWorkspace
  | toggleSoloPane hshown => exact hkept.withPanel (harranged.toggleSoloPane hshown)
  | toggleBroadcastTyping => exact ⟨⟨harranged.toggleBroadcastTyping, hkept.fit.used⟩, hkept.calls⟩
  | typed => exact hkept
  | resizeSplitBranch =>
    exact hkept.withPanel (harranged.resizeSplitBranch (SplitNode.sessionIds_withAdjustedDivider _ _ _ _))
  | build | directoryChanged | didUpdateWidget => exact hkept.withPanel (harranged.others _ _ _ _)
  | closeTab hused => exact hkept.closeTab hused
  | closeWorkspace hfound hids => exact hkept.closeWorkspace hfound hids
  | closed hat hphase hfresh hclosed => exact hkept.sessionClosed hat hsteady hclosed
  | startRecording id path => exact hkept.startRecording id path
  | profilesChanged => exact ⟨hkept.fit, hkept.calls⟩
  | connection hstep =>
    have hchange := Connections.listChange_of_step hstep
    exact afterManager hkept.fit hchange fun call hmem => (hkept.calls call hmem).after hchange
  | connectNewSession hevent =>
    rcases hevent with rfl | rfl
    · cases harranges
    · cases harranges
  | startReconnect hevent =>
    rcases hevent with rfl | ⟨profile, id, rfl⟩
    · cases harranges
    · cases harranges
  | openNewSession | openSnapshot | duplicateSession | passwordClosing | passwordConnecting
  | startReconnectWorkspace | finish | resized => cases harranges

theorem Kept.consistent (hkept : Kept s) : s.Consistent where
  apart := hkept.fit.arranged.grouped.apart.members
  several := hkept.fit.arranged.grouped.several
  opened id hmem := by
    obtain ⟨workspace, hworkspace, hid⟩ := List.mem_flatMap.mp hmem
    exact hkept.fit.arranged.grouped.opened workspace hworkspace id hid
  active hactive := by
    have hshown := hkept.fit.arranged.shown
    have hsome := hactive.elim hshown.flagged id
    obtain ⟨workspaceId, hid⟩ := Option.isSome_iff_exists.mp hsome
    obtain ⟨workspace, hmem, rfl, hroot⟩ := hshown.active workspaceId hid
    exact ⟨workspace, TerminalPanelState.activeWorkspace_of_mem hkept.fit.arranged.grouped.toSeparate hmem hid, hroot⟩
  session id hid :=
    ⟨(hkept.fit.arranged.session id hid).1, hkept.fit.arranged.displayed_of_session hid⟩

/-- The panel stays consistent while no pane is shown alone beside an active one, and what is closed leaves
an open neighbour. -/
theorem stays_consistent {profiles : List Hop}
    (hreach : Reaches step (fun s event => arranges event = true ∧ s.Steady event)
      (initial Connections.initial profiles) h s) : s.Consistent := by
  have hkept : Kept s := hreach.invariant (I := fun _ s => Kept s) (kept_initial profiles)
    fun hkept ⟨harranges, hsteady⟩ hstep => hkept.step harranges hsteady (taken_of_step hstep)
  exact hkept.consistent

/-- Two sessions are put in a workspace, of which one is then shown alone. -/
theorem stays_consistent_workspace : ∃ h s, Reaches step
      (fun s event => arranges event = true ∧ s.Steady event) (initial Connections.initial []) h s ∧
    s.panel.workspaceSessionIds = ["a", "b"] ∧ s.panel.displayed s.manager = ["b"] ∧ s.Consistent := by
  have hadded : Reaches step (fun s event => arranges event = true ∧ s.Steady event)
      (initial Connections.initial []) _ _ :=
    .next (e := .connection (.connect "b" (plainProfile "q")))
      (.next (e := .connection (.connect "a" (plainProfile "p"))) .start ⟨rfl, trivial⟩ rfl) ⟨rfl, trivial⟩
      rfl
  have hsplit := hadded.next (e := .splitPane "a" "b" .right) ⟨rfl, by
    intro _ solo hsolo
    cases hsolo⟩ rfl
  have halone := hsplit.next (e := .toggleSoloPane "b") (by exact ⟨rfl, trivial⟩) rfl
  refine ⟨_, _, halone, ?_, ?_, stays_consistent halone⟩
  · decide
  · decide

/-- A pane of a workspace is shown alone, and another tab is activated: its pane is not shown. -/
theorem active_not_shown : ¬∀ (profiles : List Hop) h s,
    Reaches step (fun _ event => arranges event = true) (initial Connections.initial profiles) h s →
      s.Consistent := by
  intro hall
  obtain ⟨h, s, hreach, hactive, hnot⟩ :=
    Reaches.exists_of_checkedEvents step (initial Connections.initial [])
      (P := fun s => s.panel.sessionId = some "c" ∧ "c" ∉ s.panel.displayed s.manager)
      (fun _ event => arranges event) (fun _ _ hcheck => hcheck)
      [.connection (.connect "a" (plainProfile "p")), .connection (.connect "b" (plainProfile "q")),
        .connection (.connect "c" (plainProfile "r")), .splitPane "a" "b" .right, .toggleSoloPane "a",
        .activateSession "c"]
      (by decide)
  exact hnot ((hall [] h s hreach).session "c" hactive).2

end TerminalPanel

end Portix.Terminal
