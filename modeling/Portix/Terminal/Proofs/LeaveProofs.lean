import Portix.Terminal.Proofs.ArrangeStepsProofs

/-!
# Sessions leave their panes

The operations that take sessions out of the trees keep the arrangement: a tab moves out, a pane is
removed, a workspace is given up, a session is closed, and the list of sessions changes.
-/

namespace Portix.Terminal

open Lib

open Connection (ConnectionManager TerminalSession Hop Connections ConnectionEvent ConnectionObs)

theorem Grouped.sublist {workspaces workspaces' : List TerminalWorkspaceGroup} {counter : Nat}
    {listed : List String} (hgrouped : Grouped workspaces counter listed)
    (hsub : workspaces'.Sublist workspaces) : Grouped workspaces' counter listed where
  apart := hgrouped.apart.sublist hsub
  counted workspace hmem := hgrouped.counted workspace (hsub.subset hmem)
  several workspace hmem := hgrouped.several workspace (hsub.subset hmem)
  opened workspace hmem := hgrouped.opened workspace (hsub.subset hmem)

namespace TerminalPanelState

variable {p : TerminalPanelState} {m : ConnectionManager} {listed listed' : List String}
  {session : TerminalSession} {workspace : TerminalWorkspaceGroup} {root : SplitNode}
  {id workspaceId : String}

theorem separate_setRoot (hseparate : Separate p.workspaces p.workspaceCounter)
    (hmem : workspace ∈ p.workspaces) (hsub : root.sessionIds.Sublist workspace.root.sessionIds) :
    Separate (p.setRoot workspace.id root).workspaces p.workspaceCounter := by
  apply hseparate.shrink
  intro other hother
  split
  · rename_i hsame
    rw [hseparate.eq_of_id hother hmem hsame]
    exact hsub
  · exact .refl _

theorem mem_setRoot_cases {other : TerminalWorkspaceGroup} (hother : other ∈ (p.setRoot workspaceId root).workspaces) :
    other.root = root ∨ other ∈ p.workspaces := by
  obtain ⟨old, hold, rfl⟩ := List.mem_map.mp hother
  by_cases hsame : old.id = workspaceId
  · exact .inl (if_pos hsame)
  · right
    simp only [if_neg hsame]
    exact hold

theorem mem_setRoot (hmem : workspace ∈ p.workspaces) :
    { workspace with root := root } ∈ (p.setRoot workspace.id root).workspaces := by
  refine List.mem_map.mpr ⟨workspace, hmem, ?_⟩
  exact congrArg (fun root => { workspace with root := root }) (if_pos rfl)

theorem grouped_takeOut (hgrouped : Grouped p.workspaces p.workspaceCounter listed) (id : String) :
    Grouped (p.takeOut id).workspaces (p.takeOut id).workspaceCounter listed := by
  unfold takeOut
  split
  · rename_i workspace hfound
    obtain ⟨hmem, -⟩ := mem_of_workspaceContainingSession hfound
    have hsub := sublist_removeOrKeep id workspace.root
    refine grouped_pruneWorkspaces (separate_setRoot hgrouped.toSeparate hmem hsub) ?_
    intro other hother _
    rcases mem_setRoot_cases hother with hroot | hold
    · rw [hroot]
      exact fun id hid => hgrouped.opened workspace hmem id (hsub.subset hid)
    · exact hgrouped.opened other hold
  · exact hgrouped

theorem soloSessionId_pruneWorkspaces (p : TerminalPanelState) : p.pruneWorkspaces.soloSessionId = p.soloSessionId := by
  obtain ⟨active, flag, heq⟩ := pruneWorkspaces_eq p
  rw [heq]

theorem soloSessionId_takeOut (p : TerminalPanelState) (id : String) :
    (p.takeOut id).soloSessionId = p.soloSessionId := by
  unfold takeOut
  split
  · exact soloSessionId_pruneWorkspaces _
  · rfl

theorem reconnecting_takeOut (p : TerminalPanelState) (id : String) :
    (p.takeOut id).workspaceReconnectInProgress = p.workspaceReconnectInProgress := by
  unfold takeOut
  split
  · exact reconnecting_pruneWorkspaces _
  · rfl

theorem Arranged.moveSessionTab {target : Option String} (harranged : Arranged p m.ids)
    (hsolo : some id ≠ target → p.SoloAt id) (afterTarget : Bool) :
    Arranged (p.moveSessionTab m id target afterTarget) m.ids := by
  unfold TerminalPanelState.moveSessionTab
  split
  · exact harranged
  · rename_i hne
    split
    · rename_i session hsession
      obtain ⟨hmem, rfl⟩ := ConnectionManager.mem_of_sessionById hsession
      refine arranged_tab ((reconnecting_takeOut p session.id).trans harranged.idle)
        (grouped_takeOut harranged.grouped session.id) rfl rfl rfl rfl
        (List.mem_map_of_mem hmem) ?_
      intro solo hsome
      exact hsolo hne solo ((soloSessionId_takeOut p session.id).symm.trans hsome)
    · exact harranged

theorem Arranged.ungroupActiveWorkspace (harranged : Arranged p listed) :
    Arranged (p.ungroupActiveWorkspace m) listed := by
  unfold TerminalPanelState.ungroupActiveWorkspace
  split
  · exact harranged
  · rename_i workspace hactive
    obtain ⟨hmem, -, hroot⟩ := harranged.shown.of_active harranged.grouped.toSeparate hactive
    cases hid : p.sessionId with
    | none =>
      rw [harranged.asleep hid] at hroot
      cases hroot
    | some id =>
      refine arranged_tab (p := p.ungroup m workspace.id (some id)) harranged.idle
        (harranged.grouped.sublist List.filter_sublist) rfl rfl rfl rfl (harranged.session id hid).1 ?_
      intro solo hsolo
      exact ((harranged.solo solo hsolo).2 id hid).symm

theorem Arranged.setActiveRoot (harranged : Arranged p listed) (hactive : p.activeWorkspace = some workspace)
    (hsame : root.sessionIds = workspace.root.sessionIds) :
    Arranged { p.setRoot workspace.id root with splitRoot := some root } listed := by
  obtain ⟨hmem, hid, hroot⟩ := harranged.shown.of_active harranged.grouped.toSeparate hactive
  have hgrouped := harranged.grouped
  have hpanes : p.panes = root.sessionIds := (panes_of_root hroot).trans hsame.symm
  have hsub : root.sessionIds.Sublist workspace.root.sessionIds := hsame ▸ .refl _
  have hseparate := separate_setRoot hgrouped.toSeparate hmem hsub
  refine ⟨harranged.idle, ⟨hseparate, ?_, ?_⟩, ⟨?_, harranged.shown.flagged⟩, ?_, ?_, ?_, harranged.solo⟩
  · intro other hother
    rcases mem_setRoot_cases hother with hnew | hold
    · rw [hnew, hsame]
      exact hgrouped.several workspace hmem
    · exact hgrouped.several other hold
  · intro other hother
    rcases mem_setRoot_cases hother with hnew | hold
    · rw [hnew, hsame]
      exact hgrouped.opened workspace hmem
    · exact hgrouped.opened other hold
  · intro workspaceId hsome
    cases hid.symm.trans hsome
    exact ⟨_, mem_setRoot hmem, rfl, rfl⟩
  · rintro other ⟨⟩
    rw [hsame]
    exact hgrouped.opened workspace hmem
  · intro id hsession
    obtain ⟨hlisted, hpane⟩ := harranged.session id hsession
    refine ⟨hlisted, ?_⟩
    rw [panes_of_root rfl, ← hpanes]
    exact hpane
  · intro hnone
    rw [harranged.asleep hnone] at hroot
    cases hroot

theorem Arranged.resizeSplitBranch {axis : Axis} {ids : List String} {replacement : SplitNode}
    (harranged : Arranged p listed) (hids : replacement.sessionIds = ids) :
    Arranged (p.resizeSplitBranch axis ids replacement) listed := by
  unfold TerminalPanelState.resizeSplitBranch
  split
  · rename_i workspace hactive
    exact harranged.setActiveRoot hactive (SplitNode.sessionIds_replaceBranch hids)
  · rename_i hinactive
    obtain ⟨hactive, hflag⟩ := harranged.shown.of_inactive harranged.grouped.toSeparate hinactive
    refine ⟨harranged.idle, harranged.grouped, .of_none hactive hflag, ?_, ?_, ?_, harranged.solo⟩
    · intro root hroot
      obtain ⟨old, hold, rfl⟩ := Option.map_eq_some_iff.mp hroot
      rw [SplitNode.sessionIds_replaceBranch hids]
      exact harranged.panes old hold
    · intro id hsession
      obtain ⟨hlisted, hpane⟩ := harranged.session id hsession
      refine ⟨hlisted, ?_⟩
      cases hroot : p.splitRoot with
      | none =>
        rw [panes_of_none rfl]
        exact Option.mem_toList.mpr hsession
      | some root =>
        rw [panes_of_root rfl, SplitNode.sessionIds_replaceBranch hids, ← panes_of_root hroot]
        exact hpane
    · intro hnone
      simp [harranged.asleep hnone]

theorem grouped_remove (hgrouped : Grouped p.workspaces p.workspaceCounter listed) (id : String) :
    Grouped (p.removeSessionFromWorkspaces id none).pruneWorkspaces.workspaces
      (p.removeSessionFromWorkspaces id none).pruneWorkspaces.workspaceCounter listed := by
  refine grouped_shrink hgrouped.toSeparate (fun workspace _ => sublist_removeOrKeep id workspace.root) ?_
  intro workspace hmem _ other hother
  exact hgrouped.opened workspace hmem other ((sublist_removeOrKeep id workspace.root).subset hother)

theorem shown_remove (hgrouped : Grouped p.workspaces p.workspaceCounter listed) (hshown : Shown p)
    (order : TerminalSessionOrderController) (id : String) :
    Shown ({ p with
      sessionOrder := order
      splitRoot := p.splitRoot.bind (SplitNode.removeSession id) }.removeSessionFromWorkspaces
        id none).pruneWorkspaces := by
  refine shown_shrink hshown.flagged ?_
  intro workspace hmem htwo hactive
  show p.splitRoot.bind (SplitNode.removeSession id) = some (removeOrKeep id workspace.root)
  rw [hshown.splitRoot_eq hgrouped.toSeparate hmem hactive, Option.bind_some]
  exact removeSession_of_two_le (hgrouped.apart.nodup hmem) htwo

theorem listed_of_remove (harranged : Arranged p listed)
    (hroot : p.splitRoot.bind (SplitNode.removeSession id) = some root) :
    ∀ other ∈ root.sessionIds, other ∈ listed := by
  obtain ⟨old, hold, hleft⟩ := Option.bind_eq_some_iff.mp hroot
  intro other hmem
  rw [SplitNode.sessionIds_of_removeSession hleft] at hmem
  exact harranged.panes old hold other (List.mem_of_mem_filter hmem)

theorem pane_of_remove {q : TerminalPanelState} {other : String}
    (hroot : q.splitRoot = p.splitRoot.bind (SplitNode.removeSession id)) (hid : q.sessionId = p.sessionId)
    (hmem : other ∈ p.panes) (hne : other ≠ id) : other ∈ q.panes := by
  cases hold : p.splitRoot with
  | none =>
    rw [hold, Option.bind_none] at hroot
    rw [panes_of_none hroot, hid, ← panes_of_none hold]
    exact hmem
  | some old =>
    rw [panes_of_root hold] at hmem
    obtain ⟨node, hleft⟩ := SplitNode.exists_removeSession hmem hne
    rw [hold, Option.bind_some, hleft] at hroot
    rw [panes_of_root hroot, SplitNode.sessionIds_of_removeSession hleft, List.mem_filter]
    exact ⟨hmem, decide_eq_true hne⟩

theorem getLast?_of_remove (hroot : p.splitRoot.bind (SplitNode.removeSession id) = some root) :
    root.sessionIds.getLast? ≠ none := by
  obtain ⟨old, -, hleft⟩ := Option.bind_eq_some_iff.mp hroot
  rw [Ne, List.getLast?_eq_none_iff]
  exact SplitNode.sessionIds_ne_nil_of_removeSession hleft

theorem Arranged.replacePane {q : TerminalPanelState} (harranged : Arranged p m.ids)
    (hmem : id ∈ p.displayed m)
    (hidle : q.workspaceReconnectInProgress = false)
    (hgrouped : Grouped q.workspaces q.workspaceCounter m.ids) (hshown : Shown q)
    (hroot : q.splitRoot = p.splitRoot.bind (SplitNode.removeSession id)) (hid : q.sessionId = p.sessionId)
    (hsolo : q.soloSessionId = p.soloSessionId) : Arranged (q.replacePane m id) m.ids := by
  have hpanes : ∀ root, q.splitRoot = some root → ∀ other ∈ root.sessionIds, other ∈ m.ids := by
    intro root hsome
    exact listed_of_remove harranged (hroot ▸ hsome)
  have hlast : ∀ last, q.lastPane = some last → last ∈ m.ids ∧ last ∈ (q.replacePane m id).panes := by
    intro last hsome
    obtain ⟨root, hroot', hlast⟩ := Option.bind_eq_some_iff.mp hsome
    have hin := List.mem_of_getLast? hlast
    refine ⟨hpanes root hroot' last hin, ?_⟩
    rw [panes_of_root (p := q.replacePane m id) hroot']
    exact hin
  refine ⟨hidle, hgrouped, ⟨hshown.active, hshown.flagged⟩, hpanes, ?_, ?_, ?_⟩
  · intro active hactive
    by_cases hgone : q.sessionId = some id
    · exact hlast active ((if_pos hgone).symm.trans hactive)
    · have hkept : p.sessionId = some active := hid.symm.trans ((if_neg hgone).symm.trans hactive)
      obtain ⟨hlisted, hpane⟩ := harranged.session active hkept
      refine ⟨hlisted, pane_of_remove (q := q.replacePane m id) hroot ?_ hpane ?_⟩
      · exact (if_neg hgone).trans hid
      · rintro rfl
        exact hgone (hid.trans hkept)
  · intro hnone
    show q.splitRoot = none
    by_cases hgone : q.sessionId = some id
    · have hempty : q.lastPane = none := (if_pos hgone).symm.trans hnone
      cases hsome : q.splitRoot with
      | none => rfl
      | some root =>
        unfold lastPane at hempty
        rw [hsome] at hempty
        exact absurd hempty (getLast?_of_remove (hroot ▸ hsome))
    · have hkept : p.sessionId = none := hid.symm.trans ((if_neg hgone).symm.trans hnone)
      rw [hroot, harranged.asleep hkept]
      rfl
  · intro solo hsome
    have hgone : p.soloSessionId = some id := by
      rcases harranged.solo_or_pane hmem with halone | ⟨hnone, -⟩
      · exact halone
      · have hnot : q.soloSessionId ≠ some id := by
          rw [hsolo, hnone]
          exact Option.some_ne_none id |>.symm
        have hsame : q.soloSessionId = some solo := (if_neg hnot).symm.trans hsome
        rw [hsolo, hnone] at hsame
        cases hsame
    have hsolo' : q.lastPane = some solo := (if_pos (hsolo.trans hgone)).symm.trans hsome
    refine ⟨(hlast solo hsolo').1, ?_⟩
    intro active hactive
    by_cases hsession : q.sessionId = some id
    · have hsame : q.lastPane = some active := (if_pos hsession).symm.trans hactive
      exact Option.some.inj (hsame.symm.trans hsolo')
    · have hkept : p.sessionId = some active := hid.symm.trans ((if_neg hsession).symm.trans hactive)
      obtain rfl := (harranged.solo id hgone).2 active hkept
      exact absurd (hid.trans hkept) hsession

theorem showActiveWorkspace_eq (hseparate : Separate p.workspaces p.workspaceCounter) (hshown : Shown p) :
    p.showActiveWorkspace = p := by
  unfold showActiveWorkspace
  split
  · rename_i workspace hactive
    obtain ⟨-, -, hroot⟩ := hshown.of_active hseparate hactive
    rw [← hroot]
  · rfl

theorem Arranged.removeSplit (harranged : Arranged p m.ids) (hmem : id ∈ p.displayed m) :
    Arranged (p.removeSplit m id) m.ids := by
  unfold TerminalPanelState.removeSplit
  split
  · exact harranged
  · have hgrouped : Grouped _ _ m.ids := grouped_remove (p := { p with
      splitRoot := p.splitRoot.bind (SplitNode.removeSession id) }) harranged.grouped id
    have hshown := shown_remove harranged.grouped harranged.shown p.sessionOrder id
    unfold removePane
    rw [showActiveWorkspace_eq hgrouped.toSeparate hshown]
    obtain ⟨active, flag, heq⟩ := pruneWorkspaces_eq ({ p with
      splitRoot := p.splitRoot.bind (SplitNode.removeSession id) }.removeSessionFromWorkspaces id none)
    refine harranged.replacePane hmem ?_ hgrouped hshown ?_ ?_ ?_
    · rw [heq]
      exact harranged.idle
    · rw [heq]
      rfl
    · rw [heq]
      rfl
    · rw [heq]
      rfl

theorem Arranged.dropSession (harranged : Arranged p listed) (hclosed : id ∉ listed) :
    Arranged (p.dropSession id) listed := by
  have hgrouped : Grouped _ _ listed := grouped_remove (p := { p with
    sessionOrder := p.sessionOrder.remove id
    splitRoot := p.splitRoot.bind (SplitNode.removeSession id) }) harranged.grouped id
  have hshown := shown_remove harranged.grouped harranged.shown (p.sessionOrder.remove id) id
  unfold TerminalPanelState.dropSession
  obtain ⟨active, flag, heq⟩ := pruneWorkspaces_eq ({ p with
    sessionOrder := p.sessionOrder.remove id
    splitRoot := p.splitRoot.bind (SplitNode.removeSession id) }.removeSessionFromWorkspaces id none)
  rw [heq] at hgrouped hshown ⊢
  refine ⟨harranged.idle, hgrouped, hshown, fun root hroot => listed_of_remove harranged hroot, ?_, ?_, harranged.solo⟩
  · intro other hother
    obtain ⟨hlisted, hpane⟩ := harranged.session other hother
    refine ⟨hlisted, pane_of_remove rfl rfl hpane ?_⟩
    rintro rfl
    exact hclosed hlisted
  · intro hnone
    show p.splitRoot.bind _ = none
    rw [harranged.asleep hnone]
    rfl

theorem arranged_empty (hidle : p.workspaceReconnectInProgress = false) (hworkspaces : p.workspaces = [])
    (hactive : p.activeWorkspaceId = none) (hflag : p.workspaceActive = false) (hroot : p.splitRoot = none)
    (hid : p.sessionId = none)
    (hsolo : ∀ solo, p.soloSessionId = some solo → solo ∈ listed) : Arranged p listed where
  idle := hidle
  grouped := by
    rw [hworkspaces]
    exact ⟨⟨.nil, by simp⟩, by simp, by simp⟩
  shown := .of_none hactive hflag
  panes root hsome := by
    rw [hroot] at hsome
    cases hsome
  session id hsome := by
    rw [hid] at hsome
    cases hsome
  asleep _ := hroot
  solo solo hsome := by
    refine ⟨hsolo solo hsome, ?_⟩
    intro id hsession
    rw [hid] at hsession
    cases hsession

theorem soloSessionId_dropSession (p : TerminalPanelState) (id : String) :
    (p.dropSession id).soloSessionId = p.soloSessionId := soloSessionId_pruneWorkspaces _

theorem Arranged.tabClosed {before : List TerminalSession} {wasActive : Bool} (harranged : Arranged p listed)
    (hclosed : id ∉ listed)
    (hneighbour : wasActive = true → ∀ session, neighbour before id = some session →
      session.id ∈ listed ∧ p.SoloAt session.id) : Arranged (p.tabClosed before id wasActive) listed := by
  have hdropped := harranged.dropSession hclosed
  unfold TerminalPanelState.tabClosed
  split
  · exact arranged_empty hdropped.idle rfl rfl rfl rfl rfl fun solo hsolo => (hdropped.solo solo hsolo).1
  · rename_i session hfound
    split
    · rename_i hactive
      obtain ⟨hlisted, hsolo⟩ := hneighbour hactive session hfound
      refine hdropped.activateSession hlisted ?_ false
      intro solo hsome
      exact hsolo solo ((soloSessionId_dropSession p id).symm.trans hsome)
    · exact hdropped

theorem Shown.of_nil (hshown : Shown p) (hgrouped : Grouped p.workspaces p.workspaceCounter []) :
    p.workspaces = [] ∧ p.activeWorkspaceId = none ∧ p.workspaceActive = false := by
  have hnone : ∀ workspace, workspace ∉ p.workspaces := by
    intro workspace hmem
    have hseveral := hgrouped.several workspace hmem
    obtain ⟨id, hid⟩ := List.exists_mem_of_length_pos (l := workspace.root.sessionIds) (by omega)
    exact List.not_mem_nil (hgrouped.opened workspace hmem id hid)
  refine ⟨List.eq_nil_iff_forall_not_mem.mpr hnone, hshown.of_inactive hgrouped.toSeparate ?_⟩
  cases hactive : p.activeWorkspace with
  | none => rfl
  | some workspace => exact absurd (hshown.of_active hgrouped.toSeparate hactive).1 (hnone workspace)

theorem Arranged.noneLeft (harranged : Arranged p []) (workspaceId : String) (sessionIds : List String) :
    Arranged (p.removeWorkspace workspaceId sessionIds).noneLeft listed := by
  obtain ⟨hworkspaces, hid, hflag⟩ := harranged.shown.of_nil harranged.grouped
  have hroot : p.splitRoot = none := by
    apply harranged.asleep
    cases hsession : p.sessionId with
    | none => rfl
    | some id => exact absurd (harranged.session id hsession).1 List.not_mem_nil
  apply arranged_empty
  · exact harranged.idle
  · simp [TerminalPanelState.noneLeft, removeWorkspace, hworkspaces]
  · simp [TerminalPanelState.noneLeft, removeWorkspace, hid]
  · simp [TerminalPanelState.noneLeft, removeWorkspace, hflag]
  · simp [TerminalPanelState.noneLeft, removeWorkspace, hroot]
  · rfl
  · intro solo hsome
    obtain ⟨hkept, -⟩ := Option.filter_eq_some_iff.mp hsome
    exact absurd (harranged.solo solo hkept).1 List.not_mem_nil

theorem Arranged.workspaceClosed {sessionIds : List String} (harranged : Arranged p m.ids)
    (hclosed : ∀ id ∈ sessionIds, id ∉ m.ids)
    (hlast : ∀ last, (m.sessions.filter fun session => session.id ∉ sessionIds).getLast? = some last →
      (∀ active, p.activeWorkspaceId = some active → active = workspaceId) ∧
        ∀ solo, p.soloSessionId = some solo → solo ∈ sessionIds ∨ solo = last.id) :
    Arranged (p.workspaceClosed m workspaceId sessionIds) m.ids := by
  unfold TerminalPanelState.workspaceClosed
  split
  · rename_i hnone
    have hempty : m.ids = [] := by
      apply List.eq_nil_iff_forall_not_mem.mpr
      intro id hmem
      obtain ⟨session, hsession, rfl⟩ := List.mem_map.mp hmem
      have hin := List.filter_eq_nil_iff.mp (List.getLast?_eq_none_iff.mp hnone) session hsession
      simp only [decide_not, Bool.not_eq_true, Bool.not_eq_false', decide_eq_true_eq] at hin
      exact hclosed session.id hin hmem
    rw [hempty] at harranged
    exact harranged.noneLeft workspaceId sessionIds
  · rename_i last hsome
    obtain ⟨hactive, hsolo⟩ := hlast last hsome
    have hlisted : last.id ∈ m.ids :=
      List.mem_map_of_mem (List.mem_of_mem_filter (List.mem_of_getLast? hsome))
    have hnone : p.activeWorkspaceId.filter (fun id => id ≠ workspaceId) = none := by
      apply Option.filter_eq_none_iff.mpr
      intro active hmem
      simp [hactive active hmem]
    have hflag : (if p.activeWorkspaceId = some workspaceId then false else p.workspaceActive) = false := by
      split
      · rfl
      · rename_i hother
        cases hshown : p.workspaceActive with
        | false => rfl
        | true =>
          obtain ⟨active, hmem⟩ := Option.isSome_iff_exists.mp (harranged.shown.flagged hshown)
          exact absurd (hactive active hmem ▸ hmem) hother
    refine arranged_tab (p := { p.removeWorkspace workspaceId sessionIds with
      sessionId := some last.id
      connectedProfileId := some last.profileId
      splitRoot := some (.leaf last.id) }) harranged.idle
        (harranged.grouped.sublist List.filter_sublist) hnone hflag rfl rfl hlisted ?_
    intro solo hsome
    obtain ⟨hkept, hnot⟩ := Option.filter_eq_some_iff.mp hsome
    exact (hsolo solo hkept).resolve_left (of_decide_eq_true hnot)

theorem syncRoot_of_two_le (hnodup : root.sessionIds.Nodup) (htwo : 2 ≤ (syncWorkspaceRoot m root).sessionIds.length) :
    syncRoot m root = some (syncWorkspaceRoot m root) := by
  obtain ⟨id, hmem, hlisted⟩ := exists_listed_of_two_le hnodup htwo
  exact syncRoot_of_listed hmem hlisted

theorem mem_ids_of_syncRoot {node : SplitNode} (hleft : syncRoot m root = some node) :
    node.sessionIds = root.sessionIds.filter fun id => id ∈ m.ids := by
  rw [← idsOf_syncRoot, hleft]
  rfl

theorem grouped_sync (hgrouped : Grouped p.workspaces p.workspaceCounter listed) (m : ConnectionManager) :
    Grouped (p.syncSplitTreeWithSessions m).workspaces (p.syncSplitTreeWithSessions m).workspaceCounter m.ids := by
  refine grouped_shrink (p := { p with
    splitRoot := p.splitRoot.bind (syncRoot m)
    soloSessionId := p.soloSessionId.filter fun id => id ∈ m.ids }) hgrouped.toSeparate
    (fun workspace _ => sublist_syncWorkspaceRoot m workspace.root) ?_
  intro workspace hmem htwo id hin
  have hleft := syncRoot_of_two_le (hgrouped.apart.nodup hmem) htwo
  rw [mem_ids_of_syncRoot hleft, List.mem_filter] at hin
  exact of_decide_eq_true hin.2

theorem shown_sync (hgrouped : Grouped p.workspaces p.workspaceCounter listed) (hshown : Shown p)
    (m : ConnectionManager) : Shown (p.syncSplitTreeWithSessions m) := by
  refine shown_shrink hshown.flagged ?_
  intro workspace hmem htwo hactive
  show p.splitRoot.bind (syncRoot m) = some (syncWorkspaceRoot m workspace.root)
  rw [hshown.splitRoot_eq hgrouped.toSeparate hmem hactive, Option.bind_some]
  exact syncRoot_of_two_le (hgrouped.apart.nodup hmem) htwo

theorem sync_eq (p : TerminalPanelState) (m : ConnectionManager) :
    (p.syncSplitTreeWithSessions m).splitRoot = p.splitRoot.bind (syncRoot m) ∧
      (p.syncSplitTreeWithSessions m).soloSessionId = p.soloSessionId.filter (fun id => id ∈ m.ids) ∧
      (p.syncSplitTreeWithSessions m).sessionId = p.sessionId ∧
      (p.syncSplitTreeWithSessions m).workspaceReconnectInProgress = p.workspaceReconnectInProgress := by
  unfold syncSplitTreeWithSessions
  obtain ⟨active, flag, heq⟩ := pruneWorkspaces_eq ({ p with
    splitRoot := p.splitRoot.bind (syncRoot m)
    soloSessionId := p.soloSessionId.filter fun id => id ∈ m.ids }.mapRoots fun workspace =>
      syncWorkspaceRoot m workspace.root)
  rw [heq]
  exact ⟨rfl, rfl, rfl, rfl⟩

theorem Arranged.sync (harranged : Arranged p listed) (hstays : ∀ id, p.sessionId = some id → id ∈ m.ids) :
    Arranged (p.syncSplitTreeWithSessions m) m.ids := by
  obtain ⟨hroot, hsolo, hid, hidle⟩ := sync_eq p m
  refine ⟨hidle.trans harranged.idle, grouped_sync harranged.grouped m,
    shown_sync harranged.grouped harranged.shown m, ?_, ?_, ?_, ?_⟩
  · intro root hsome id hmem
    rw [hroot] at hsome
    obtain ⟨old, -, hleft⟩ := Option.bind_eq_some_iff.mp hsome
    rw [mem_ids_of_syncRoot hleft, List.mem_filter] at hmem
    exact of_decide_eq_true hmem.2
  · intro id hsome
    rw [hid] at hsome
    have hlisted := hstays id hsome
    refine ⟨hlisted, ?_⟩
    cases hold : p.splitRoot with
    | none =>
      rw [panes_of_none (by rw [hroot, hold]; rfl), hid, hsome]
      exact List.mem_cons_self
    | some old =>
      have hmem := (harranged.session id hsome).2
      rw [panes_of_root hold] at hmem
      have hleft := syncRoot_of_listed hmem hlisted
      rw [hold, Option.bind_some, hleft] at hroot
      rw [panes_of_root hroot, sessionIds_syncWorkspaceRoot_of_listed hmem hlisted, List.mem_filter]
      exact ⟨hmem, decide_eq_true hlisted⟩
  · intro hnone
    rw [hid] at hnone
    rw [hroot, harranged.asleep hnone]
    rfl
  · intro solo hsome
    rw [hsolo] at hsome
    obtain ⟨hkept, hlisted⟩ := Option.filter_eq_some_iff.mp hsome
    refine ⟨of_decide_eq_true hlisted, ?_⟩
    intro id hsession
    rw [hid] at hsession
    exact (harranged.solo solo hkept).2 id hsession

theorem ne_nil_foldl {ids : List String} {start : Option SplitNode} {node : SplitNode}
    (hne : ∀ root, start = some root → root.sessionIds ≠ [])
    (hleft : ids.foldl (fun root id => if id ∈ m.ids then root
      else root.bind (SplitNode.removeSession id)) start = some node) : node.sessionIds ≠ [] := by
  induction ids generalizing start with
  | nil => exact hne node hleft
  | cons id ids ih =>
    rw [List.foldl_cons] at hleft
    refine ih ?_ hleft
    intro root hsome
    split at hsome
    · exact hne root hsome
    · obtain ⟨old, -, hremoved⟩ := Option.bind_eq_some_iff.mp hsome
      exact SplitNode.sessionIds_ne_nil_of_removeSession hremoved

theorem syncRoot_eq_none (hmem : id ∈ root.sessionIds) (hclosed : m.ids = []) : syncRoot m root = none := by
  cases hleft : syncRoot m root with
  | none => rfl
  | some node =>
    have hne : node.sessionIds ≠ [] := by
      refine ne_nil_foldl ?_ hleft
      rintro old ⟨⟩
      exact List.ne_nil_of_mem hmem
    rw [mem_ids_of_syncRoot hleft, hclosed] at hne
    exact absurd (List.filter_eq_nil_iff.mpr fun _ _ => by simp) hne

theorem Arranged.sync_solo (harranged : Arranged p listed) (hid : p.sessionId = some id)
    (hclosed : id ∉ m.ids) : (p.syncSplitTreeWithSessions m).soloSessionId = none := by
  obtain ⟨-, hsolo, -, -⟩ := sync_eq p m
  rw [hsolo, Option.filter_eq_none_iff]
  intro solo hsome hlisted
  obtain rfl := (harranged.solo solo hsome).2 id hid
  exact hclosed (of_decide_eq_true hlisted)

theorem Arranged.handleConnectionManagerChanged (harranged : Arranged p listed) (m : ConnectionManager) :
    Arranged (p.handleConnectionManagerChanged m) m.ids := by
  have hidle : (p.syncSplitTreeWithSessions m).workspaceReconnectInProgress = false :=
    (sync_eq p m).2.2.2.trans harranged.idle
  unfold TerminalPanelState.handleConnectionManagerChanged
  rw [if_neg (by rw [harranged.idle]; exact Bool.false_ne_true)]
  have hgrouped := grouped_sync harranged.grouped m
  have hshown := shown_sync harranged.grouped harranged.shown m
  split
  · rename_i hstays
    apply harranged.sync
    intro id hid
    rw [hid] at hstays
    exact of_decide_eq_true hstays
  · rename_i hgone
    obtain ⟨id, hid, hclosed⟩ : ∃ id, p.sessionId = some id ∧ id ∉ m.ids := by
      cases hid : p.sessionId with
      | none =>
        rw [hid] at hgone
        exact absurd rfl hgone
      | some id =>
        rw [hid] at hgone
        exact ⟨id, rfl, fun hlisted => hgone (decide_eq_true hlisted)⟩
    have hsolo := harranged.sync_solo hid hclosed
    split
    · rename_i session hlast
      refine arranged_showTab hidle hgrouped (List.mem_map_of_mem (List.mem_of_getLast? hlast)) ?_
      intro solo hsome
      rw [hsolo] at hsome
      cases hsome
    · rename_i hnone
      have hempty : m.ids = [] := by
        unfold ConnectionManager.ids
        rw [List.getLast?_eq_none_iff.mp hnone]
        rfl
      have hroot : (p.syncSplitTreeWithSessions m).splitRoot = none := by
        obtain ⟨heq, -⟩ := sync_eq p m
        rw [heq, Option.bind_eq_none_iff]
        intro root hsome
        have hmem := (harranged.session id hid).2
        rw [panes_of_root hsome] at hmem
        exact syncRoot_eq_none hmem hempty
      rw [hempty] at hgrouped ⊢
      obtain ⟨hworkspaces, hactive, hflag⟩ := hshown.of_nil hgrouped
      have hnobody : ∀ solo, (p.syncSplitTreeWithSessions m).soloSessionId = some solo → solo ∈ [] := by
        intro solo hsome
        rw [hsolo] at hsome
        cases hsome
      split
      · exact arranged_empty hidle hworkspaces hactive hflag rfl rfl hnobody
      · exact arranged_empty hidle hworkspaces hactive hflag hroot rfl hnobody

end TerminalPanelState

end Portix.Terminal
