import Portix.Terminal.Proofs.ArrangementProofs

/-!
# The operations keep the arrangement

Each operation on the tabs and the panes keeps the panel `Arranged`. Those that take sessions out of
their trees (`removeSplit`, a closed tab, a change of the list) first shrink every tree and then give up
the workspaces that are left with one pane (`grouped_shrink`, `shown_shrink`).
-/

namespace Portix.Terminal

open Lib

open Connection (ConnectionManager TerminalSession Hop Connections ConnectionEvent ConnectionObs)

namespace TerminalPanelState

variable {p : TerminalPanelState} {m : ConnectionManager} {listed listed' : List String}
  {session : TerminalSession} {workspace : TerminalWorkspaceGroup} {root : SplitNode}
  {id target dragged workspaceId : String}

theorem arranged_of_session (hidle : p.workspaceReconnectInProgress = false)
    (hgrouped : Grouped p.workspaces p.workspaceCounter listed) (hshown : Shown p)
    (hpanes : ∀ root, p.splitRoot = some root → ∀ id ∈ root.sessionIds, id ∈ listed)
    (hid : p.sessionId = some id) (hlisted : id ∈ listed) (hmem : id ∈ p.panes) (hsolo : p.SoloAt id) :
    Arranged p listed where
  idle := hidle
  grouped := hgrouped
  shown := hshown
  panes := hpanes
  session other hother := by
    cases hid.symm.trans hother
    exact ⟨hlisted, hmem⟩
  asleep hnone := by
    rw [hid] at hnone
    cases hnone
  solo solo hsome := by
    obtain rfl := hsolo solo hsome
    refine ⟨hlisted, ?_⟩
    intro other hother
    exact (Option.some.inj (hid.symm.trans hother)).symm

theorem panes_of_root (hroot : p.splitRoot = some root) : p.panes = root.sessionIds := by
  unfold panes
  rw [hroot]

theorem panes_of_none (hroot : p.splitRoot = none) : p.panes = p.sessionId.toList := by
  unfold panes
  rw [hroot]

theorem arranged_tab (hidle : p.workspaceReconnectInProgress = false)
    (hgrouped : Grouped p.workspaces p.workspaceCounter listed) (hactive : p.activeWorkspaceId = none)
    (hflag : p.workspaceActive = false) (hroot : p.splitRoot = some (.leaf id))
    (hid : p.sessionId = some id) (hlisted : id ∈ listed) (hsolo : p.SoloAt id) : Arranged p listed := by
  refine arranged_of_session hidle hgrouped (.of_none hactive hflag) ?_ hid hlisted ?_ hsolo
  · intro root hsome other hmem
    cases hroot.symm.trans hsome
    obtain rfl := List.mem_singleton.mp hmem
    exact hlisted
  · rw [panes_of_root hroot]
    exact List.mem_cons_self

theorem arranged_workspace (hidle : p.workspaceReconnectInProgress = false)
    (hgrouped : Grouped p.workspaces p.workspaceCounter listed) (hmem : workspace ∈ p.workspaces)
    (hactive : p.activeWorkspaceId = some workspace.id)
    (hroot : p.splitRoot = some workspace.root) (hid : p.sessionId = some id)
    (hin : id ∈ workspace.root.sessionIds) (hsolo : p.SoloAt id) : Arranged p listed := by
  have hopened := hgrouped.opened workspace hmem
  refine arranged_of_session hidle hgrouped ⟨?_, ?_⟩ ?_ hid (hopened id hin) ?_ hsolo
  · intro workspaceId hsome
    cases hactive.symm.trans hsome
    exact ⟨workspace, hmem, rfl, hroot⟩
  · intro _
    rw [hactive]
    rfl
  · intro root hsome
    cases hroot.symm.trans hsome
    exact hopened
  · rw [panes_of_root hroot]
    exact hin

namespace Arranged

theorem listed_of_panes (harranged : Arranged p listed) (hmem : id ∈ p.panes) : id ∈ listed := by
  cases hroot : p.splitRoot with
  | some root =>
    rw [panes_of_root hroot] at hmem
    exact harranged.panes root hroot id hmem
  | none =>
    rw [panes_of_none hroot, Option.mem_toList] at hmem
    exact (harranged.session id hmem).1

theorem soloShown_eq (harranged : Arranged p m.ids) : p.soloShown m = p.soloSessionId := by
  unfold soloShown
  cases hsolo : p.soloSessionId with
  | none => rfl
  | some solo =>
    obtain ⟨hlisted, -⟩ := harranged.solo solo hsolo
    apply Option.filter_eq_some_iff.mpr
    refine ⟨rfl, ?_⟩
    cases hsession : m.sessionById solo with
    | none => exact absurd hlisted (ConnectionManager.sessionById_eq_none.mp hsession)
    | some session => rfl

theorem soloAt_of_displayed (harranged : Arranged p m.ids) (hmem : id ∈ p.displayed m) : p.SoloAt id := by
  intro solo hsolo
  unfold displayed at hmem
  rw [harranged.soloShown_eq, hsolo] at hmem
  exact (List.mem_singleton.mp hmem).symm

theorem solo_or_pane (harranged : Arranged p m.ids) (hmem : id ∈ p.displayed m) :
    p.soloSessionId = some id ∨ p.soloSessionId = none ∧ id ∈ p.panes := by
  unfold displayed at hmem
  rw [harranged.soloShown_eq] at hmem
  cases hsolo : p.soloSessionId with
  | some solo =>
    rw [hsolo] at hmem
    obtain rfl := List.mem_singleton.mp hmem
    exact .inl rfl
  | none =>
    rw [hsolo] at hmem
    exact .inr ⟨rfl, hmem⟩

theorem listed_of_displayed (harranged : Arranged p m.ids) (hmem : id ∈ p.displayed m) : id ∈ m.ids := by
  rcases harranged.solo_or_pane hmem with hsolo | ⟨-, hpane⟩
  · exact (harranged.solo id hsolo).1
  · exact harranged.listed_of_panes hpane

theorem displayed_of_session (harranged : Arranged p m.ids) (hid : p.sessionId = some id) : id ∈ p.displayed m := by
  unfold displayed
  rw [harranged.soloShown_eq]
  cases hsolo : p.soloSessionId with
  | some solo => exact List.mem_singleton.mpr ((harranged.solo solo hsolo).2 id hid)
  | none => exact (harranged.session id hid).2

end Arranged

theorem activeWorkspace_of_mem (hseparate : Separate p.workspaces p.workspaceCounter)
    (hmem : workspace ∈ p.workspaces) (hactive : p.activeWorkspaceId = some workspace.id) :
    p.activeWorkspace = some workspace := by
  unfold activeWorkspace workspaceById
  rw [hactive, Option.bind_some]
  exact under_of_mem hseparate.apart.keys hmem

theorem Shown.of_active (hshown : Shown p) (hseparate : Separate p.workspaces p.workspaceCounter)
    (hactive : p.activeWorkspace = some workspace) : workspace ∈ p.workspaces ∧
      p.activeWorkspaceId = some workspace.id ∧ p.splitRoot = some workspace.root := by
  obtain ⟨workspaceId, hsome, hfound⟩ := Option.bind_eq_some_iff.mp hactive
  have hmem : workspace ∈ p.workspaces := mem_of_under hfound
  obtain rfl : workspace.id = workspaceId := key_of_under hfound
  exact ⟨hmem, hsome, hshown.splitRoot_eq hseparate hmem hsome⟩

theorem Shown.of_inactive (hshown : Shown p) (hseparate : Separate p.workspaces p.workspaceCounter)
    (hinactive : p.activeWorkspace = none) : p.activeWorkspaceId = none ∧ p.workspaceActive = false := by
  have hnone : p.activeWorkspaceId = none := by
    cases hactive : p.activeWorkspaceId with
    | none => rfl
    | some workspaceId =>
      obtain ⟨workspace, hmem, rfl, -⟩ := hshown.active workspaceId hactive
      rw [activeWorkspace_of_mem hseparate hmem hactive] at hinactive
      cases hinactive
  refine ⟨hnone, ?_⟩
  cases hflag : p.workspaceActive with
  | false => rfl
  | true =>
    have hsome := hshown.flagged hflag
    rw [hnone] at hsome
    cases hsome

theorem mem_of_workspaceContainingSession (hfound : p.workspaceContainingSession id = some workspace) :
    workspace ∈ p.workspaces ∧ id ∈ workspace.root.sessionIds :=
  ⟨List.mem_of_find?_eq_some hfound, of_decide_eq_true (List.find?_some (p := fun workspace : TerminalWorkspaceGroup =>
      decide (id ∈ workspace.root.sessionIds)) hfound)⟩

namespace Arranged

theorem activateSession (harranged : Arranged p listed) (hlisted : session.id ∈ listed)
    (hsolo : p.SoloAt session.id) (keep : Bool) : Arranged (p.activateSession session keep) listed := by
  unfold TerminalPanelState.activateSession
  split
  · rename_i workspace hkept
    have hfound : p.workspaceContainingSession session.id = some workspace := by
      cases keep with
      | true => exact hkept
      | false => cases hkept
    obtain ⟨hmem, hin⟩ := mem_of_workspaceContainingSession hfound
    exact arranged_workspace harranged.idle harranged.grouped hmem rfl rfl rfl hin hsolo
  · exact arranged_showTab harranged.idle harranged.grouped hlisted hsolo

theorem exists_sessionIn (harranged : Arranged p listed) (hmem : workspace ∈ p.workspaces) :
    ∃ id ∈ workspace.root.sessionIds, p.sessionIn workspace.root = some id := by
  unfold sessionIn
  split
  · rename_i hany
    obtain ⟨id, hid, hin⟩ := (Option.any_eq_true _ _).mp hany
    exact ⟨id, of_decide_eq_true hin, hid⟩
  · have hseveral := harranged.grouped.several workspace hmem
    cases hlast : workspace.root.sessionIds.getLast? with
    | some id => exact ⟨id, List.mem_of_getLast? hlast, rfl⟩
    | none =>
      rw [List.getLast?_eq_none_iff] at hlast
      rw [hlast] at hseveral
      exact absurd hseveral (by decide)

theorem activateWorkspace (harranged : Arranged p listed)
    (hsolo : ∀ workspace id, p.workspaceById workspaceId = some workspace →
      p.sessionIn workspace.root = some id → p.SoloAt id) :
    Arranged (p.activateWorkspace m workspaceId) listed := by
  unfold TerminalPanelState.activateWorkspace
  split
  · rename_i workspace hfound
    have hmem : workspace ∈ p.workspaces := mem_of_under hfound
    obtain ⟨id, hin, hid⟩ := harranged.exists_sessionIn hmem
    exact arranged_workspace harranged.idle harranged.grouped hmem rfl rfl hid hin
      (hsolo workspace id hfound hid)
  · exact harranged

theorem toggleSoloPane (harranged : Arranged p m.ids) (hmem : id ∈ p.displayed m) :
    Arranged (p.toggleSoloPane m id) m.ids := by
  have hlisted := harranged.listed_of_displayed hmem
  have hpane : p.splitRoot = none ∨ id ∈ p.panes := by
    rcases harranged.solo_or_pane hmem with hsolo | ⟨-, hpane⟩
    · cases hid : p.sessionId with
      | none => exact .inl (harranged.asleep hid)
      | some active =>
        obtain rfl := (harranged.solo id hsolo).2 active hid
        exact .inr (harranged.session active hid).2
    · exact .inr hpane
  refine arranged_of_session harranged.idle harranged.grouped
    ⟨harranged.shown.active, harranged.shown.flagged⟩ harranged.panes rfl hlisted ?_ ?_
  · cases hroot : p.splitRoot with
    | none =>
      rw [panes_of_none (by exact hroot)]
      exact List.mem_cons_self
    | some root =>
      rw [panes_of_root (by exact hroot), ← panes_of_root hroot]
      rw [hroot] at hpane
      exact hpane.resolve_left (Option.some_ne_none root)
  · intro solo hsolo
    by_cases hshown : p.soloSessionId ≠ some id
    · have hsome : (some id : Option String) = some solo := (if_pos hshown).symm.trans hsolo
      exact (Option.some.inj hsome).symm
    · have hnone : (none : Option String) = some solo := (if_neg hshown).symm.trans hsolo
      cases hnone

end Arranged

theorem grouped_shrink {f : TerminalWorkspaceGroup → SplitNode} (hseparate : Separate p.workspaces p.workspaceCounter)
    (hsub : ∀ workspace ∈ p.workspaces, (f workspace).sessionIds.Sublist workspace.root.sessionIds)
    (hopened : ∀ workspace ∈ p.workspaces, 2 ≤ (f workspace).sessionIds.length →
      ∀ id ∈ (f workspace).sessionIds, id ∈ listed) :
    Grouped (p.mapRoots f).pruneWorkspaces.workspaces (p.mapRoots f).pruneWorkspaces.workspaceCounter listed := by
  refine grouped_pruneWorkspaces (hseparate.shrink hsub) ?_
  intro workspace hmem
  obtain ⟨old, hold, rfl⟩ := List.mem_map.mp hmem
  exact hopened old hold

theorem shown_shrink {f : TerminalWorkspaceGroup → SplitNode}
    (hflag : p.workspaceActive = true → p.activeWorkspaceId.isSome = true)
    (hroot : ∀ workspace ∈ p.workspaces, 2 ≤ (f workspace).sessionIds.length →
      p.activeWorkspaceId = some workspace.id → p.splitRoot = some (f workspace)) :
    Shown (p.mapRoots f).pruneWorkspaces := by
  refine shown_pruneWorkspaces hflag ?_
  intro workspace hmem
  obtain ⟨old, hold, rfl⟩ := List.mem_map.mp hmem
  exact hroot old hold

theorem sessionIds_removeOrKeep (hnodup : root.sessionIds.Nodup) (hseveral : 2 ≤ root.sessionIds.length) :
    (removeOrKeep id root).sessionIds = root.sessionIds.filter fun other => other ≠ id := by
  by_cases hother : ∃ other ∈ root.sessionIds, other ≠ id
  · obtain ⟨other, hmem, hne⟩ := hother
    exact sessionIds_removeOrKeep_of_mem hmem hne
  · have hall : ∀ other ∈ root.sessionIds, other = id := by
      intro other hmem
      by_contra hne
      exact hother ⟨other, hmem, hne⟩
    have hone := length_le_one_of_all_eq hnodup hall
    omega

theorem notMem_removeOrKeep (hgrouped : Grouped p.workspaces p.workspaceCounter listed)
    (hmem : workspace ∈ p.workspaces) : id ∉ (removeOrKeep id workspace.root).sessionIds := by
  rw [sessionIds_removeOrKeep (hgrouped.apart.nodup hmem) (hgrouped.several workspace hmem), List.mem_filter]
  rintro ⟨-, hne⟩
  exact of_decide_eq_true hne rfl

theorem workspaces_splitInto (direction : SplitDirection) :
    (p.splitInto workspace target dragged direction).workspaces = p.workspaces.map fun other => { other with
        root := if other.id = workspace.id then splitRootWith workspace.root target dragged direction
          else removeOrKeep dragged other.root } := by
  show List.map _ (List.map _ p.workspaces) = _
  rw [List.map_map]
  apply List.map_congr_left
  intro other _
  by_cases hsame : other.id = workspace.id
  · simp [hsame]
  · simp [hsame]

theorem separate_splitInto (hgrouped : Grouped p.workspaces p.workspaceCounter listed)
    (hmem : workspace ∈ p.workspaces) (htarget : target ∈ workspace.root.sessionIds) (hne : target ≠ dragged)
    (direction : SplitDirection) :
    Separate (p.splitInto workspace target dragged direction).workspaces p.workspaceCounter := by
  have hshrunk := hgrouped.toSeparate.shrink (f := fun workspace => removeOrKeep dragged workspace.root)
    fun workspace _ => sublist_removeOrKeep dragged workspace.root
  have hfresh : ∀ other ∈ p.workspaces.map fun workspace =>
      { workspace with root := removeOrKeep dragged workspace.root }, dragged ∉ other.root.sessionIds := by
    intro other hother
    obtain ⟨old, hold, rfl⟩ := List.mem_map.mp hother
    exact notMem_removeOrKeep hgrouped hold
  have hshrunkMem : ({ workspace with root := removeOrKeep dragged workspace.root } :
      TerminalWorkspaceGroup) ∈ p.workspaces.map fun workspace =>
        { workspace with root := removeOrKeep dragged workspace.root } := List.mem_map_of_mem hmem
  have hinserted := hshrunk.insert hshrunkMem
    (perm_splitRootWith (hgrouped.apart.nodup hmem) htarget hne direction) hfresh
  rw [List.map_map] at hinserted
  rw [workspaces_splitInto]
  exact hinserted

theorem opened_splitInto (hgrouped : Grouped p.workspaces p.workspaceCounter listed)
    (hmem : workspace ∈ p.workspaces) (htarget : target ∈ workspace.root.sessionIds) (hne : target ≠ dragged)
    (hlisted : dragged ∈ listed) (direction : SplitDirection) :
    ∀ other ∈ (p.splitInto workspace target dragged direction).workspaces, ∀ id ∈ other.root.sessionIds,
      id ∈ listed := by
  have hkept : ∀ other ∈ p.workspaces, ∀ id ∈ (removeOrKeep dragged other.root).sessionIds, id ∈ listed := by
    intro other hother id hid
    exact hgrouped.opened other hother id ((sublist_removeOrKeep dragged other.root).subset hid)
  rw [workspaces_splitInto]
  intro other hother
  obtain ⟨old, hold, rfl⟩ := List.mem_map.mp hother
  by_cases hsame : old.id = workspace.id
  · intro id hid
    simp only [if_pos hsame] at hid
    rcases List.mem_cons.mp
      ((perm_splitRootWith (hgrouped.apart.nodup hmem) htarget hne direction).subset hid) with rfl | hleft
    · exact hlisted
    · exact hkept workspace hmem id hleft
  · simp only [if_neg hsame]
    exact hkept old hold

theorem pruneWorkspaces_of_active (hseparate : Separate p.workspaces p.workspaceCounter)
    (hmem : workspace ∈ p.workspaces) (hactive : p.activeWorkspaceId = some workspace.id)
    (htwo : 2 ≤ workspace.root.sessionIds.length) : p.pruneWorkspaces = { p with
      workspaces := p.workspaces.filter fun workspace => 2 ≤ workspace.root.sessionIds.length } := by
  unfold pruneWorkspaces leaveWorkspace
  apply if_neg
  rintro ⟨-, hnone⟩
  have hkept : workspace ∈ p.workspaces.filter fun workspace => 2 ≤ workspace.root.sessionIds.length :=
    List.mem_filter.mpr ⟨hmem, decide_eq_true htwo⟩
  have hfound : under TerminalWorkspaceGroup.id workspace.id
      (p.workspaces.filter fun workspace => 2 ≤ workspace.root.sessionIds.length) = some workspace :=
    under_of_mem (hseparate.apart.sublist List.filter_sublist).keys hkept
  unfold activeWorkspace workspaceById at hnone
  simp only [hactive, Option.bind_some, hfound] at hnone
  cases hnone

theorem arranged_dragged (hidle : p.workspaceReconnectInProgress = false)
    (hseparate : Separate p.workspaces p.workspaceCounter)
    (hopened : ∀ workspace ∈ p.workspaces, ∀ id ∈ workspace.root.sessionIds, id ∈ listed)
    (hmem : workspace ∈ p.workspaces) (hactive : p.activeWorkspaceId = some workspace.id)
    (hroot : p.splitRoot = some workspace.root) (htwo : 2 ≤ workspace.root.sessionIds.length)
    (hin : session.id ∈ workspace.root.sessionIds) (hsolo : p.SoloAt session.id) :
    Arranged { p.pruneWorkspaces with
      workspaceActive := true
      sessionId := some session.id
      connectedProfileId := some session.profileId } listed := by
  have hgrouped := hseparate.pruned fun workspace hmem _ => hopened workspace hmem
  rw [pruneWorkspaces_of_active hseparate hmem hactive htwo]
  exact arranged_workspace hidle hgrouped (List.mem_filter.mpr ⟨hmem, decide_eq_true htwo⟩) hactive hroot rfl hin hsolo

theorem Arranged.splitInto (harranged : Arranged p listed) (hmem : workspace ∈ p.workspaces)
    (htarget : target ∈ workspace.root.sessionIds) (hne : target ≠ session.id) (hlisted : session.id ∈ listed)
    (hsolo : p.SoloAt session.id) (direction : SplitDirection) :
    Arranged { (p.splitInto workspace target session.id direction).pruneWorkspaces with
      workspaceActive := true
      sessionId := some session.id
      connectedProfileId := some session.profileId } listed := by
  have hgrouped := harranged.grouped
  have hperm := perm_splitRootWith (hgrouped.apart.nodup hmem) htarget hne direction
  have hkept : target ∈ (removeOrKeep session.id workspace.root).sessionIds := by
    rw [sessionIds_removeOrKeep_of_mem htarget hne, List.mem_filter]
    exact ⟨htarget, decide_eq_true hne⟩
  have hsplit : ({ workspace with root := splitRootWith workspace.root target session.id direction } :
      TerminalWorkspaceGroup) ∈ (p.splitInto workspace target session.id direction).workspaces := by
    rw [workspaces_splitInto, List.mem_map]
    refine ⟨workspace, hmem, ?_⟩
    rw [if_pos rfl]
  refine arranged_dragged harranged.idle (separate_splitInto hgrouped hmem htarget hne direction)
    (opened_splitInto hgrouped hmem htarget hne hlisted direction) hsplit rfl rfl ?_ ?_ hsolo
  · have hlength := hperm.length_eq
    have hpos := List.length_pos_of_mem hkept
    rw [List.length_cons] at hlength
    show 2 ≤ (splitRootWith workspace.root target session.id direction).sessionIds.length
    omega
  · exact hperm.symm.subset List.mem_cons_self

theorem perm_leaf_insertSplit (target dragged : String) (direction : SplitDirection) :
    ((SplitNode.leaf target).insertSplit target dragged direction).sessionIds.Perm [dragged, target] :=
  SplitNode.perm_insertSplit direction (List.nodup_singleton _) List.mem_cons_self

theorem separate_splitNew (hgrouped : Grouped p.workspaces p.workspaceCounter listed)
    (hfresh : ∀ workspace ∈ p.workspaces, target ∉ workspace.root.sessionIds) (hne : target ≠ dragged)
    (direction : SplitDirection) : Separate (p.splitNew target dragged direction).workspaces
      (p.splitNew target dragged direction).workspaceCounter := by
  have hids := perm_leaf_insertSplit target dragged direction
  have hshrunk := hgrouped.toSeparate.shrink (f := fun workspace => removeOrKeep dragged workspace.root)
    fun workspace _ => sublist_removeOrKeep dragged workspace.root
  refine hshrunk.concat ?_ ?_
  · rw [hids.nodup_iff]
    simpa using hne.symm
  · intro id hid other hother
    obtain ⟨old, hold, rfl⟩ := List.mem_map.mp hother
    rcases List.mem_cons.mp (hids.subset hid) with rfl | hrest
    · exact notMem_removeOrKeep hgrouped hold
    · obtain rfl := List.mem_singleton.mp hrest
      exact fun hin => hfresh old hold ((sublist_removeOrKeep dragged old.root).subset hin)

theorem Arranged.splitNew (harranged : Arranged p listed)
    (hfresh : ∀ workspace ∈ p.workspaces, target ∉ workspace.root.sessionIds) (htarget : target ∈ listed)
    (hne : target ≠ session.id) (hlisted : session.id ∈ listed) (hsolo : p.SoloAt session.id)
    (direction : SplitDirection) :
    Arranged { (p.splitNew target session.id direction).pruneWorkspaces with
      workspaceActive := true
      sessionId := some session.id
      connectedProfileId := some session.profileId } listed := by
  have hgrouped := harranged.grouped
  have hids := perm_leaf_insertSplit target session.id direction
  refine arranged_dragged (p := p.splitNew target session.id direction) harranged.idle
    (separate_splitNew hgrouped hfresh hne direction) ?_ (List.mem_append_right _ List.mem_cons_self) rfl rfl ?_ ?_
    hsolo
  · intro other hother id hid
    rcases List.mem_append.mp hother with hkept | hnew
    · obtain ⟨old, hold, rfl⟩ := List.mem_map.mp hkept
      exact hgrouped.opened old hold id ((sublist_removeOrKeep session.id old.root).subset hid)
    · obtain rfl := List.mem_singleton.mp hnew
      rcases List.mem_cons.mp (hids.subset hid) with rfl | hrest
      · exact hlisted
      · obtain rfl := List.mem_singleton.mp hrest
        exact htarget
  · show 2 ≤ ((SplitNode.leaf target).insertSplit target session.id direction).sessionIds.length
    rw [hids.length_eq]
    exact Nat.le_refl 2
  · exact hids.symm.subset List.mem_cons_self

theorem Arranged.split (harranged : Arranged p listed) (htarget : target ∈ listed) (hne : target ≠ session.id)
    (hlisted : session.id ∈ listed) (hsolo : p.SoloAt session.id) (direction : SplitDirection) :
    Arranged (p.split target session direction) listed := by
  unfold TerminalPanelState.split
  cases hfound : p.workspaceContainingSession target with
  | some workspace =>
    obtain ⟨hmem, hin⟩ := mem_of_workspaceContainingSession hfound
    exact harranged.splitInto hmem hin hne hlisted hsolo direction
  | none =>
    refine harranged.splitNew ?_ htarget hne hlisted hsolo direction
    intro workspace hmem hin
    exact List.find?_eq_none.mp hfound workspace hmem (decide_eq_true hin)

theorem listed_of_ordered {c : TerminalSessionOrderController}
    (hmem : id ∈ (c.ordered m.sessions TerminalSession.id).map TerminalSession.id) : id ∈ m.ids := by
  obtain ⟨session, hsession, rfl⟩ := List.mem_map.mp hmem
  obtain ⟨other, -, hfound⟩ := List.mem_filterMap.mp hsession
  exact List.mem_map_of_mem (List.mem_reverse.mp (List.mem_of_find?_eq_some hfound))

theorem listed_splitTargetForDrag (htarget : target ∈ m.ids) : p.splitTargetForDrag m dragged target ∈ m.ids := by
  have hdefault : ∀ n, (((p.sessionOrder.ordered m.sessions TerminalSession.id).map
      TerminalSession.id).filter fun id => id ∉ p.workspaceSessionIds).getD n target ∈ m.ids := by
    intro n
    rw [List.getD_eq_getElem?_getD]
    cases hat : (((p.sessionOrder.ordered m.sessions TerminalSession.id).map
        TerminalSession.id).filter fun id => id ∉ p.workspaceSessionIds)[n]? with
    | none => exact htarget
    | some id => exact listed_of_ordered (List.mem_of_mem_filter (List.mem_of_getElem? hat))
  unfold splitTargetForDrag resolveSplitTargetForDrag
  split
  · exact htarget
  · dsimp only
    split
    · exact htarget
    · exact hdefault 1
    · exact hdefault _

theorem Arranged.others (harranged : Arranged p listed) (order : TerminalSessionOrderController)
    (directories : String → Option String) (broadcast tabClosed : Bool) :
    Arranged { p with
      sessionOrder := order
      sessionDirectories := directories
      broadcastTyping := broadcast
      activeTabClosed := tabClosed } listed where
  idle := harranged.idle
  grouped := harranged.grouped
  shown := ⟨harranged.shown.active, harranged.shown.flagged⟩
  panes := harranged.panes
  session := harranged.session
  asleep := harranged.asleep
  solo := harranged.solo

theorem Arranged.splitPane (harranged : Arranged p m.ids) (htarget : target ∈ m.ids)
    (hsolo : p.splitTargetForDrag m dragged target ≠ dragged → p.SoloAt dragged)
    (direction : SplitDirection) : Arranged (p.splitPane m target dragged direction) m.ids := by
  have hordered : Arranged (p.updateOrder m) m.ids := harranged.others _ _ _ _
  unfold TerminalPanelState.splitPane
  split
  · exact hordered
  · rename_i hne
    split
    · rename_i session hsession
      obtain ⟨hmem, rfl⟩ := ConnectionManager.mem_of_sessionById hsession
      exact hordered.split (listed_splitTargetForDrag htarget) hne (List.mem_map_of_mem hmem) (hsolo hne) direction
    · exact hordered

theorem Arranged.toggleBroadcastTyping (harranged : Arranged p listed) :
    Arranged (p.toggleBroadcastTyping m) listed := by
  unfold TerminalPanelState.toggleBroadcastTyping
  split
  · exact harranged.others _ _ _ _
  · exact harranged.others _ _ _ _

end TerminalPanelState

end Portix.Terminal
