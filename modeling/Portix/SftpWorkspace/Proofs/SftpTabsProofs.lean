import Portix.Kubernetes.Proofs.KubeTabsProofs
import Portix.SftpWorkspace.Proofs.SftpPaneProofs
import Portix.SftpWorkspace.SftpWorkspacePage

/-!
# Closing tabs

In both rows of tabs one is always shown. The Kubernetes page keeps it when another one is closed; the SFTP page moves
on by one when a tab before it is closed, unless the shown one is the last.
-/

namespace Portix.SftpWorkspace.SftpWorkspacePage

open Lib

open Kubernetes (KubeTabs)

open Profiles (SshProfile)

open SftpPane (plainPlatform)

variable {platform : Platform} {s s' : SftpWorkspacePage} {index : Nat}

def tabControllers (s : SftpWorkspacePage) : List Nat := s.tabs.map SftpTab.controller

/-- A tab is shown, its controller is the page's, and no two tabs have the same one. -/
structure Shows (s : SftpWorkspacePage) : Prop where
  shown : s.tabControllers[s.activeTabIndex]? = some s.controller
  nodup : s.tabControllers.Nodup
  made : ∀ controller ∈ s.tabControllers, controller < s.listings.length

theorem Shows.inRange (h : s.Shows) : s.activeTabIndex < s.tabs.length := by
  have hlt := (List.getElem?_eq_some_iff.mp h.shown).1
  rwa [tabControllers, List.length_map] at hlt

theorem Shows.fresh (h : s.Shows) : s.nextController ∉ s.tabControllers := fun hmem =>
  absurd (h.made _ hmem) (Nat.lt_irrefl _)

theorem tabControllers_remaining (s : SftpWorkspacePage) (index : Nat) :
    (s.remainingTabs index).map SftpTab.controller =
      if (s.tabs.eraseIdx index).isEmpty then [s.nextController] else s.tabControllers.eraseIdx index := by
  unfold remainingTabs
  split
  · rfl
  · exact (List.eraseIdx_map _ _ _).symm

theorem length_remainingTabs_pos (s : SftpWorkspacePage) (index : Nat) : 0 < (s.remainingTabs index).length := by
  unfold remainingTabs
  split
  · exact Nat.one_pos
  · rename_i hempty
    rw [List.length_pos_iff]
    simpa using hempty

theorem remainingActive_lt : s.remainingActive index < (s.remainingTabs index).length := by
  have hpos := length_remainingTabs_pos s index
  unfold remainingActive
  split <;> omega

theorem Shows.addSftpTab (h : s.Shows) : s.addSftpTab.Shows where
  shown := by
    simp [SftpWorkspacePage.addSftpTab, clearSelections, tabControllers]
  nodup := by
    have hcontrollers : s.addSftpTab.tabControllers = s.tabControllers ++ [s.nextController] := by
      simp [SftpWorkspacePage.addSftpTab, clearSelections, tabControllers]
    rw [hcontrollers]
    refine List.nodup_append.mpr ⟨h.nodup, List.nodup_singleton _, fun controller hmem _ hnew heq => ?_⟩
    rw [List.mem_singleton.mp hnew] at heq
    exact h.fresh (heq ▸ hmem)
  made controller hmem := by
    simp only [SftpWorkspacePage.addSftpTab, clearSelections, tabControllers, List.map_append, List.map_cons,
      List.map_nil] at hmem
    simp only [SftpWorkspacePage.addSftpTab, clearSelections, List.length_append, List.length_singleton]
    rcases List.mem_append.mp hmem with hold | hnew
    · exact Nat.lt_succ_of_lt (h.made controller hold)
    · rw [List.mem_singleton.mp hnew]
      exact Nat.lt_succ_self _

theorem Shows.closeSftpTab (h : s.Shows) (index : Nat) : (s.closeSftpTab index).Shows := by
  by_cases hout : s.tabs.length ≤ index
  · simpa [SftpWorkspacePage.closeSftpTab, hout] using h
  have hclosed : (s.closeSftpTab index).tabControllers = (s.remainingTabs index).map SftpTab.controller := by
    simp only [SftpWorkspacePage.closeSftpTab, if_neg hout, tabControllers, clearSelections]
  refine ⟨?_, ?_, fun controller hmem => ?_⟩
  · rw [hclosed]
    simp only [SftpWorkspacePage.closeSftpTab, if_neg hout, clearSelections, List.getElem?_map,
      List.getElem?_eq_getElem remainingActive_lt, Option.map_some, Option.getD_some]
  · rw [hclosed, tabControllers_remaining]
    split
    · exact List.nodup_singleton _
    · exact h.nodup.sublist (List.eraseIdx_sublist _ _)
  · rw [hclosed, tabControllers_remaining] at hmem
    simp only [SftpWorkspacePage.closeSftpTab, if_neg hout, clearSelections, List.length_modify]
    split at hmem
    case isTrue hempty =>
      rw [if_pos hempty, List.mem_singleton.mp hmem, List.length_append]
      exact Nat.lt_succ_self _
    case isFalse hempty =>
      rw [if_neg hempty]
      exact h.made controller (List.mem_of_mem_eraseIdx hmem)

theorem Shows.switchSftpTab (h : s.Shows) : (s.switchSftpTab index).Shows := by
  unfold SftpWorkspacePage.switchSftpTab
  split
  · exact h
  · rename_i tab htab
    split
    · exact h
    · refine ⟨?_, h.nodup, h.made⟩
      simp [clearSelections, tabControllers, htab]

theorem Shows.duplicateSftpTab (h : s.Shows) : (s.duplicateSftpTab index).Shows := by
  unfold SftpWorkspacePage.duplicateSftpTab
  split
  · exact h
  · rename_i tab htab
    have hplace : index + 1 ≤ s.tabControllers.length := by
      rw [tabControllers, List.length_map]
      exact (List.getElem?_eq_some_iff.mp htab).1
    refine ⟨?_, ?_, fun controller hmem => ?_⟩
    · simp only [clearSelections, tabControllers, List.map_insertIdx]
      rw [List.getElem?_insertIdx_self]
      exact if_pos hplace
    · simp only [clearSelections, tabControllers, List.map_insertIdx]
      exact (List.perm_insertIdx _ _ hplace).nodup_iff.mpr (List.nodup_cons.mpr ⟨h.fresh, h.nodup⟩)
    · simp only [clearSelections, tabControllers, List.map_insertIdx] at hmem
      simp only [clearSelections, List.length_append, List.length_singleton]
      rcases List.eq_or_mem_of_mem_insertIdx hmem with hnew | hold
      · rw [hnew]
        exact Nat.lt_succ_self _
      · exact Nat.lt_succ_of_lt (h.made controller hold)

theorem Shows.setProfile (h : s.Shows) (profile : Option SshProfile) : (s.setProfile profile).Shows := by
  have hcontrollers : (s.setProfile profile).tabControllers = s.tabControllers := by
    refine List.ext_getElem? fun i => ?_
    simp only [SftpWorkspacePage.setProfile, tabControllers, List.getElem?_map, List.getElem?_modify]
    cases s.tabs[i]? with
    | none => rfl
    | some tab =>
      simp only [Option.map_some]
      split <;> rfl
  exact ⟨hcontrollers ▸ h.shown, hcontrollers ▸ h.nodup, hcontrollers ▸ h.made⟩

theorem Shows.setSelection (h : s.Shows) (isRemote : Bool) (selected : Selection) :
    (s.setSelection isRemote selected).Shows := by
  cases isRemote <;> exact ⟨h.shown, h.nodup, h.made⟩

theorem shows_initState (initialProfile : Option SshProfile) : (initState initialProfile).Shows :=
  ⟨rfl, List.nodup_singleton _, fun controller hmem => by
    rw [List.mem_singleton.mp hmem]
    exact Nat.zero_lt_two⟩

theorem Shows.step {e : SftpPageEvent} {o : List Unit} (h : s.Shows) (hstep : s.step platform e = some (s', o)) :
    s'.Shows := by
  cases e with
  | addTab =>
    cases hstep
    exact h.addSftpTab
  | closeTab index =>
    cases hstep
    exact h.closeSftpTab index
  | switchTab index =>
    cases hstep
    exact h.switchSftpTab
  | duplicateTab index =>
    cases hstep
    exact h.duplicateSftpTab
  | selectProfile profile =>
    cases hstep
    exact h.setProfile _
  | resetProfile =>
    cases hstep
    exact h.setProfile _
  | openProfile profile existingIndex =>
    cases hstep
    unfold openProfileInTab
    split
    · exact h.switchSftpTab
    · split
      · exact h.setProfile _
      · exact h.addSftpTab.setProfile _
  | selectLeftProfile profile =>
    cases hstep
    exact ⟨h.shown, h.nodup, h.made⟩
  | controllerChanged controller listing =>
    cases hstep
    refine ⟨h.shown, h.nodup, fun c hmem => ?_⟩
    simpa [syncSelectionsWithRows] using h.made c hmem
  | rowSelected pane rows index additive range =>
    simp only [SftpWorkspacePage.step] at hstep
    split at hstep
    case isTrue =>
      cases hstep
      exact h.setSelection _ _
    case isFalse => cases hstep
  | renameStarted pane file =>
    simp only [SftpWorkspacePage.step] at hstep
    split at hstep
    case isTrue =>
      cases hstep
      exact h.setSelection _ _
    case isFalse => cases hstep

theorem Shows.keepsShown_iff (h : s.Shows) (hindex : index < s.tabs.length) :
    KeepsShown s.tabControllers s.activeTabIndex index (some (s.closeSftpTab index).controller) ↔
      s.activeTabIndex ≤ index ∨ s.activeTabIndex + 1 = s.tabs.length := by
  have hrange := h.inRange
  have hcontrollers : s.tabControllers.length = s.tabs.length := List.length_map _
  have hlength := List.length_eraseIdx_of_lt hindex
  rw [← (h.closeSftpTab index).shown]
  by_cases hone : s.tabs.length = 1
  · exact iff_of_true ⟨fun hne => absurd (by omega) hne, fun _ hmore => absurd hone (by omega)⟩ (.inr (by omega))
  have hempty : ¬ (s.tabs.eraseIdx index).isEmpty = true := by
    rw [List.isEmpty_iff_length_eq_zero]
    omega
  have hclosed : (s.closeSftpTab index).tabControllers = s.tabControllers.eraseIdx index := by
    simp only [SftpWorkspacePage.closeSftpTab, if_neg (Nat.not_le.mpr hindex), clearSelections, tabControllers,
      remainingTabs, if_neg hempty]
    exact (List.eraseIdx_map _ _ _).symm
  have hplace : (s.closeSftpTab index).activeTabIndex =
      if s.activeTabIndex + 1 = s.tabs.length then s.activeTabIndex - 1 else s.activeTabIndex := by
    simp only [SftpWorkspacePage.closeSftpTab, if_neg (Nat.not_le.mpr hindex), clearSelections, remainingActive,
      remainingTabs, if_neg hempty, hlength]
    split <;> split <;> omega
  rw [hclosed, hplace]
  by_cases hend : s.activeTabIndex + 1 = s.tabs.length
  · rw [if_pos hend]
    exact iff_of_true (.moved (by omega) (by omega)) (.inr hend)
  · rw [if_neg hend]
    constructor
    · intro hkeeps
      by_contra hbefore
      rw [not_or, Nat.not_le] at hbefore
      exact not_keepsShown h.nodup hbefore.1 (by omega) hkeeps
    · rintro (hle | hlast)
      · exact .stay hle (by omega)
      · exact absurd hlast hend

/-- Whatever is done on the two pages, a tab is shown, with the page's controller on the SFTP page. A tab of the
Kubernetes page is closed around the shown one; one of the SFTP page if and only if it is not before the shown one or
this is the last. -/
theorem tabs_closed (platform : Platform) (initialProfile : Option SshProfile) :
    (∀ h (s : SftpWorkspacePage),
      Reaches (step platform) (fun _ _ => True) (initState initialProfile) h s →
      s.activeTabIndex < s.tabs.length ∧ s.tabControllers[s.activeTabIndex]? = some s.controller ∧
        ∀ index < s.tabs.length,
          (KeepsShown s.tabControllers s.activeTabIndex index (some (s.closeSftpTab index).controller) ↔
            s.activeTabIndex ≤ index ∨ s.activeTabIndex + 1 = s.tabs.length)) ∧
    (∀ h (s : KubeTabs), Reaches KubeTabs.step (fun _ _ => True) {} h s →
      s.active < s.tabs.length ∧
        ∀ index < s.tabs.length, KeepsShown s.tabs s.active index (s.close index).current) := by
  constructor
  · intro h s hreach
    have hshows : s.Shows := hreach.invariant (I := fun _ s => s.Shows) (shows_initState initialProfile)
      fun hbefore _ hstep => hbefore.step hstep
    exact ⟨hshows.inRange, hshows.shown, fun index => hshows.keepsShown_iff⟩
  · intro h s hreach
    have hshows : s.Shows := hreach.invariant (I := fun _ s => s.Shows) KubeTabs.shows_start
      fun hbefore _ hstep => hbefore.step hstep
    exact ⟨hshows.inRange, fun index => hshows.keepsShown⟩

/-- The second of two tabs is closed around: the first one is shown, and stays. -/
theorem tabs_closed_second :
    KeepsShown [0, 2] 0 1 (some (((initState none).addSftpTab.switchSftpTab 0).closeSftpTab 1).controller) ∧
      KeepsShown [0, 1] 0 1 (((({} : KubeTabs).add.select 0).close 1).current) := by
  have hpage := (tabs_closed plainPlatform none).1 _ ((initState none).addSftpTab.switchSftpTab 0)
    (Reaches.of_runEvents [.addTab, .switchTab 0] (fun _ _ _ => trivial) .start rfl)
  have hclusters := (tabs_closed plainPlatform none).2 _ (({} : KubeTabs).add.select 0)
    (Reaches.of_runEvents [.add, .select 0] (fun _ _ _ => trivial) .start rfl)
  exact ⟨(hpage.2.2 1 (by decide)).mpr (.inl (by decide)), hclusters.2 1 (by decide)⟩

/-- With the second of three tabs shown, the first one is closed: the page goes on to the third. -/
theorem closed_before_shown :
    ∃ h s, Reaches (step plainPlatform) (fun _ _ => True) (initState none) h s ∧
      ¬ (∀ index < s.tabs.length, index ≠ s.activeTabIndex →
        (s.closeSftpTab index).controller = s.controller) := by
  refine ⟨_, (initState none).addSftpTab.addSftpTab.switchSftpTab 1,
    Reaches.of_runEvents [.addTab, .addTab, .switchTab 1] (fun _ _ _ => trivial) .start rfl, fun hkept => ?_⟩
  exact absurd (hkept 0 (by decide) (by decide)) (by decide)

end Portix.SftpWorkspace.SftpWorkspacePage
