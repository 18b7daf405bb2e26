import Portix.SftpWorkspace.PaneSelections
import Portix.SftpWorkspace.Proofs.SftpPaneProofs

/-!
# A drag takes what was selected in its pane

As long as the panes do not get in each other's way, the page's two sets are what the user has selected, seen from each
pane.
-/

namespace Portix.SftpWorkspace.PaneSelections

open Lib

open Profiles (SshProfile)

open SftpPane (keyProfile plainPlatform)

open SftpWorkspacePage (Pane)

variable {platform : Platform} {v v' : PaneSelections} {pane : Pane}

theorem mem_entries {s : SftpWorkspacePage} {path : String} : path ∈ s.entries pane ↔
      ∃ row ∈ SftpWorkspacePage.syncRows (s.listing (s.paneController pane.isLeft)) pane.isRemote,
        entryPath row = some path := List.mem_filterMap

theorem visibleRows_subset (s : SftpWorkspacePage) (pane : Pane) : s.visibleRows platform pane.isRemote pane.isLeft ⊆
      SftpWorkspacePage.syncRows (s.listing (s.paneController pane.isLeft)) pane.isRemote := by
  intro row hmem
  unfold SftpWorkspacePage.visibleRows at hmem
  unfold SftpWorkspacePage.syncRows
  by_cases hremote : pane.isRemote = true
  · rwa [if_pos hremote] at hmem ⊢
  · rw [if_neg hremote] at hmem ⊢
    unfold PaneListing.localVisibleRows at hmem
    split at hmem
    · exact List.mem_of_mem_filter hmem
    · exact hmem

theorem items_subset (s : SftpWorkspacePage) (pane : Pane) :
    s.items platform pane ⊆ s.visibleRows platform pane.isRemote pane.isLeft := by
  intro row hmem
  cases pane <;>
  · simp only [SftpWorkspacePage.items] at hmem
    split at hmem
    all_goals first | exact hmem | exact absurd hmem List.not_mem_nil

theorem entry_of_item {s : SftpWorkspacePage} {row : SftpFileEntry} {path : String}
    (hmem : row ∈ s.items platform pane) (hpath : entryPath row = some path) : path ∈ s.entries pane :=
  mem_entries.mpr ⟨row, visibleRows_subset s pane (items_subset s pane hmem), hpath⟩

theorem entry_of_click {s : SftpWorkspacePage} {rows : List SftpFileEntry} {index : Nat} {path : String}
    (hrows : rows.Perm (s.items platform pane)) (hpath : rows[index]?.bind entryPath = some path) :
    path ∈ s.entries pane := by
  obtain ⟨row, hrow, hentry⟩ := Option.bind_eq_some_iff.mp hpath
  exact entry_of_item (hrows.mem_iff.mp (List.mem_of_getElem? hrow)) hentry

theorem mem_between {rows : List SftpFileEntry} {i j : Nat} {x : String} : x ∈ Selection.between rows i j ↔
      ∃ k row, min i j ≤ k ∧ k ≤ max i j ∧ rows[k]? = some row ∧ entryPath row = some x := by
  unfold Selection.between
  rw [List.mem_filterMap]
  constructor
  · rintro ⟨row, hmem, hpath⟩
    obtain ⟨k, hk⟩ := List.mem_iff_getElem?.mp hmem
    rw [List.getElem?_drop, List.getElem?_take] at hk
    split at hk
    · exact ⟨_, row, Nat.le_add_right _ _, by omega, hk, hpath⟩
    · cases hk
  · rintro ⟨k, row, hlow, hhigh, hrow, hpath⟩
    refine ⟨row, List.mem_iff_getElem?.mpr ⟨k - min i j, ?_⟩, hpath⟩
    rw [List.getElem?_drop, Nat.add_sub_cancel' hlow, List.getElem?_take, if_pos (by omega), hrow]

theorem between_subset {s : SftpWorkspacePage} {rows : List SftpFileEntry} {i j : Nat}
    (hrows : rows.Perm (s.items platform pane)) : Selection.between rows i j ⊆ s.entries pane := by
  intro x hx
  obtain ⟨k, row, _, _, hrow, hpath⟩ := mem_between.mp hx
  exact entry_of_item (hrows.mem_iff.mp (List.mem_of_getElem? hrow)) hpath

section Click

variable {a b : Selection} {rows : List SftpFileEntry} {index : Nat} {path x : String} {additive range : Bool}

theorem mem_clickedPaths_congr (hanchor : range = true → a.anchor = b.anchor)
    (hpath : path ∈ a.paths ↔ path ∈ b.paths) (hx : x ∈ a.paths ↔ x ∈ b.paths) :
    x ∈ a.clickedPaths rows index path additive range ↔ x ∈ b.clickedPaths rows index path additive range := by
  have htoggle : x ∈ (if path ∈ a.paths then a.paths.erase path else insert path a.paths) ↔
      x ∈ (if path ∈ b.paths then b.paths.erase path else insert path b.paths) := by
    by_cases hin : path ∈ a.paths
    · rw [if_pos hin, if_pos (hpath.mp hin), Finset.mem_erase, Finset.mem_erase, hx]
    · rw [if_neg hin, if_neg (mt hpath.mpr hin), Finset.mem_insert, Finset.mem_insert, hx]
  have hplain : x ∈ (if additive then if path ∈ a.paths then a.paths.erase path else insert path a.paths else {path}) ↔
      x ∈ (if additive then if path ∈ b.paths then b.paths.erase path else insert path b.paths else {path}) := by
    cases additive
    · exact Iff.rfl
    · exact htoggle
  unfold Selection.clickedPaths
  cases range with
  | false => exact hplain
  | true =>
    rw [hanchor rfl]
    cases b.anchor with
    | none => exact hplain
    | some anchor =>
      simp only
      cases rows.findIdx? fun row => row.path = some anchor with
      | none => exact hx
      | some anchorIndex =>
        simp only [Finset.mem_union]
        cases additive
        · exact Iff.rfl
        · exact or_congr_left hx

theorem mem_clickedPaths_of_spared (hanchor : range = true → a.anchor = b.anchor)
    (hspared : ∀ paths, reached b rows index path range = some paths → x ∉ paths ∧ (additive = true ∨ x ∉ a.paths)) :
    x ∈ a.clickedPaths rows index path additive range ↔ x ∈ a.paths := by
  have hplain (hone : x ≠ path ∧ (additive = true ∨ x ∉ a.paths)) :
      x ∈ (if additive then if path ∈ a.paths then a.paths.erase path else insert path a.paths else {path}) ↔
        x ∈ a.paths := by
    cases additive with
    | false =>
      have hout : x ∉ a.paths := hone.2.resolve_left Bool.false_ne_true
      simpa [hone.1] using hout
    | true =>
      rw [if_pos rfl]
      split
      · rw [Finset.mem_erase, and_iff_right hone.1]
      · rw [Finset.mem_insert, or_iff_right hone.1]
  unfold Selection.clickedPaths
  unfold reached at hspared
  cases range with
  | false =>
    have hone := hspared _ rfl
    exact hplain ⟨fun heq => hone.1 (heq ▸ List.mem_singleton_self _), hone.2⟩
  | true =>
    rw [hanchor rfl]
    cases hb : b.anchor with
    | none =>
      rw [hb] at hspared
      have hone := hspared _ rfl
      exact hplain ⟨fun heq => hone.1 (heq ▸ List.mem_singleton_self _), hone.2⟩
    | some anchor =>
      rw [hb] at hspared
      simp only at hspared ⊢
      cases hfound : rows.findIdx? fun row => row.path = some anchor with
      | none => exact Iff.rfl
      | some anchorIndex =>
        rw [hfound] at hspared
        have hone := hspared _ rfl
        simp only [Finset.mem_union, List.mem_toFinset]
        rw [or_iff_left hone.1]
        cases additive with
        | false => simpa using hone.2.resolve_left Bool.false_ne_true
        | true => exact Iff.rfl

theorem clickedPaths_subset {s : List String} (hsel : ∀ y ∈ a.paths, y ∈ s) (hpath : path ∈ s)
    (hrows : ∀ i j, Selection.between rows i j ⊆ s) (hx : x ∈ a.clickedPaths rows index path additive range) :
    x ∈ s := by
  have hplain (hmem : x ∈ (if additive then if path ∈ a.paths then a.paths.erase path else insert path a.paths
      else {path})) : x ∈ s := by
    split at hmem
    · split at hmem
      · exact hsel x (Finset.mem_of_mem_erase hmem)
      · rcases Finset.mem_insert.mp hmem with rfl | hold
        · exact hpath
        · exact hsel x hold
    · exact Finset.mem_singleton.mp hmem ▸ hpath
  unfold Selection.clickedPaths at hx
  split at hx
  · split at hx
    · rename_i anchorIndex _
      rcases Finset.mem_union.mp hx with hold | hnew
      · split at hold
        · exact hsel x hold
        · exact absurd hold (Finset.notMem_empty x)
      · exact hrows anchorIndex index (List.mem_toFinset.mp hnew)
    · exact hsel x hx
  · exact hplain hx

theorem handleRowSelected_of_none (hpath : rows[index]?.bind entryPath = none) :
    a.handleRowSelected rows index additive range = a := by
  simp [Selection.handleRowSelected, hpath]

theorem handleRowSelected_of_some (hpath : rows[index]?.bind entryPath = some path) :
    a.handleRowSelected rows index additive range =
      { paths := a.clickedPaths rows index path additive range, anchor := some path } := by
  simp [Selection.handleRowSelected, hpath]

end Click

/-- Seen from a pane, the page's set is what is selected in the pane; and that is listed there. -/
structure Agrees (v : PaneSelections) : Prop where
  agree : ∀ pane, ∀ path ∈ v.page.entries pane,
    (path ∈ (v.page.selection pane.isRemote).paths ↔ path ∈ (v.picked pane).paths)
  shown : ∀ pane, ∀ path ∈ (v.picked pane).paths, path ∈ v.page.entries pane

section Pages

variable {s s' : SftpWorkspacePage} (isRemote : Bool)

theorem selection_clearSelections : s.clearSelections.selection isRemote = {} := by
  cases isRemote <;> rfl

theorem selection_setSelection_self (selected : Selection) :
    (s.setSelection isRemote selected).selection isRemote = selected := by
  cases isRemote <;> rfl

theorem selection_setSelection_of_ne {isRemote isRemote' : Bool} (hne : isRemote' ≠ isRemote) (selected : Selection) :
    (s.setSelection isRemote selected).selection isRemote' = s.selection isRemote' := by
  cases isRemote <;> cases isRemote' <;> first | rfl | exact absurd rfl hne

theorem entries_setSelection (selected : Selection) :
    (s.setSelection isRemote selected).entries = s.entries := by
  cases isRemote <;> rfl

theorem selection_sync :
    s.syncSelectionsWithRows.selection isRemote = (s.selection isRemote).sync (s.listed isRemote) := by
  cases isRemote <;> rfl

theorem listed_of_mem_entries {path : String} (hmem : path ∈ s.entries pane) : s.listed pane.isRemote path = true := by
  obtain ⟨row, hrow, hpath⟩ := mem_entries.mp hmem
  have hrowPath : row.path = some path := by
    unfold entryPath at hpath
    split at hpath
    · cases hpath
    · exact hpath
  refine List.any_eq_true.mpr ⟨row, List.mem_append.mpr ?_, decide_eq_true hrowPath⟩
  cases pane with
  | right => exact .inr hrow
  | leftLocal => exact .inl hrow
  | leftRemote => exact .inl hrow

/-- What a tab event does to the selections: all of them go, or nothing changes. -/
def Leaves (s s' : SftpWorkspacePage) (e : SftpPageEvent) : Prop :=
  s.leavesTab e = true ∧ (∀ isRemote, s'.selection isRemote = {}) ∨
    s.leavesTab e = false ∧ s'.selection = s.selection ∧ s'.entries = s.entries

theorem leaves_closeTab (s : SftpWorkspacePage) (index : Nat) : Leaves s (s.closeSftpTab index) (.closeTab index) := by
  by_cases hout : s.tabs.length ≤ index
  · right
    have hsame : s.closeSftpTab index = s := by simp [SftpWorkspacePage.closeSftpTab, hout]
    rw [hsame]
    exact ⟨decide_eq_false (Nat.not_lt.mpr hout), rfl, rfl⟩
  · left
    refine ⟨decide_eq_true (Nat.not_le.mp hout), fun isRemote => ?_⟩
    rw [SftpWorkspacePage.closeSftpTab, if_neg hout]
    exact selection_clearSelections isRemote

theorem leaves_switchTab (s : SftpWorkspacePage) (index : Nat) :
    Leaves s (s.switchSftpTab index) (.switchTab index) := by
  unfold Leaves SftpWorkspacePage.switchSftpTab SftpWorkspacePage.leavesTab
  cases htab : s.tabs[index]? with
  | none =>
    have hout := List.getElem?_eq_none_iff.mp htab
    exact .inr ⟨by simpa using fun hlt => absurd hlt (Nat.not_lt.mpr hout), rfl, rfl⟩
  | some tab =>
    have hlt := (List.getElem?_eq_some_iff.mp htab).1
    by_cases hsame : index = s.activeTabIndex
    · simp [hsame]
    · simp only [if_neg hsame]
      exact .inl ⟨by simp [hlt, hsame], selection_clearSelections⟩

theorem leaves_duplicateTab (s : SftpWorkspacePage) (index : Nat) :
    Leaves s (s.duplicateSftpTab index) (.duplicateTab index) := by
  unfold Leaves SftpWorkspacePage.duplicateSftpTab SftpWorkspacePage.leavesTab
  cases htab : s.tabs[index]? with
  | none => exact .inr ⟨decide_eq_false (Nat.not_lt.mpr (List.getElem?_eq_none_iff.mp htab)), rfl, rfl⟩
  | some tab => exact .inl ⟨decide_eq_true (List.getElem?_eq_some_iff.mp htab).1, selection_clearSelections⟩

theorem leaves_openProfile (s : SftpWorkspacePage) (profile : SshProfile) (existingIndex : Option Nat) :
    Leaves s (s.openProfileInTab profile existingIndex) (.openProfile profile existingIndex) := by
  cases existingIndex with
  | some index => exact leaves_switchTab s index
  | none =>
    unfold Leaves SftpWorkspacePage.openProfileInTab SftpWorkspacePage.leavesTab
    by_cases hnone : (s.activeTab.bind SftpTab.selectedProfile).isNone = true
    · simp only [if_pos hnone]
      exact .inr ⟨by simpa using hnone, rfl, rfl⟩
    · simp only [if_neg hnone]
      exact .inl ⟨by simpa [Option.isSome_iff_ne_none] using hnone, fun isRemote => by cases isRemote <;> rfl⟩

end Pages

theorem Agrees.cleared {s : SftpWorkspacePage} (hcleared : ∀ isRemote, s.selection isRemote = {}) :
    Agrees { page := s } where
  agree pane path _ := by
    simp only [hcleared]
  shown pane path hmem := absurd hmem (Finset.notMem_empty path)

theorem Agrees.kept {s : SftpWorkspacePage} (h : v.Agrees) (hselection : s.selection = v.page.selection)
    (hentries : s.entries = v.page.entries) : Agrees { v with page := s } where
  agree pane path hmem := by
    simp only [hselection]
    exact h.agree pane path (hentries ▸ hmem)
  shown pane path hmem := by
    simp only [hentries]
    exact h.shown pane path hmem

variable {e : SftpPageEvent}

theorem Agrees.leaves {s : SftpWorkspacePage} (h : v.Agrees) (hleaves : Leaves v.page s e)
    (hpicked : v.pickedAfter e = fun pane => if v.page.leavesTab e then {} else v.picked pane) :
    Agrees { page := s, picked := v.pickedAfter e } := by
  rw [hpicked]
  rcases hleaves with ⟨hleft, hcleared⟩ | ⟨hstays, hselection, hentries⟩
  · simp only [hleft, if_true]
    exact .cleared hcleared
  · simp only [hstays, Bool.false_eq_true, if_false]
    exact h.kept hselection hentries

theorem Agrees.controllerChanged (h : v.Agrees) {controller : Nat} {listing : PaneListing}
    (hapart : v.Apart (.controllerChanged controller listing)) :
    Agrees { page := (v.page.withListing controller listing).syncSelectionsWithRows
             picked := v.pickedAfter (.controllerChanged controller listing) } where
  agree pane path hmem := by
    have hentry : path ∈ (v.page.withListing controller listing).entries pane := hmem
    have hold : (v.page.withListing controller listing).selection = v.page.selection := rfl
    simp only [selection_sync, hold, pickedAfter, Selection.sync, Finset.mem_filter, listed_of_mem_entries hentry,
      hentry, decide_true, and_true]
    constructor
    · intro hselected
      exact (h.agree pane path (hapart pane path hselected hentry)).mp hselected
    · intro hpicked
      exact (h.agree pane path (h.shown pane path hpicked)).mpr hpicked
  shown pane path hmem := by
    simp only [pickedAfter, Selection.sync, Finset.mem_filter, decide_eq_true_eq] at hmem
    exact hmem.2

/-- The rule for a click: it is seen in its own pane, and by no other. -/
theorem Agrees.selected (h : v.Agrees) {selected : Selection} {f : Selection → Selection}
    (hown : ∀ path ∈ v.page.entries pane, path ∈ selected.paths ↔ path ∈ (f (v.picked pane)).paths)
    (hshown : ∀ path ∈ (f (v.picked pane)).paths, path ∈ v.page.entries pane)
    (hothers : ∀ other : Pane, other ≠ pane → other.isRemote = pane.isRemote →
      ∀ path ∈ v.page.entries other, path ∈ selected.paths ↔ path ∈ (v.picked other).paths) :
    Agrees { page := v.page.setSelection pane.isRemote selected
             picked := fun other => if other = pane then f (v.picked other) else v.picked other } where
  agree other path hmem := by
    have hentry : path ∈ v.page.entries other := by rwa [entries_setSelection] at hmem
    by_cases hsame : other = pane
    · subst hsame
      simp only [selection_setSelection_self, if_true]
      exact hown path hentry
    · simp only [if_neg hsame]
      by_cases hkind : other.isRemote = pane.isRemote
      · rw [hkind, selection_setSelection_self]
        exact hothers other hsame hkind path hentry
      · rw [selection_setSelection_of_ne hkind]
        exact h.agree other path hentry
  shown other path hmem := by
    rw [entries_setSelection]
    by_cases hsame : other = pane
    · subst hsame
      simp only [if_true] at hmem
      exact hshown path hmem
    · simp only [if_neg hsame] at hmem
      exact h.shown other path hmem

theorem Agrees.rowSelected (h : v.Agrees) {rows : List SftpFileEntry} {index : Nat}
    {additive range : Bool} (hapart : v.Apart (.rowSelected pane rows index additive range))
    (hrows : rows.Perm (v.page.items platform pane)) :
    Agrees { page := v.page.setSelection pane.isRemote
               ((v.page.selection pane.isRemote).handleRowSelected rows index additive range)
             picked := v.pickedAfter (.rowSelected pane rows index additive range) } := by
  obtain ⟨hanchor, hspares⟩ := hapart
  cases hpath : rows[index]?.bind entryPath with
  | none =>
    refine h.selected (f := fun selected => selected.handleRowSelected rows index additive range) ?_ ?_ ?_
    · simpa only [handleRowSelected_of_none hpath] using h.agree pane
    · simpa only [handleRowSelected_of_none hpath] using h.shown pane
    · simpa only [handleRowSelected_of_none hpath] using fun other _ hkind x hx => hkind ▸ h.agree other x hx
  | some path =>
    refine h.selected (f := fun selected => selected.handleRowSelected rows index additive range) ?_ ?_ ?_
    · simp only [handleRowSelected_of_some hpath]
      intro x hx
      exact mem_clickedPaths_congr hanchor (h.agree pane path (entry_of_click hrows hpath)) (h.agree pane x hx)
    · simp only [handleRowSelected_of_some hpath]
      intro x hx
      exact clickedPaths_subset (h.shown pane) (entry_of_click hrows hpath) (fun i j => between_subset hrows) hx
    · simp only [handleRowSelected_of_some hpath]
      intro other hne hkind x hx
      have hbefore : x ∈ (v.page.selection pane.isRemote).paths ↔ x ∈ (v.picked other).paths :=
        hkind ▸ h.agree other x hx
      refine (mem_clickedPaths_of_spared hanchor fun paths hreached => ?_).trans hbefore
      obtain ⟨hlisted, hkept⟩ := hspares path hpath paths hreached other hne hkind
      refine ⟨fun hmem => hlisted x hmem hx, hkept.imp_right fun hempty hmem => ?_⟩
      exact Finset.notMem_empty x (hempty ▸ hbefore.mp hmem)

theorem Agrees.renameStarted (h : v.Agrees) {file : SftpFileEntry}
    (hapart : v.Apart (.renameStarted pane file)) (hfile : file ∈ v.page.items platform pane) :
    Agrees { page := v.page.setSelection pane.isRemote ((v.page.selection pane.isRemote).startInlineRename file)
             picked := v.pickedAfter (.renameStarted pane file) } := by
  refine h.selected (f := fun selected => selected.startInlineRename file) ?_ ?_ ?_
  · unfold Selection.startInlineRename
    cases entryPath file with
    | none => exact h.agree pane
    | some path => exact fun _ _ => Iff.rfl
  · unfold Selection.startInlineRename
    cases hpath : entryPath file with
    | none => exact h.shown pane
    | some path => exact fun x hx => Finset.mem_singleton.mp hx ▸ entry_of_item hfile hpath
  · intro other hne hkind x hx
    unfold Selection.startInlineRename
    cases hpath : entryPath file with
    | none => exact hkind ▸ h.agree other x hx
    | some path =>
      obtain ⟨hlisted, hkept⟩ := hapart path hpath other hne hkind
      have hempty : (v.picked other).paths = ∅ := hkept.resolve_left Bool.false_ne_true
      have hfar : x ≠ path := fun heq => hlisted path (List.mem_singleton_self _) (heq ▸ hx)
      simp [hempty, hfar]

theorem step_eq_some {o : List Unit} (hstep : v.step platform e = some (v', o)) :
    v.page.step platform e = some (v'.page, o) ∧ v' = { page := v'.page, picked := v.pickedAfter e } := by
  obtain ⟨⟨page, o'⟩, hpage, ⟨⟩⟩ := Option.map_eq_some_iff.mp hstep
  exact ⟨hpage, rfl⟩

theorem Agrees.step {o : List Unit} (h : v.Agrees) (hapart : v.Apart e)
    (hstep : v.step platform e = some (v', o)) : v'.Agrees := by
  obtain ⟨hpage, hv⟩ := step_eq_some hstep
  rw [hv]
  cases e with
  | addTab =>
    rw [← (some_mk_inj hpage).1]
    exact h.leaves (.inl ⟨rfl, selection_clearSelections⟩) rfl
  | closeTab index =>
    rw [← (some_mk_inj hpage).1]
    exact h.leaves (leaves_closeTab _ index) rfl
  | switchTab index =>
    rw [← (some_mk_inj hpage).1]
    exact h.leaves (leaves_switchTab _ index) rfl
  | duplicateTab index =>
    rw [← (some_mk_inj hpage).1]
    exact h.leaves (leaves_duplicateTab _ index) rfl
  | openProfile profile existingIndex =>
    rw [← (some_mk_inj hpage).1]
    exact h.leaves (leaves_openProfile _ profile existingIndex) rfl
  | selectProfile profile =>
    rw [← (some_mk_inj hpage).1]
    exact h.kept rfl rfl
  | resetProfile =>
    rw [← (some_mk_inj hpage).1]
    exact h.kept rfl rfl
  | selectLeftProfile profile =>
    rw [← (some_mk_inj hpage).1]
    exact h.kept rfl rfl
  | controllerChanged controller listing =>
    rw [← (some_mk_inj hpage).1]
    exact h.controllerChanged hapart
  | rowSelected pane rows index additive range =>
    simp only [SftpWorkspacePage.step] at hpage
    split at hpage
    case isTrue hrows =>
      rw [← (some_mk_inj hpage).1]
      exact h.rowSelected hapart hrows
    case isFalse => cases hpage
  | renameStarted pane file =>
    simp only [SftpWorkspacePage.step] at hpage
    split at hpage
    case isTrue hfile =>
      rw [← (some_mk_inj hpage).1]
      exact h.renameStarted hapart hfile
    case isFalse => cases hpage

theorem Agrees.dragsPicked (h : v.Agrees) : v.DragsPicked platform := by
  intro pane file hfile hparent
  have hagree (row) (hrow : row ∈ v.page.visibleRows platform pane.isRemote pane.isLeft) :
      (entryPath row).any (· ∈ (v.page.selection pane.isRemote).paths) =
        (entryPath row).any (· ∈ (v.picked pane).paths) := by
    cases hpath : entryPath row with
    | none => rfl
    | some path =>
      have hentry : path ∈ v.page.entries pane := mem_entries.mpr ⟨row, visibleRows_subset _ pane hrow, hpath⟩
      exact decide_eq_decide.mpr (h.agree pane path hentry)
  have hvisible := items_subset v.page pane hfile
  have hpath : entryPath file = file.path := if_neg hparent
  have hrows : (v.page.visibleRows platform pane.isRemote pane.isLeft).filter
        (fun row => (entryPath row).any (· ∈ (v.page.selection pane.isRemote).paths)) =
      (v.page.visibleRows platform pane.isRemote pane.isLeft).filter
        (fun row => (entryPath row).any (· ∈ (v.picked pane).paths)) := List.filter_congr hagree
  unfold SftpWorkspacePage.selectedTransferEntries dragged
  rw [← hagree file hvisible, hpath, ← hrows]
  cases hfilePath : file.path with
  | none => rfl
  | some path =>
    simp only [Option.any_some, decide_eq_true_eq]
    split
    case isFalse => rfl
    case isTrue hselected =>
      -- The dragged entry is one of them.
      have hmem : file ∈ (v.page.visibleRows platform pane.isRemote pane.isLeft).filter
          (fun row => (entryPath row).any (· ∈ (v.page.selection pane.isRemote).paths)) := by
        refine List.mem_filter.mpr ⟨hvisible, ?_⟩
        rw [hpath, hfilePath]
        exact decide_eq_true hselected
      rw [if_neg]
      intro hempty
      rw [List.isEmpty_iff.mp hempty] at hmem
      exact List.not_mem_nil hmem

theorem Agrees.rangeSelects {o : List Unit} (h : v.Agrees) (hapart : v.Apart e)
    (hstep : v.step platform e = some (v', o)) : v.RangeSelects e v' := by
  rintro pane rows index additive rfl path hpath anchor anchorIndex hanchor hfound x hx
  obtain ⟨hpage, _⟩ := step_eq_some hstep
  simp only [SftpWorkspacePage.step] at hpage
  split at hpage
  case isFalse => cases hpage
  case isTrue hrows =>
    rw [← (some_mk_inj hpage).1, entries_setSelection] at hx
    have hpicked : (v.page.selection pane.isRemote).anchor = some anchor := (hapart.1 rfl).trans hanchor
    rw [← (some_mk_inj hpage).1, selection_setSelection_self, handleRowSelected_of_some hpath]
    simp only [Selection.clickedPaths, hpicked, hfound, Finset.mem_union, List.mem_toFinset, mem_between]
    refine or_congr_left ?_
    cases additive with
    | false => simp
    | true => simpa using h.agree pane x hx

/-- As long as the panes do not get in each other's way, a drag from a pane takes what the user has selected in it,
and a range click there selects what lies between its anchor and the clicked row. -/
theorem selections_apart {initialProfile : Option SshProfile} {h : List Unit}
    (hreach : Reaches (step platform) Apart { page := .initState initialProfile } h v) :
    v.DragsPicked platform ∧
      ∀ e v' o, v.Apart e → v.step platform e = some (v', o) → v.RangeSelects e v' := by
  have hagrees : v.Agrees := by
    refine hreach.invariant (I := fun _ v => v.Agrees) (.cleared fun isRemote => ?_)
      fun hbefore hapart hstep => hbefore.step hapart hstep
    cases isRemote <;> rfl
  exact ⟨hagrees.dragsPicked, fun e v' o hapart hstep => hagrees.rangeSelects hapart hstep⟩

def plainEntry (path : String) : SftpFileEntry := { name := path, size := "-", modified := "-", path := some path }

theorem mem_of_reached {selected : Selection} {rows : List SftpFileEntry} {index : Nat} {path x : String}
    {range : Bool} {paths : List String} (hpath : rows[index]?.bind entryPath = some path)
    (hreached : reached selected rows index path range = some paths) (hx : x ∈ paths) :
    x ∈ rows.filterMap entryPath := by
  unfold reached at hreached
  split at hreached
  · obtain ⟨anchorIndex, -, rfl⟩ := Option.map_eq_some_iff.mp hreached
    exact (((List.drop_sublist _ _).trans (List.take_sublist _ _)).filterMap entryPath).subset hx
  · cases hreached
    obtain ⟨row, hrow, hentry⟩ := Option.bind_eq_some_iff.mp hpath
    rw [List.mem_singleton.mp hx]
    exact List.mem_filterMap.mpr ⟨row, List.mem_of_getElem? hrow, hentry⟩

/-- A listing while nothing is selected, and a click on rows of which the other pane lists none. -/
def apartCheck (v : PaneSelections) : SftpPageEvent → Bool
  | .controllerChanged _ _ => decide ((v.page.selection true).paths = ∅) && decide ((v.page.selection false).paths = ∅)
  | .rowSelected pane rows _ additive range =>
    (!range || decide ((v.page.selection pane.isRemote).anchor = (v.picked pane).anchor)) &&
      [Pane.leftLocal, .leftRemote, .right].all fun other => decide (other = pane) ||
        decide (other.isRemote ≠ pane.isRemote) || (rows.filterMap entryPath).all (· ∉ v.page.entries other) &&
          (additive || decide ((v.picked other).paths = ∅))
  | .renameStarted _ _ => false
  | _ => true

theorem apart_of_check (v : PaneSelections) (e : SftpPageEvent) (hcheck : v.apartCheck e = true) : v.Apart e := by
  cases e with
  | controllerChanged controller listing =>
    intro pane path hmem
    simp only [apartCheck, Bool.and_eq_true, decide_eq_true_eq] at hcheck
    cases hremote : pane.isRemote <;> simp [hremote, hcheck] at hmem
  | rowSelected pane rows index additive range =>
    simp only [apartCheck, Bool.and_eq_true, Bool.or_eq_true, Bool.not_eq_true', decide_eq_true_eq,
      List.all_eq_true] at hcheck
    refine ⟨fun hrange => hcheck.1.resolve_left (by simp [hrange]),
      fun path hpath paths hreached other hother hsame => ?_⟩
    have hspares := hcheck.2 other (by cases other <;> decide)
    obtain ⟨hlisted, hpicked⟩ := hspares.resolve_left (by simp [hother, hsame])
    exact ⟨fun x hx => hlisted x (mem_of_reached hpath hreached hx), hpicked⟩
  | renameStarted pane file => cases hcheck
  | _ => trivial

/-- Two files are selected on the right server with a range click, and one is added on the left server: a drag of each
takes what is selected beside it. -/
theorem selections_apart_two : ∃ v : PaneSelections,
    (v.picked .right).paths = {"/a", "/b"} ∧ (v.picked .leftRemote).paths = {"/y"} ∧
    v.page.selectedTransferEntries plainPlatform (plainEntry "/b") true false = [plainEntry "/a", plainEntry "/b"] ∧
    v.page.selectedTransferEntries plainPlatform (plainEntry "/y") true true = [plainEntry "/y"] := by
  obtain ⟨h, v, hreach, hpicked, hright, hleft⟩ := Reaches.exists_of_checkedEvents (step plainPlatform)
    { page := .initState (some (keyProfile "files")) }
    (P := fun v => ((v.picked .right).paths = {"/a", "/b"} ∧ (v.picked .leftRemote).paths = {"/y"}) ∧
      (plainEntry "/b" ∈ v.page.items plainPlatform .right ∧
        dragged (v.page.visibleRows plainPlatform true false) (v.picked .right) (plainEntry "/b") =
          [plainEntry "/a", plainEntry "/b"]) ∧
      plainEntry "/y" ∈ v.page.items plainPlatform .leftRemote ∧
        dragged (v.page.visibleRows plainPlatform true true) (v.picked .leftRemote) (plainEntry "/y") =
          [plainEntry "/y"])
    apartCheck apart_of_check
    [.selectLeftProfile (some (keyProfile "mirror")),
      .controllerChanged 0 { remoteRows := [plainEntry "/a", plainEntry "/b", plainEntry "/c"] },
      .controllerChanged 1 { remoteRows := [plainEntry "/x", plainEntry "/y"] },
      .rowSelected .right [plainEntry "/a", plainEntry "/b", plainEntry "/c"] 0 false false,
      .rowSelected .right [plainEntry "/a", plainEntry "/b", plainEntry "/c"] 1 false true,
      .rowSelected .leftRemote [plainEntry "/x", plainEntry "/y"] 1 true false]
    (by decide)
  have hdrags := (selections_apart hreach).1
  exact ⟨v, hpicked.1, hpicked.2, (hdrags .right _ hright.1 (by decide)).trans hright.2,
    (hdrags .leftRemote _ hleft.1 (by decide)).trans hleft.2⟩

/-- A file is clicked on the left server and one is added on the right server, which has a file of the first one's path:
a drag of the second one takes both. -/
theorem drags_other_pane :
    ∃ h v, Reaches (step plainPlatform) (fun _ _ => True) { page := .initState (some (keyProfile "files")) } h v ∧
      ¬ v.DragsPicked plainPlatform := by
  obtain ⟨h, v, hreach, hshown, htaken⟩ := Reaches.exists_of_events (step plainPlatform)
    { page := .initState (some (keyProfile "files")) }
    (P := fun v => plainEntry "/b" ∈ v.page.items plainPlatform .right ∧
      v.page.selectedTransferEntries plainPlatform (plainEntry "/b") true false ≠
        dragged (v.page.visibleRows plainPlatform true false) (v.picked .right) (plainEntry "/b"))
    [.selectLeftProfile (some (keyProfile "mirror")),
      .controllerChanged 0 { remoteRows := [plainEntry "/a", plainEntry "/b"] },
      .controllerChanged 1 { remoteRows := [plainEntry "/a"] },
      .rowSelected .leftRemote [plainEntry "/a"] 0 false false,
      .rowSelected .right [plainEntry "/a", plainEntry "/b"] 1 true false]
    (by decide)
  exact ⟨h, v, hreach, fun hdrags => htaken (hdrags .right _ hshown (by decide))⟩

end Portix.SftpWorkspace.PaneSelections
