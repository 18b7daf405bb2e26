import Portix.SftpWorkspace.SftpWorkspacePage

/-!
# What is selected in each pane

The page has one set of selected paths for this computer and one for servers. Here every pane has its own: what the
user has selected in it. A drag should take that.
-/

namespace Portix.SftpWorkspace

open Profiles (SshProfile)

namespace SftpWorkspacePage

variable (s : SftpWorkspacePage)

def entries (pane : Pane) : List String :=
  (syncRows (s.listing (s.paneController pane.isLeft)) pane.isRemote).filterMap entryPath

def withListing (controller : Nat) (listing : PaneListing) : SftpWorkspacePage :=
  { s with listings := s.listings.set controller listing }

def leavesTab : SftpPageEvent → Bool
  | .addTab => true
  | .closeTab index => index < s.tabs.length
  | .switchTab index => index < s.tabs.length && index != s.activeTabIndex
  | .duplicateTab index => index < s.tabs.length
  | .openProfile _ (some index) => index < s.tabs.length && index != s.activeTabIndex
  | .openProfile _ none => (s.activeTab.bind SftpTab.selectedProfile).isSome
  | _ => false

end SftpWorkspacePage

open SftpWorkspacePage (Pane)

structure PaneSelections where
  page : SftpWorkspacePage
  picked : Pane → Selection := fun _ => {}

namespace PaneSelections

variable (v : PaneSelections)

/-- What is selected in a pane after an event: a path as long as the pane lists it. -/
def pickedAfter (e : SftpPageEvent) (pane : Pane) : Selection :=
  match e with
  | .controllerChanged controller listing =>
    (v.picked pane).sync fun path => path ∈ (v.page.withListing controller listing).entries pane
  | .rowSelected clicked rows index additive range =>
    if pane = clicked then (v.picked pane).handleRowSelected rows index additive range else v.picked pane
  | .renameStarted clicked file =>
    if pane = clicked then (v.picked pane).startInlineRename file else v.picked pane
  | e => if v.page.leavesTab e then {} else v.picked pane

def step (platform : Platform) (v : PaneSelections) (e : SftpPageEvent) : Option (PaneSelections × List Unit) :=
  (v.page.step platform e).map fun (page, o) => ({ page, picked := v.pickedAfter e }, o)

def dragged (rows : List SftpFileEntry) (selected : Selection) (file : SftpFileEntry) : List SftpFileEntry :=
  if (entryPath file).any (· ∈ selected.paths) then
    rows.filter fun row => (entryPath row).any (· ∈ selected.paths)
  else [file]

/-- A drag from a pane takes what is selected in that pane. -/
def DragsPicked (platform : Platform) (v : PaneSelections) : Prop :=
  ∀ pane, ∀ file ∈ v.page.items platform pane, file.name ≠ ".." →
    v.page.selectedTransferEntries platform file pane.isRemote pane.isLeft =
      dragged (v.page.visibleRows platform pane.isRemote pane.isLeft) (v.picked pane) file

/-- A range click selects the rows from the pane's anchor to the clicked one, and nothing else unless it is additive. -/
def RangeSelects (e : SftpPageEvent) (v' : PaneSelections) : Prop :=
  ∀ pane rows index additive, e = .rowSelected pane rows index additive true →
    ∀ path, rows[index]?.bind entryPath = some path →
      ∀ anchor anchorIndex, (v.picked pane).anchor = some anchor →
        rows.findIdx? (fun row => row.path = some anchor) = some anchorIndex →
        ∀ x ∈ v'.page.entries pane, x ∈ (v'.page.selection pane.isRemote).paths ↔
          additive = true ∧ x ∈ (v.picked pane).paths ∨
            ∃ i row, min anchorIndex index ≤ i ∧ i ≤ max anchorIndex index ∧ rows[i]? = some row ∧
              entryPath row = some x

def reached (selected : Selection) (rows : List SftpFileEntry) (index : Nat) (path : String) (range : Bool) :
    Option (List String) :=
  match range, selected.anchor with
  | true, some anchor =>
    (rows.findIdx? fun row => row.path = some anchor).map (Selection.between rows · index)
  | _, _ => some [path]

/-- Another pane of the same kind lists none of the paths, and if the others are to go, nothing is selected in it. -/
def Spares (pane : Pane) (paths : List String) (additive : Bool) : Prop :=
  ∀ other : Pane, other ≠ pane → other.isRemote = pane.isRemote →
    (∀ path ∈ paths, path ∉ v.page.entries other) ∧ (additive = true ∨ (v.picked other).paths = ∅)

/-- A click on rows that the other pane does not list, with the anchor of its own pane for a range, and nothing selected
in the other pane unless it is additive; and a listing brings no path into a pane that is selected already. -/
def Apart : SftpPageEvent → Prop
  | .controllerChanged controller listing =>
    ∀ pane, ∀ path ∈ (v.page.selection pane.isRemote).paths,
      path ∈ (v.page.withListing controller listing).entries pane → path ∈ v.page.entries pane
  | .rowSelected pane rows index additive range =>
    (range = true → (v.page.selection pane.isRemote).anchor = (v.picked pane).anchor) ∧
      ∀ path, rows[index]?.bind entryPath = some path →
        ∀ paths, reached (v.picked pane) rows index path range = some paths → v.Spares pane paths additive
  | .renameStarted pane file => ∀ path, entryPath file = some path → v.Spares pane [path] false
  | _ => True

end PaneSelections

end Portix.SftpWorkspace
