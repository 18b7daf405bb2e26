import Mathlib.Data.Finset.Basic
import Portix.SftpWorkspace.SftpWorkspaceController

/-!
# The SFTP page

The tabs of `sftp_workspace_page.dart` and what is selected in its panes. A controller is the number with which
`_newController` made it; the page reads of it what it lists.
-/

namespace Portix.SftpWorkspace

open Lib

open Profiles (SshProfile)

deriving instance DecidableEq for SftpFileEntry

structure PaneListing where
  localRows : List SftpFileEntry := []
  localSearchQuery : String := ""
  remoteRows : List SftpFileEntry := []
  remoteSearchQuery : String := ""
  remoteSearchRows : List SftpFileEntry := []

def matchesLocalSearch (platform : Platform) (row : SftpFileEntry) (query : String) : Bool :=
  let normalized := platform.toLowerCase (dartTrim query)
  let contains (text : String) : Bool := decide (normalized.toList <:+: (platform.toLowerCase text).toList)
  decide (row.name = "..") || decide (normalized = "") || contains row.name ||
    (row.location.map contains).getD false || contains row.type

namespace PaneListing

def localVisibleRows (platform : Platform) (l : PaneListing) : List SftpFileEntry :=
  if dartTrim l.localSearchQuery ≠ "" then
    l.localRows.filter fun row => matchesLocalSearch platform row l.localSearchQuery
  else l.localRows

def remoteVisibleRows (l : PaneListing) : List SftpFileEntry :=
  if dartTrim l.remoteSearchQuery ≠ "" then l.remoteSearchRows else l.remoteRows

def clearRemote (l : PaneListing) : PaneListing :=
  { l with remoteRows := [], remoteSearchQuery := "", remoteSearchRows := [] }

end PaneListing

/-- The paths of a set of selected rows and the row where a range starts: `_selectedLocalPaths` with
`_localSelectionAnchor`, or `_selectedRemotePaths` with `_remoteSelectionAnchor`. -/
structure Selection where
  paths : Finset String := ∅
  anchor : Option String := none

/-- The path of a row that can be selected: any but the one that leads to the parent. -/
def entryPath (row : SftpFileEntry) : Option String := if row.name = ".." then none else row.path

namespace Selection

/-- The paths of the rows from one place to another, whichever comes first. -/
def between (rows : List SftpFileEntry) (anchorIndex index : Nat) : List String :=
  ((rows.take (max anchorIndex index + 1)).drop (min anchorIndex index)).filterMap entryPath

variable (selected : Selection)

def clickedPaths (rows : List SftpFileEntry) (index : Nat) (path : String)
    (additive range : Bool) : Finset String :=
  match range, selected.anchor with
  | true, some anchor =>
    match rows.findIdx? fun row => row.path = some anchor with
    | some anchorIndex =>
      (if additive then selected.paths else ∅) ∪ (between rows anchorIndex index).toFinset
    | none => selected.paths
  | _, _ =>
    if additive then
      if path ∈ selected.paths then selected.paths.erase path else insert path selected.paths
    else {path}

def handleRowSelected (rows : List SftpFileEntry) (index : Nat)
    (additive range : Bool) : Selection :=
  match rows[index]?.bind entryPath with
  | none => selected
  | some path => { paths := selected.clickedPaths rows index path additive range, anchor := some path }

def startInlineRename (file : SftpFileEntry) : Selection :=
  match entryPath file with
  | none => selected
  | some path => { paths := {path}, anchor := some path }

def sync (listed : String → Bool) : Selection where
  paths := selected.paths.filter fun path => listed path
  anchor := selected.anchor.filter listed

end Selection

/-- A tab of the right pane. -/
structure SftpTab where
  controller : Nat
  label : String
  selectedProfile : Option SshProfile := none

/-- The tabs, the two panes, and what is selected in them. -/
structure SftpWorkspacePage where
  listings : List PaneListing
  tabs : List SftpTab
  activeTabIndex : Nat := 0
  controller : Nat
  leftController : Nat
  leftSelectedProfile : Option SshProfile := none
  localSelection : Selection := {}
  remoteSelection : Selection := {}

namespace SftpWorkspacePage

def initState (initialProfile : Option SshProfile) : SftpWorkspacePage where
  listings := [{}, {}]
  tabs := [{ controller := 0, label := "SFTP 1", selectedProfile := initialProfile }]
  controller := 0
  leftController := 1

def activeTab (s : SftpWorkspacePage) : Option SftpTab := s.tabs[s.activeTabIndex]?

def nextController (s : SftpWorkspacePage) : Nat := s.listings.length

def clearSelections (s : SftpWorkspacePage) : SftpWorkspacePage :=
  { s with localSelection := {}, remoteSelection := {} }

def tabLabel (tabs : List SftpTab) : String := "SFTP " ++ toString (tabs.length + 1)

def addSftpTab (s : SftpWorkspacePage) : SftpWorkspacePage :=
  clearSelections { s with
    listings := s.listings ++ [{}]
    tabs := s.tabs ++ [{ controller := s.nextController, label := tabLabel s.tabs }]
    activeTabIndex := s.tabs.length
    controller := s.nextController }

def remainingTabs (s : SftpWorkspacePage) (index : Nat) : List SftpTab :=
  if (s.tabs.eraseIdx index).isEmpty then [{ controller := s.nextController, label := "SFTP 1" }]
  else s.tabs.eraseIdx index

def remainingActive (s : SftpWorkspacePage) (index : Nat) : Nat :=
  if (s.remainingTabs index).length ≤ s.activeTabIndex then (s.remainingTabs index).length - 1
  else s.activeTabIndex

def closeSftpTab (s : SftpWorkspacePage) (index : Nat) : SftpWorkspacePage :=
  if s.tabs.length ≤ index then s
  else
    clearSelections { s with
      listings := (if (s.tabs.eraseIdx index).isEmpty then s.listings ++ [{}] else s.listings).modify
        s.leftController PaneListing.clearRemote
      tabs := s.remainingTabs index
      activeTabIndex := s.remainingActive index
      controller := (((s.remainingTabs index)[s.remainingActive index]?).map SftpTab.controller).getD s.controller
      leftSelectedProfile := none }

def switchSftpTab (s : SftpWorkspacePage) (index : Nat) : SftpWorkspacePage :=
  match s.tabs[index]? with
  | none => s
  | some tab =>
    if index = s.activeTabIndex then s
    else clearSelections { s with activeTabIndex := index, controller := tab.controller }

def duplicateSftpTab (s : SftpWorkspacePage) (index : Nat) : SftpWorkspacePage :=
  match s.tabs[index]? with
  | none => s
  | some sourceTab =>
    clearSelections { s with
      listings := s.listings ++ [{}]
      tabs := s.tabs.insertIdx (index + 1)
        { controller := s.nextController, label := tabLabel s.tabs, selectedProfile := sourceTab.selectedProfile }
      activeTabIndex := index + 1
      controller := s.nextController }

def setProfile (s : SftpWorkspacePage) (profile : Option SshProfile) : SftpWorkspacePage :=
  { s with tabs := s.tabs.modify s.activeTabIndex fun tab => { tab with selectedProfile := profile } }

/-- `_openProfileInTab` after the frame, with the tab that had the profile when it was called. -/
def openProfileInTab (s : SftpWorkspacePage) (profile : SshProfile) (existingIndex : Option Nat) :
    SftpWorkspacePage :=
  match existingIndex with
  | some index => s.switchSftpTab index
  | none =>
    if (s.activeTab.bind SftpTab.selectedProfile).isNone then s.setProfile (some profile)
    else s.addSftpTab.setProfile (some profile)

def listing (s : SftpWorkspacePage) (controller : Nat) : PaneListing := s.listings.getD controller {}

def paneController (s : SftpWorkspacePage) (isLeft : Bool) : Nat :=
  if isLeft then s.leftController else s.controller

def selection (s : SftpWorkspacePage) (isRemote : Bool) : Selection :=
  if isRemote then s.remoteSelection else s.localSelection

def setSelection (s : SftpWorkspacePage) (isRemote : Bool) (selected : Selection) : SftpWorkspacePage :=
  if isRemote then { s with remoteSelection := selected } else { s with localSelection := selected }

def syncRows (l : PaneListing) (isRemote : Bool) : List SftpFileEntry :=
  if isRemote then l.remoteVisibleRows else l.localRows

def listed (s : SftpWorkspacePage) (isRemote : Bool) (path : String) : Bool :=
  (syncRows (s.listing s.leftController) isRemote ++ syncRows (s.listing s.controller) isRemote).any
    fun row => row.path = some path

def syncSelectionsWithRows (s : SftpWorkspacePage) : SftpWorkspacePage :=
  { s with
    localSelection := s.localSelection.sync (s.listed false)
    remoteSelection := s.remoteSelection.sync (s.listed true) }

def visibleRows (platform : Platform) (s : SftpWorkspacePage) (isRemote isLeft : Bool) : List SftpFileEntry :=
  if isRemote then (s.listing (s.paneController isLeft)).remoteVisibleRows
  else (s.listing (s.paneController isLeft)).localVisibleRows platform

def selectedTransferEntries (platform : Platform) (s : SftpWorkspacePage) (file : SftpFileEntry)
    (isRemote isLeft : Bool) : List SftpFileEntry :=
  match file.path with
  | none => [file]
  | some path =>
    if path ∈ (s.selection isRemote).paths then
      let entries := (s.visibleRows platform isRemote isLeft).filter fun row =>
        (entryPath row).any (· ∈ (s.selection isRemote).paths)
      if entries.isEmpty then [file] else entries
    else [file]

/-- A pane of the page: the left one, as long as it shows this computer or as long as it shows a server, and the
right one. -/
inductive Pane where
  | leftLocal
  | leftRemote
  | right
  deriving DecidableEq

namespace Pane

def isLeft : Pane → Bool
  | .right => false
  | _ => true

def isRemote : Pane → Bool
  | .leftLocal => false
  | _ => true

end Pane

/-- The items of a pane that is shown; they are shown in the order that is picked in it. -/
def items (platform : Platform) (s : SftpWorkspacePage) : Pane → List SftpFileEntry
  | .leftLocal => if s.leftSelectedProfile.isNone then s.visibleRows platform false true else []
  | .leftRemote => if s.leftSelectedProfile.isNone then [] else s.visibleRows platform true true
  | .right => if (s.activeTab.bind SftpTab.selectedProfile).isNone then [] else s.visibleRows platform true false

end SftpWorkspacePage

/-- What happens on the page. The rows of a click are those that the pane shows. -/
inductive SftpPageEvent where
  | addTab
  | closeTab (index : Nat)
  | switchTab (index : Nat)
  | duplicateTab (index : Nat)
  | selectProfile (profile : SshProfile)
  | resetProfile
  | openProfile (profile : SshProfile) (existingIndex : Option Nat)
  | selectLeftProfile (profile : Option SshProfile)
  | controllerChanged (controller : Nat) (listing : PaneListing)
  | rowSelected (pane : SftpWorkspacePage.Pane) (rows : List SftpFileEntry) (index : Nat) (additive range : Bool)
  | renameStarted (pane : SftpWorkspacePage.Pane) (file : SftpFileEntry)

namespace SftpWorkspacePage

def step (platform : Platform) (s : SftpWorkspacePage) : SftpPageEvent → Option (SftpWorkspacePage × List Unit)
  | .addTab => some (s.addSftpTab, [])
  | .closeTab index => some (s.closeSftpTab index, [])
  | .switchTab index => some (s.switchSftpTab index, [])
  | .duplicateTab index => some (s.duplicateSftpTab index, [])
  | .selectProfile profile => some (s.setProfile (some profile), [])
  | .resetProfile => some (s.setProfile none, [])
  | .openProfile profile existingIndex => some (s.openProfileInTab profile existingIndex, [])
  | .selectLeftProfile profile => some ({ s with leftSelectedProfile := profile }, [])
  | .controllerChanged controller listing =>
    some (syncSelectionsWithRows { s with listings := s.listings.set controller listing }, [])
  | .rowSelected pane rows index additive range =>
    if rows.Perm (s.items platform pane) then
      some (s.setSelection pane.isRemote
        ((s.selection pane.isRemote).handleRowSelected rows index additive range), [])
    else none
  | .renameStarted pane file =>
    if file ∈ s.items platform pane then
      some (s.setSelection pane.isRemote ((s.selection pane.isRemote).startInlineRename file), [])
    else none

end SftpWorkspacePage

end Portix.SftpWorkspace
