import Portix.Lib.Keyed
import Portix.Terminal.Proofs.PanelRootProofs
import Portix.Terminal.Proofs.PanelSteps

/-!
# How the panel arranges its sessions

The workspaces are separate and made of sessions in the list (`Grouped`), what is shown is the active one
(`Shown`), and the active session is in a pane, alone if one is shown alone (`Arranged`).
-/

namespace Portix.Terminal

open Lib

open Connection (ConnectionManager TerminalSession Hop Connections ConnectionEvent ConnectionObs)

/-- The workspaces have different ids, all given out already, and no session in common. -/
structure Separate (workspaces : List TerminalWorkspaceGroup) (counter : Nat) : Prop where
  apart : Apart TerminalWorkspaceGroup.id (fun workspace => workspace.root.sessionIds) workspaces
  counted : ∀ workspace ∈ workspaces, ∃ n < counter, workspace.id = s!"workspace-{n}"

structure Grouped (workspaces : List TerminalWorkspaceGroup) (counter : Nat) (listed : List String) :
    Prop extends Separate workspaces counter where
  several : ∀ workspace ∈ workspaces, 2 ≤ workspace.root.sessionIds.length
  opened : ∀ workspace ∈ workspaces, ∀ id ∈ workspace.root.sessionIds, id ∈ listed

variable {workspaces : List TerminalWorkspaceGroup} {counter : Nat} {m : ConnectionManager}
  {listed : List String} {workspace : TerminalWorkspaceGroup}

theorem workspaceLabel_injective {n k : Nat} (hsame : s!"workspace-{n}" = s!"workspace-{k}") : n = k := by
  have hrepr : n.repr = k.repr := by simpa using hsame
  have hdigits : n.repr.toList = k.repr.toList := by rw [hrepr]
  unfold Nat.repr at hdigits
  rw [String.toList_ofList, String.toList_ofList] at hdigits
  exact toDigits_injective hdigits

namespace Separate

theorem eq_of_id {other : TerminalWorkspaceGroup} (hseparate : Separate workspaces counter)
    (hmem : workspace ∈ workspaces) (hother : other ∈ workspaces) (hid : workspace.id = other.id) :
    workspace = other :=
  List.inj_on_of_nodup_map hseparate.apart.keys hmem hother hid

theorem shrink {f : TerminalWorkspaceGroup → SplitNode} (hseparate : Separate workspaces counter)
    (hsub : ∀ workspace ∈ workspaces, (f workspace).sessionIds.Sublist workspace.root.sessionIds) :
    Separate (workspaces.map fun workspace => { workspace with root := f workspace }) counter where
  apart := hseparate.apart.shrink (fun _ => rfl) hsub
  counted := by
    intro workspace hmem
    obtain ⟨old, hold, rfl⟩ := List.mem_map.mp hmem
    exact hseparate.counted old hold

theorem insert {root : SplitNode} {id : String} (hseparate : Separate workspaces counter)
    (hmem : workspace ∈ workspaces) (hperm : root.sessionIds.Perm (id :: workspace.root.sessionIds))
    (hfresh : ∀ workspace ∈ workspaces, id ∉ workspace.root.sessionIds) :
    Separate (workspaces.map fun other =>
      { other with root := if other.id = workspace.id then root else other.root }) counter where
  apart := by
    refine hseparate.apart.insert (x := id) hmem (fun _ => rfl) ?_ ?_ ?_
    · intro other hne
      rw [if_neg hne]
    · show (if workspace.id = workspace.id then root else workspace.root).sessionIds.Perm _
      rw [if_pos rfl]
      exact hperm
    · rw [List.mem_flatMap]
      rintro ⟨other, hother, hid⟩
      exact hfresh other hother hid
  counted := by
    intro workspace hmem
    obtain ⟨old, hold, rfl⟩ := List.mem_map.mp hmem
    exact hseparate.counted old hold

theorem concat {root : SplitNode} {label : String} (hseparate : Separate workspaces counter)
    (hnodup : root.sessionIds.Nodup)
    (hfresh : ∀ id ∈ root.sessionIds, ∀ workspace ∈ workspaces, id ∉ workspace.root.sessionIds) :
    Separate (workspaces ++ [⟨s!"workspace-{counter}", label, root⟩]) (counter + 1) where
  apart := by
    refine hseparate.apart.concat ?_ hnodup ?_
    · intro hmem
      obtain ⟨workspace, hworkspace, hid⟩ := List.mem_map.mp hmem
      obtain ⟨n, hless, hn⟩ := hseparate.counted workspace hworkspace
      have hsame : n = counter := workspaceLabel_injective (hn.symm.trans hid)
      omega
    · intro id hmem hold
      obtain ⟨workspace, hworkspace, hid⟩ := List.mem_flatMap.mp hold
      exact hfresh id hmem workspace hworkspace hid
  counted := by
    intro other hmem
    rcases List.mem_append.mp hmem with hold | hnew
    · obtain ⟨n, hless, hn⟩ := hseparate.counted other hold
      exact ⟨n, by omega, hn⟩
    · obtain rfl := List.mem_singleton.mp hnew
      exact ⟨counter, by omega, rfl⟩

theorem pruned (hseparate : Separate workspaces counter)
    (hopened : ∀ workspace ∈ workspaces, 2 ≤ workspace.root.sessionIds.length →
      ∀ id ∈ workspace.root.sessionIds, id ∈ listed) :
    Grouped (workspaces.filter fun workspace => 2 ≤ workspace.root.sessionIds.length) counter listed where
  apart := hseparate.apart.sublist List.filter_sublist
  counted workspace hmem := hseparate.counted workspace (List.mem_of_mem_filter hmem)
  several _ hmem := of_decide_eq_true (List.mem_filter.mp hmem).2
  opened workspace hmem :=
    hopened workspace (List.mem_of_mem_filter hmem) (of_decide_eq_true (List.mem_filter.mp hmem).2)

end Separate

namespace TerminalPanelState

variable {p : TerminalPanelState} {id : String} {session : TerminalSession} {root : SplitNode}

/-- The active workspace is there, and its tree is shown. -/
structure Shown (p : TerminalPanelState) : Prop where
  active : ∀ workspaceId, p.activeWorkspaceId = some workspaceId →
    ∃ workspace ∈ p.workspaces, workspace.id = workspaceId ∧ p.splitRoot = some workspace.root
  flagged : p.workspaceActive = true → p.activeWorkspaceId.isSome = true

/-- What is shown and active is in the list, and no reconnect is in progress. -/
structure Arranged (p : TerminalPanelState) (listed : List String) : Prop where
  idle : p.workspaceReconnectInProgress = false
  grouped : Grouped p.workspaces p.workspaceCounter listed
  shown : Shown p
  panes : ∀ root, p.splitRoot = some root → ∀ id ∈ root.sessionIds, id ∈ listed
  session : ∀ id, p.sessionId = some id → id ∈ listed ∧ id ∈ p.panes
  asleep : p.sessionId = none → p.splitRoot = none
  solo : ∀ solo, p.soloSessionId = some solo → solo ∈ listed ∧ ∀ id, p.sessionId = some id → id = solo

theorem Shown.of_none (hactive : p.activeWorkspaceId = none) (hflag : p.workspaceActive = false) : Shown p where
  active workspaceId hsome := by
    rw [hactive] at hsome
    cases hsome
  flagged htrue := by
    rw [hflag] at htrue
    cases htrue

theorem leaveWorkspace_eq (p : TerminalPanelState) : ∃ active flag,
    p.leaveWorkspace = { p with activeWorkspaceId := active, workspaceActive := flag } := by
  unfold leaveWorkspace
  split
  · exact ⟨none, false, rfl⟩
  · exact ⟨p.activeWorkspaceId, p.workspaceActive, rfl⟩

theorem pruneWorkspaces_eq (p : TerminalPanelState) : ∃ active flag, p.pruneWorkspaces = { p with
      workspaces := p.workspaces.filter fun workspace => 2 ≤ workspace.root.sessionIds.length
      activeWorkspaceId := active
      workspaceActive := flag } :=
  leaveWorkspace_eq { p with
    workspaces := p.workspaces.filter fun workspace => 2 ≤ workspace.root.sessionIds.length }

theorem shown_leaveWorkspace (hflag : p.workspaceActive = true → p.activeWorkspaceId.isSome = true)
    (hroot : ∀ workspace ∈ p.workspaces, p.activeWorkspaceId = some workspace.id →
      p.splitRoot = some workspace.root) : Shown p.leaveWorkspace := by
  unfold leaveWorkspace
  split
  · exact .of_none rfl rfl
  · rename_i hthere
    refine ⟨?_, hflag⟩
    intro workspaceId hactive
    cases hfound : p.activeWorkspace with
    | none => exact absurd ⟨by rw [hactive]; rfl, by rw [hfound]; rfl⟩ hthere
    | some workspace =>
      unfold activeWorkspace at hfound
      rw [hactive, Option.bind_some] at hfound
      have hid : workspace.id = workspaceId := key_of_under hfound
      have hmem : workspace ∈ p.workspaces := mem_of_under hfound
      exact ⟨workspace, hmem, hid, hroot workspace hmem (by rw [hactive, hid])⟩

theorem shown_pruneWorkspaces (hflag : p.workspaceActive = true → p.activeWorkspaceId.isSome = true)
    (hroot : ∀ workspace ∈ p.workspaces, 2 ≤ workspace.root.sessionIds.length →
      p.activeWorkspaceId = some workspace.id → p.splitRoot = some workspace.root) :
    Shown p.pruneWorkspaces := by
  refine shown_leaveWorkspace (p := { p with
    workspaces := p.workspaces.filter fun workspace =>
      2 ≤ workspace.root.sessionIds.length }) hflag ?_
  intro workspace hmem hactive
  obtain ⟨hmem, htwo⟩ := List.mem_filter.mp hmem
  exact hroot workspace hmem (of_decide_eq_true htwo) hactive

theorem reconnecting_pruneWorkspaces (p : TerminalPanelState) :
    p.pruneWorkspaces.workspaceReconnectInProgress = p.workspaceReconnectInProgress := by
  obtain ⟨active, flag, heq⟩ := pruneWorkspaces_eq p
  rw [heq]

theorem grouped_pruneWorkspaces (hseparate : Separate p.workspaces p.workspaceCounter)
    (hopened : ∀ workspace ∈ p.workspaces, 2 ≤ workspace.root.sessionIds.length →
      ∀ id ∈ workspace.root.sessionIds, id ∈ listed) :
    Grouped p.pruneWorkspaces.workspaces p.pruneWorkspaces.workspaceCounter listed := by
  obtain ⟨active, flag, heq⟩ := pruneWorkspaces_eq p
  rw [heq]
  exact hseparate.pruned hopened

theorem Shown.splitRoot_eq (hshown : Shown p) (hseparate : Separate p.workspaces p.workspaceCounter)
    (hmem : workspace ∈ p.workspaces) (hactive : p.activeWorkspaceId = some workspace.id) :
    p.splitRoot = some workspace.root := by
  obtain ⟨other, hother, hid, hroot⟩ := hshown.active workspace.id hactive
  rw [← hseparate.eq_of_id hother hmem hid]
  exact hroot

theorem arranged_showTab (hidle : p.workspaceReconnectInProgress = false)
    (hgrouped : Grouped p.workspaces p.workspaceCounter listed) (hlisted : session.id ∈ listed)
    (hsolo : SoloAt p session.id) : Arranged (p.showTab session) listed where
  idle := hidle
  grouped := hgrouped
  shown := .of_none rfl rfl
  panes root hroot id hmem := by
    cases hroot
    obtain rfl := List.mem_singleton.mp hmem
    exact hlisted
  session id hid := by
    cases hid
    exact ⟨hlisted, List.mem_cons_self⟩
  asleep hnone := by cases hnone
  solo solo hsome := by
    obtain rfl := hsolo solo hsome
    refine ⟨hlisted, ?_⟩
    rintro id ⟨⟩
    rfl

end TerminalPanelState

end Portix.Terminal
