import Portix.Connection.Proofs.ConnectionsProofs

/-!
# The list of terminal sessions

Which sessions are in the list, and their profiles (`entries`), changes only when one is added or closed,
and then the manager notifies its listeners (`ListChange`).
-/

namespace Portix.Connection

open Ssh (ConnectionStatus ConnectionStatusEvent)

namespace ConnectionManager

variable {m : ConnectionManager} {id : String}

def entries (m : ConnectionManager) : List (String × String) :=
  m.sessions.map fun session => (session.id, session.profileId)

theorem ids_eq_entries : m.ids = m.entries.map Prod.fst := by
  unfold ids entries
  rw [List.map_map]
  rfl

theorem mem_ids_of_entries {profileId : String} (hmem : (id, profileId) ∈ m.entries) : id ∈ m.ids := by
  rw [ids_eq_entries]
  exact List.mem_map_of_mem (f := Prod.fst) hmem

theorem entries_map {f : TerminalSession → TerminalSession} (hid : ∀ session, (f session).id = session.id)
    (hprofile : ∀ session, (f session).profileId = session.profileId) :
    ({ m with sessions := m.sessions.map f } : ConnectionManager).entries = m.entries := by
  unfold entries
  rw [List.map_map]
  apply List.map_congr_left
  intro session _
  show ((f session).id, (f session).profileId) = (session.id, session.profileId)
  rw [hid, hprofile]

theorem entries_setStatus (status : ConnectionStatus) : (m.setStatus id status).entries = m.entries := by
  apply entries_map
  · intro session
    split
    · rfl
    · rfl
  · intro session
    split
    · rfl
    · rfl

theorem entries_renameSession (title : String) : (m.renameSession id title).entries = m.entries := by
  unfold renameSession
  split
  · rfl
  · apply entries_map
    · intro session
      split
      · rfl
      · rfl
    · intro session
      split
      · rfl
      · rfl

theorem entries_startRecording (path : String) : (m.startRecording id path).entries = m.entries := by
  unfold startRecording
  split
  · rfl
  · rfl

theorem entries_setFailed : (m.setFailed id).1.entries = m.entries := by
  unfold setFailed
  split
  · exact entries_setStatus .error
  · rfl

theorem entries_handleStatus (event : ConnectionStatusEvent) : (m.handleStatus event).1.entries = m.entries := by
  unfold handleStatus
  split
  · split
    · rfl
    · rfl
  · unfold handleSessionStatus
    split
    · rfl
    · exact entries_setStatus event.status

theorem entries_probeSession (failure : Option String) : (m.probeSession id failure).1.entries = m.entries := by
  cases failure with
  | none => rfl
  | some message =>
    show ((m.endProbe id).markSessionDead id message).1.entries = m.entries
    unfold markSessionDead
    split
    · rfl
    · split
      · exact entries_setStatus .error
      · rfl

theorem entries_addSession (profile : Hop) : (m.addSession id profile).entries = m.entries ++ [(id, profile.id)] := by
  unfold addSession entries
  rw [List.map_append, List.map_singleton]

theorem entries_closeSession : (m.closeSession id).1.entries = m.entries.filter fun entry => entry.1 ≠ id := by
  cases hsession : m.sessionById id with
  | none =>
    rw [closeSession_of_none hsession]
    refine (List.filter_eq_self.mpr ?_).symm
    intro entry hmem
    apply decide_eq_true
    rintro rfl
    exact sessionById_eq_none.mp hsession (mem_ids_of_entries hmem)
  | some session =>
    unfold closeSession
    rw [hsession]
    exact (List.filter_map (f := fun session : TerminalSession => (session.id, session.profileId))
      (p := fun entry => decide (entry.1 ≠ id))).symm

end ConnectionManager

namespace Connections

variable {s s' : Connections} {o : List ConnectionObs} {event : ConnectionEvent} {id : String}

/-- A session is added to the list, with a new id, or one is closed. -/
inductive ListChange (s s' : Connections) (notified : Bool) : Prop where
  | same (hentries : s'.manager.entries = s.manager.entries) (hused : s.used ⊆ s'.used)
  | added {id profileId : String} (hfresh : id ∉ s.used)
      (hentries : s'.manager.entries = s.manager.entries ++ [(id, profileId)])
      (hused : s'.used = s.used ++ [id]) (hnotified : notified = true)
  | closed {id : String} (hentries : s'.manager.entries = s.manager.entries.filter fun entry => entry.1 ≠ id)
      (hused : s'.used = s.used) (hnotified : notified = true)

namespace ListChange

variable {notified : Bool}

theorem used (hchange : ListChange s s' notified) : s.used ⊆ s'.used := by
  cases hchange with
  | same hentries hused => exact hused
  | added hfresh hentries hused hnotified =>
    rw [hused]
    exact List.subset_append_left _ _
  | closed hentries hused hnotified =>
    rw [hused]
    exact List.Subset.refl _

theorem entries {entry : String × String} (hchange : ListChange s s' notified) (hmem : entry ∈ s'.manager.entries) :
    entry ∈ s.manager.entries ∨ entry.1 ∉ s.used ∧ entry.1 ∈ s'.used := by
  cases hchange with
  | same hentries hused =>
    rw [hentries] at hmem
    exact .inl hmem
  | @added id profileId hfresh hentries hused hnotified =>
    rw [hentries, List.mem_append, List.mem_singleton] at hmem
    rcases hmem with hold | rfl
    · exact .inl hold
    · rw [hused]
      exact .inr ⟨hfresh, List.mem_append_right _ List.mem_cons_self⟩
  | closed hentries hused hnotified =>
    rw [hentries] at hmem
    exact .inl (List.mem_of_mem_filter hmem)

theorem ids (hchange : ListChange s s' notified) (hmem : id ∈ s'.manager.ids) :
    id ∈ s.manager.ids ∨ id ∉ s.used ∧ id ∈ s'.used := by
  rw [ConnectionManager.ids_eq_entries, List.mem_map] at hmem
  obtain ⟨entry, hentry, rfl⟩ := hmem
  exact (hchange.entries hentry).imp_left ConnectionManager.mem_ids_of_entries

end ListChange

theorem listChange_connect (profile : Hop) (hfresh : id ∉ s.used) :
    ListChange s (s.connect id profile).1 (s.notifies (.connect id profile)) := by
  unfold connect
  split
  · exact .same rfl (List.subset_append_left _ _)
  · rename_i hfilled
    exact .added hfresh (ConnectionManager.entries_addSession profile) rfl
      (decide_eq_true (not_or.mp hfilled))

theorem listChange_closeSession (id : String) :
    ListChange s (s.withManager (s.manager.closeSession id)).1 (s.notifies (.closeSession id)) := by
  cases hsession : s.manager.sessionById id with
  | none =>
    refine .same ?_ (List.Subset.refl _)
    show (s.manager.closeSession id).1.entries = s.manager.entries
    rw [ConnectionManager.closeSession_of_none hsession]
  | some session =>
    refine .closed ConnectionManager.entries_closeSession rfl ?_
    show (s.manager.sessionById id).isSome = true
    rw [hsession]
    rfl

theorem listChange_withManager {m : ConnectionManager} {b : Bool}
    (hentries : m.entries = s.manager.entries) : ListChange s (s.withManager (m, o)).1 b :=
  .same hentries (List.Subset.refl _)

theorem entries_of_taken (htaken : Taken s event s' o) (hconnect : ∀ id profile, event ≠ .connect id profile)
    (hclose : ∀ id, event ≠ .closeSession id) :
    s'.manager.entries = s.manager.entries ∧ s.used ⊆ s'.used := by
  cases htaken with
  | blank hfresh => exact absurd rfl (hconnect _ _)
  | connect hfresh => exact absurd rfl (hconnect _ _)
  | @failed event c call reply hat hphase hreply =>
    unfold failed
    split
    · exact ⟨ConnectionManager.entries_setFailed, List.Subset.refl _⟩
    · exact ⟨rfl, List.Subset.refl _⟩
  | accept hat hreply hfresh => exact ⟨rfl, List.subset_append_left _ _⟩
  | status hstatuses => exact ⟨ConnectionManager.entries_handleStatus _, List.Subset.refl _⟩
  | closeSession id => exact absurd rfl (hclose id)
  | renameSession id title => exact ⟨ConnectionManager.entries_renameSession title, List.Subset.refl _⟩
  | probe id failure => exact ⟨ConnectionManager.entries_probeSession failure, List.Subset.refl _⟩
  | openCommandSession | asked | refuse | emit | replyTab | replyCommand | late | disconnect | heartbeat =>
    exact ⟨rfl, List.Subset.refl _⟩

theorem listChange_of_step (hstep : s.step event = some (s', o)) : ListChange s s' (s.notifies event) := by
  by_cases hconnect : ∃ id profile, event = .connect id profile
  · obtain ⟨id, profile, rfl⟩ := hconnect
    simp only [step] at hstep
    split at hstep
    · cases hstep
    · rename_i hfresh
      have hnext : (s.connect id profile).1 = s' := congrArg Prod.fst (Option.some.inj hstep)
      rw [← hnext]
      exact listChange_connect profile hfresh
  · by_cases hclose : ∃ id, event = .closeSession id
    · obtain ⟨id, rfl⟩ := hclose
      have hnext : (s.withManager (s.manager.closeSession id)).1 = s' :=
        congrArg Prod.fst (Option.some.inj hstep)
      rw [← hnext]
      exact listChange_closeSession id
    · obtain ⟨hentries, hused⟩ := entries_of_taken (taken_of_step hstep)
        (fun id profile heq => hconnect ⟨id, profile, heq⟩) (fun id heq => hclose ⟨id, heq⟩)
      exact .same hentries hused

end Connections

end Portix.Connection
