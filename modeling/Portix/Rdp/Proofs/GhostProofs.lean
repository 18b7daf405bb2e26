import Portix.Rdp.Proofs.CoherenceProofs
import Portix.Rdp.Proofs.SessionStepProofs

/-!
# Proofs: sessions that are gone

Where a connect puts its session in the map before its task has removed it from there, and in the
index before its task has ended its cleanup, nothing is left of a session after that cleanup.
-/

namespace Portix.Rdp

open Lib

variable {id : String}

theorem RdpSession.TaskTaken.not_removed {r r' : RdpSession} {globalCancel : Bool}
    {event : RdpTaskEvent} {o : List RdpObs} (htaken : TaskTaken r id globalCancel event r' o) :
    r'.phase ≠ .unindexing ∧ r'.phase ≠ .cleaned := by
  cases htaken with
  | stopped hopen hcancelled => exact ⟨nofun, nofun⟩
  | shut hopen hglobal => exact ⟨nofun, nofun⟩
  | wentOn event hphase hturn => exact ⟨nofun, nofun⟩
  | returned event hphase hturn => exact ⟨nofun, nofun⟩
  | reportedOk hphase => exact ⟨nofun, nofun⟩
  | reportedError hphase => exact ⟨nofun, nofun⟩
  | reportedStatus hphase => exact ⟨nofun, nofun⟩

theorem RdpSession.TaskTaken.not_cleaned {r r' : RdpSession} {globalCancel : Bool}
    {event : RdpTaskEvent} {o : List RdpObs} (htaken : TaskTaken r id globalCancel event r' o) :
    r.phase ≠ .cleaned := by
  intro hcleaned
  cases htaken with
  | stopped hopen hcancelled =>
    rw [hcleaned] at hopen
    cases hopen
  | shut hopen hglobal =>
    rw [hcleaned] at hopen
    cases hopen
  | wentOn event hphase hturn => exact nomatch hcleaned.symm.trans hphase
  | returned event hphase hturn => exact nomatch hcleaned.symm.trans hphase
  | reportedOk hphase => exact nomatch hcleaned.symm.trans hphase
  | reportedError hphase => exact nomatch hcleaned.symm.trans hphase
  | reportedStatus hphase => exact nomatch hcleaned.symm.trans hphase

namespace RdpManager

variable {s s' : RdpManager} {event : RdpEvent} {o : List RdpObs}

theorem cleaned_stays (hcleaned : (s.sessions id).phase = .cleaned) (htaken : Taken s event s' o) :
    (s'.sessions id).phase = .cleaned := by
  have hsession := session_of_taken htaken id
  generalize s'.sessions id = r at hsession ⊢
  cases hsession with
  | told event htells ho => rw [htells.phase, hcleaned]
  | made hphase => exact nomatch hcleaned.symm.trans hphase
  | inserted hcall => exact hcleaned
  | task htaken => exact absurd hcleaned htaken.not_cleaned
  | removed hphase => exact nomatch hcleaned.symm.trans hphase
  | cleaned hphase => rfl

theorem index_of_taken {profileId id : String} (htaken : Taken s event s' o)
    (hindex : s'.index profileId = some id) : s.index profileId = some id ∨
      ∃ c profile, event = .advance c ∧ s.calls c = .inserted profile id := by
  cases htaken with
  | unindexedStale hcall => exact Or.inl (index_of_setIndex_none hindex)
  | @indexed c profile id' o hcall ho =>
    have hnow : (s.setIndex profile.id (some id')).index profileId = some id := hindex
    by_cases hid : profileId = profile.id
    · subst hid
      rw [setIndex_self] at hnow
      cases hnow
      exact Or.inr ⟨c, profile, rfl, hcall⟩
    · rw [setIndex_of_ne hid] at hnow
      exact Or.inl hnow
  | unindexed hcall => exact Or.inl (index_of_setIndex_none hindex)
  | cleared hcall => cases hindex
  | cleaned hphase => exact Or.inl (index_of_setIndex_none hindex)
  | _ => exact Or.inl hindex

/-- What is left of sessions whose tasks have removed them. -/
structure Gone (s : RdpManager) : Prop where
  unlisted : ∀ id, (s.sessions id).phase = .unindexing ∨ (s.sessions id).phase = .cleaned →
    (s.sessions id).handle ≠ .listed
  unindexed : ∀ id profileId, (s.sessions id).phase = .cleaned → s.index profileId ≠ some id

theorem unlist_not_listed (r : RdpSession) : r.unlist.handle ≠ .listed := by
  unfold RdpSession.unlist
  by_cases hlisted : r.handle = .listed
  · rw [if_pos hlisted]
    nofun
  · rwa [if_neg hlisted]

theorem Gone.unlisted_step (hinv : Gone s) (hguard : s.InsertsInTime event) (htaken : Taken s event s' o) (id : String)
    (hphase : (s'.sessions id).phase = .unindexing ∨ (s'.sessions id).phase = .cleaned) :
    (s'.sessions id).handle ≠ .listed := by
  have hsession := session_of_taken htaken id
  generalize s'.sessions id = r at hsession hphase ⊢
  cases hsession with
  | told event htells ho =>
    rw [htells.phase] at hphase
    exact fun hlisted => hinv.unlisted id hphase (htells.listed hlisted)
  | made habsent => exact nofun
  | @inserted profile c hcall =>
    unfold InsertsInTime at hguard
    dsimp only at hguard
    rw [hcall] at hguard
    exact absurd hphase (not_or.mpr hguard)
  | task htask => exact absurd hphase (not_or.mpr htask.not_removed)
  | removed hleaving => exact unlist_not_listed _
  | cleaned hunindexing => exact hinv.unlisted id (Or.inl hunindexing)

theorem Gone.unindexed_step (hinv : Gone s) (hcoherent : Coherent s)
    (hguard : s.InsertsInTime event) (htaken : Taken s event s' o) (id profileId : String)
    (hcleaned : (s'.sessions id).phase = .cleaned) : s'.index profileId ≠ some id := by
  intro hindex
  by_cases hwas : (s.sessions id).phase = .cleaned
  · rcases index_of_taken htaken hindex with hold | ⟨c, profile, rfl, hcall⟩
    · exact hinv.unindexed id profileId hwas hold
    · unfold InsertsInTime at hguard
      dsimp only at hguard
      rw [hcall] at hguard
      exact hguard hwas
  · -- the cleanup ends with this step, which removes the entry of its own profile
    have hsession := session_of_taken htaken id
    generalize s'.sessions id = r at hsession hcleaned
    cases hsession with
    | told event htells ho => exact hwas (htells.phase ▸ hcleaned)
    | made hphase => cases hcleaned
    | inserted hcall => exact hwas hcleaned
    | task htask => exact htask.not_removed.2 hcleaned
    | removed hphase => cases hcleaned
    | cleaned hphase =>
      cases htaken with
      | task hstep => cases RdpSession.taskTaken_of_step hstep
      | cleaned _ =>
        have hown : s.profileOf id = profileId :=
          (hcoherent.entry profileId id (index_of_setIndex_none hindex)).2
        have hnow : (s.setIndex (s.profileOf id) none).index profileId = some id := hindex
        rw [hown, setIndex_self] at hnow
        cases hnow

theorem gone_run {h : List RdpObs} (hreach : Reaches rdpStep InsertsInTime .initial h s) : Coherent s ∧ Gone s := by
  have hstart : Coherent .initial ∧ Gone .initial :=
    ⟨coherent_run (G := InsertsInTime) .start, fun id hphase => nofun, fun id profileId => nofun⟩
  refine hreach.invariant (I := fun _ s => Coherent s ∧ Gone s) hstart ?_
  intro h s event s' o hinv hguard hstep
  have htaken := taken_of_step hstep
  exact ⟨hinv.1.step htaken, hinv.2.unlisted_step hguard htaken, hinv.2.unindexed_step hinv.1 hguard htaken⟩

theorem cleaned_run {G : RdpManager → RdpEvent → Prop} {h : List RdpObs}
    (hcleaned : (s.sessions id).phase = .cleaned) (hreach : Reaches rdpStep G s h s') :
    (s'.sessions id).phase = .cleaned :=
  hreach.invariant (I := fun _ s => (s.sessions id).phase = .cleaned) hcleaned
    fun hwas _ hstep => cleaned_stays hwas (taken_of_step hstep)

end RdpManager

open RdpManager

/-- Where connects insert their sessions in time, nothing is left of a session whose task has ended
its cleanup, from then on. -/
theorem no_ghost_sessions (h : List RdpObs) (s : RdpManager)
    (hreach : Reaches rdpStep InsertsInTime .initial h s) (id : String)
    (hcleaned : (s.sessions id).phase = .cleaned) (h' : List RdpObs) (s' : RdpManager)
    (hlater : Reaches rdpStep InsertsInTime s h' s') :
    s'.isSessionActive id = false ∧
      ∀ profileId, s'.activeSessionForProfile profileId ≠ some id := by
  have hgone := (gone_run (hreach.trans hlater)).2
  have hstill := cleaned_run hcleaned hlater
  refine ⟨?_, fun profileId => hgone.unindexed id profileId hstill⟩
  have hhandle := hgone.unlisted id (Or.inr hstill)
  simpa [isSessionActive] using hhandle

/-- A session whose connect fails leaves nothing behind. -/
theorem no_ghost_sessions_failed : ∃ h s, Reaches rdpStep InsertsInTime .initial h s ∧
    finalStatuses "a" h = [.error] ∧ s.isSessionActive "a" = false ∧
    s.activeSessionForProfile "p" ≠ some "a" := by
  have hstart : Reaches rdpStep InsertsInTime .initial [] .initial := .start
  have hbegun := hstart.next (e := RdpEvent.begin (.connect deskProfile)) trivial rfl
  have hchecked := hbegun.next (e := RdpEvent.advance 0) trivial rfl
  have hmade := hchecked.next (e := RdpEvent.create 0 "a") trivial rfl
  have hlisted := hmade.next (e := RdpEvent.advance 0) ⟨nofun, nofun⟩ rfl
  have hindexed := hlisted.next (e := RdpEvent.advance 0) nofun rfl
  have htask : ∀ (s : RdpManager) (events : List RdpTaskEvent), ∀ event ∈ events.map (.task "a"),
      s.InsertsInTime event := by
    intro s events event hmem
    obtain ⟨_, -, rfl⟩ := List.mem_map.mp hmem
    exact trivial
  have hcleaned := Reaches.of_runEvents (List.map (.task "a") [.runtime .check, .runtime .check,
    .runtime (.connect (.error .connectionTimeout)), .report, .report, .remove, .unindex])
    (fun s event hmem => htask s _ event hmem) hindexed rfl
  have hgone := no_ghost_sessions _ _ hcleaned "a" rfl _ _ .start
  exact ⟨_, _, hcleaned, rfl, hgone.1, hgone.2 "p"⟩

/-- A session whose connect fails before its entries are inserted stays in the map. -/
theorem ghost_session : ¬ ∀ h s, Reaches rdpStep (fun _ _ => True) .initial h s → ∀ id,
    (s.sessions id).phase = .cleaned →
      s.isSessionActive id = false ∧ ∀ profileId, s.activeSessionForProfile profileId ≠ some id := by
  intro hclaim
  have hstart : Reaches rdpStep (fun _ _ => True) .initial [] .initial := .start
  have hreach := Reaches.of_runEvents [.begin (.connect deskProfile), .advance 0, .create 0 "a",
    .task "a" (.runtime .check), .task "a" (.runtime .check),
    .task "a" (.runtime (.connect (.error .connectionTimeout))), .task "a" .report,
    .task "a" .report, .task "a" .remove, .task "a" .unindex, .advance 0, .advance 0]
    (fun _ _ _ => trivial) hstart rfl
  exact absurd (hclaim _ _ hreach "a" rfl).1 (by decide)

end Portix.Rdp
