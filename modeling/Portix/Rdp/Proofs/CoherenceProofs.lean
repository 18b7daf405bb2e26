import Portix.Rdp.Proofs.RdpStepProofs

/-!
# Proofs: what holds between the calls and the sessions

What holds of the RDP session manager in every run, however its calls and tasks are scheduled: whose
session a connect has made, where the handle of a session is, and what the index may name.
-/

namespace Portix.Rdp

open Lib

namespace CallPhase

def made : CallPhase → Option String
  | spawned _ id => some id
  | inserted _ id => some id
  | _ => none

def Holds (id : String) : CallPhase → Prop
  | taken id' => id' = id
  | closing id' => id' = id
  | unindexing id' => id' = id
  | drained ids => id ∈ ids
  | closingOne id' rest => id' = id ∨ id ∈ rest
  | _ => False

/-- The call has cancelled the token of the session, and still has to close it. -/
def Cancels (id : String) : CallPhase → Prop
  | closing id' => id' = id
  | unindexing id' => id' = id
  | closingOne id' _ => id' = id
  | _ => False

theorem holds_of_cancels {phase : CallPhase} {id : String} (hcancels : phase.Cancels id) : phase.Holds id := by
  cases phase with
  | closing id' => exact hcancels
  | unindexing id' => exact hcancels
  | closingOne id' rest => exact Or.inl hcancels
  | _ => exact hcancels.elim

/-- The call has nothing to do with any session it has made or taken. -/
structure Free (phase : CallPhase) : Prop where
  made : phase.made = none
  holds : ∀ id, ¬ phase.Holds id
  cancels : ∀ id, ¬ phase.Cancels id

end CallPhase

variable {phase : CallPhase}

theorem RdpManager.Begins.free (hbegins : RdpManager.Begins phase) : phase.Free := by
  cases hbegins <;> exact ⟨rfl, fun _ => id, fun _ => id⟩

theorem RdpManager.CallMoves.free {s : RdpManager} {phase phase' : CallPhase}
    (hmoves : RdpManager.CallMoves s phase phase') : phase'.Free := by
  cases hmoves <;> exact ⟨rfl, fun _ => id, fun _ => id⟩

namespace RdpManager

structure Coherent (s : RdpManager) : Prop where
  idle : ∀ c, s.nextCall ≤ c → s.calls c = .idle
  fresh : ∀ id, (s.sessions id).phase = .absent → (s.sessions id).handle = .dropped
  entry : ∀ profileId id, s.index profileId = some id →
    (s.sessions id).phase ≠ .absent ∧ s.profileOf id = profileId
  made : ∀ c id, (s.calls c).made = some id →
    (s.sessions id).phase ≠ .absent ∧ (s.calls c).Makes (s.profileOf id)
  maker : ∀ c c' id, (s.calls c).made = some id → (s.calls c').made = some id → c = c'
  unindexed : ∀ c id profileId, (s.calls c).made = some id → s.index profileId ≠ some id
  spawned : ∀ c profile id, s.calls c = .spawned profile id → (s.sessions id).handle = .creating
  held : ∀ c id, (s.calls c).Holds id →
    (s.sessions id).phase ≠ .absent ∧ (s.sessions id).handle ≠ .creating
  cancelled : ∀ c id, (s.calls c).Cancels id → (s.sessions id).cancelled = true

variable {s s' : RdpManager} {event : RdpEvent} {o : List RdpObs} {id : String}

theorem Coherent.of_listed (hinv : Coherent s) (hlisted : (s.sessions id).handle = .listed) :
    (s.sessions id).phase ≠ .absent := by
  intro habsent
  rw [hinv.fresh id habsent] at hlisted
  cases hlisted

variable {c : Nat}

theorem Coherent.begun (hinv : Coherent s) (hcall : s.calls c ≠ .idle) : c < s.nextCall := by
  by_contra hge
  exact hcall (hinv.idle c (Nat.not_lt.mp hge))

/-- What happens to the sessions that exist. -/
structure Frame (s s' : RdpManager) : Prop where
  profile : ∀ id, (s.sessions id).phase ≠ .absent → s'.profileOf id = s.profileOf id
  phase : ∀ id, (s.sessions id).phase ≠ .absent → (s'.sessions id).phase ≠ .absent
  fresh : ∀ id, (s'.sessions id).phase = .absent → (s.sessions id).handle = .dropped →
    (s'.sessions id).handle = .dropped
  creating : ∀ id, (s.sessions id).phase ≠ .absent → (s'.sessions id).handle = .creating →
    (s.sessions id).handle = .creating
  cancelled : ∀ id, (s.sessions id).phase ≠ .absent → (s.sessions id).cancelled = true →
    (s'.sessions id).cancelled = true
  next : s.nextCall ≤ s'.nextCall

/-- A call has the same session in its hands as before. -/
structure Follows (phase phase' : CallPhase) : Prop where
  idle : phase = .idle → phase' = .idle
  made : phase'.made = phase.made
  makes : ∀ profileId, phase.Makes profileId → phase'.Makes profileId
  holds : ∀ id, phase'.Holds id → phase.Holds id
  cancels : ∀ id, phase'.Cancels id → phase.Cancels id

theorem Follows.refl (phase : CallPhase) : Follows phase phase :=
  ⟨id, rfl, fun _ h => h, fun _ h => h, fun _ h => h⟩

/-- What a call gets to otherwise; a session it has made is new. -/
structure CallRight (s s' : RdpManager) (phase : CallPhase) : Prop where
  made : ∀ id, phase.made = some id → (s.sessions id).phase = .absent ∧
    (s'.sessions id).phase ≠ .absent ∧ phase.Makes (s'.profileOf id)
  held : ∀ id, phase.Holds id → (s'.sessions id).phase ≠ .absent ∧ (s'.sessions id).handle ≠ .creating
  cancelled : ∀ id, phase.Cancels id → (s'.sessions id).cancelled = true

theorem CallRight.of_not_made (hmade : phase.made = none) (hheld : ∀ id, phase.Holds id →
      (s'.sessions id).phase ≠ .absent ∧ (s'.sessions id).handle ≠ .creating)
    (hcancelled : ∀ id, phase.Cancels id → (s'.sessions id).cancelled = true) :
    CallRight s s' phase := by
  refine ⟨fun id hsome => ?_, hheld, hcancelled⟩
  rw [hmade] at hsome
  cases hsome

theorem CallRight.of_free (hfree : phase.Free) : CallRight s s' phase :=
  .of_not_made hfree.made (fun id h => absurd h (hfree.holds id)) fun id h => absurd h (hfree.cancels id)

theorem Frame.held (hframe : Frame s s') (hheld : (s.sessions id).phase ≠ .absent ∧
    (s.sessions id).handle ≠ .creating) :
    (s'.sessions id).phase ≠ .absent ∧ (s'.sessions id).handle ≠ .creating :=
  ⟨hframe.phase id hheld.1, fun hcreating => hheld.2 (hframe.creating id hheld.1 hcreating)⟩

/-- The calls and the index after a step of the call `c`, if of any. -/
structure Rest (s s' : RdpManager) (c : Nat) : Prop where
  calls : ∀ c', Follows (s.calls c') (s'.calls c') ∨
    (c' = c ∧ c < s'.nextCall ∧ CallRight s s' (s'.calls c))
  spawned : ∀ c profile id, s'.calls c = .spawned profile id → (s'.sessions id).handle = .creating
  index : ∀ profileId id, s'.index profileId = some id → s.index profileId = some id ∨
    ((s.sessions id).phase ≠ .absent ∧ s.profileOf id = profileId ∧
      ∀ c, (s'.calls c).made ≠ some id)

theorem Rest.made_cases {c c' : Nat} (hrest : Rest s s' c) (hmade : (s'.calls c').made = some id) :
    (Follows (s.calls c') (s'.calls c') ∧ (s.calls c').made = some id) ∨
      (c' = c ∧ (s.sessions id).phase = .absent ∧ (s'.sessions id).phase ≠ .absent ∧
        (s'.calls c').Makes (s'.profileOf id)) := by
  rcases hrest.calls c' with hfollows | ⟨rfl, -, hright⟩
  · exact Or.inl ⟨hfollows, hfollows.made ▸ hmade⟩
  · exact Or.inr ⟨rfl, hright.made id hmade⟩

theorem Coherent.of_frame (hinv : Coherent s) (hframe : Frame s s') (hrest : Rest s s' c) : Coherent s' := by
  refine ⟨?_, ?_, ?_, ?_, ?_, ?_, hrest.spawned, ?_, ?_⟩
  · intro c' hle
    rcases hrest.calls c' with hfollows | ⟨rfl, hlt, -⟩
    · exact hfollows.idle (hinv.idle c' (Nat.le_trans hframe.next hle))
    · omega
  · intro id habsent
    refine hframe.fresh id habsent (hinv.fresh id ?_)
    by_contra hne
    exact hframe.phase id hne habsent
  · intro profileId id hindex
    rcases hrest.index profileId id hindex with hold | ⟨hphase, hid, -⟩
    · obtain ⟨hphase, hid⟩ := hinv.entry profileId id hold
      exact ⟨hframe.phase id hphase, (hframe.profile id hphase).trans hid⟩
    · exact ⟨hframe.phase id hphase, (hframe.profile id hphase).trans hid⟩
  · intro c' id hsome
    rcases hrest.made_cases hsome with ⟨hfollows, hmade⟩ | ⟨-, -, hnew⟩
    · obtain ⟨hphase, hmakes⟩ := hinv.made c' id hmade
      exact ⟨hframe.phase id hphase, hfollows.makes _ ((hframe.profile id hphase).symm ▸ hmakes)⟩
    · exact hnew
  · intro c1 c2 id hsome1 hsome2
    rcases hrest.made_cases hsome1 with ⟨-, hmade1⟩ | ⟨rfl, habsent, -⟩
    · rcases hrest.made_cases hsome2 with ⟨-, hmade2⟩ | ⟨-, habsent, -⟩
      · exact hinv.maker c1 c2 id hmade1 hmade2
      · exact absurd habsent (hinv.made c1 id hmade1).1
    · rcases hrest.made_cases hsome2 with ⟨-, hmade2⟩ | ⟨rfl, -, -⟩
      · exact absurd habsent (hinv.made c2 id hmade2).1
      · rfl
  · intro c' id profileId hsome hindex
    rcases hrest.index profileId id hindex with hold | ⟨-, -, hnone⟩
    · rcases hrest.made_cases hsome with ⟨-, hmade⟩ | ⟨-, habsent, -⟩
      · exact hinv.unindexed c' id profileId hmade hold
      · exact (hinv.entry profileId id hold).1 habsent
    · exact hnone c' hsome
  · intro c' id hholds
    rcases hrest.calls c' with hfollows | ⟨rfl, -, hright⟩
    · exact hframe.held (hinv.held c' id (hfollows.holds id hholds))
    · exact hright.held id hholds
  · intro c' id hcancels
    rcases hrest.calls c' with hfollows | ⟨rfl, -, hright⟩
    · have hcancels' := hfollows.cancels id hcancels
      have hexists := (hinv.held c' id (CallPhase.holds_of_cancels hcancels')).1
      exact hframe.cancelled id hexists (hinv.cancelled c' id hcancels')
    · exact hright.cancelled id hcancels

theorem calls_of_update (hcalls : s'.calls = Function.update s.calls c phase)
    (hself : Follows (s.calls c) phase ∨ (c < s'.nextCall ∧ CallRight s s' phase)) (c' : Nat) :
    Follows (s.calls c') (s'.calls c') ∨ (c' = c ∧ c < s'.nextCall ∧ CallRight s s' (s'.calls c)) := by
  have hc : s'.calls c = phase := by rw [hcalls, Function.update_self]
  by_cases hne : c' = c
  · subst hne
    rw [hc]
    exact hself.imp_right fun hright => ⟨rfl, hright⟩
  · have hother : s'.calls c' = s.calls c' := by rw [hcalls, Function.update_of_ne hne]
    rw [hother]
    exact Or.inl (.refl _)

theorem spawned_of_update (hinv : Coherent s) (hcalls : s'.calls = Function.update s.calls c phase)
    (hsessions : ∀ id, (s.sessions id).phase ≠ .absent → (s.calls c).made ≠ some id →
      (s.sessions id).handle = .creating → (s'.sessions id).handle = .creating)
    (hself : ∀ profile id, phase = .spawned profile id → (s'.sessions id).handle = .creating)
    (c' : Nat) (profile : RdpProfile) (id : String) (hspawned : s'.calls c' = .spawned profile id) :
    (s'.sessions id).handle = .creating := by
  rw [hcalls] at hspawned
  by_cases hne : c' = c
  · subst hne
    rw [Function.update_self] at hspawned
    exact hself profile id hspawned
  · rw [Function.update_of_ne hne] at hspawned
    have hmade : (s.calls c').made = some id := by rw [hspawned]; rfl
    exact hsessions id (hinv.made c' id hmade).1
      (fun hown => hne (hinv.maker c' c id hmade hown)) (hinv.spawned c' profile id hspawned)

theorem Frame.of_keeps (hkeeps : ∀ id, Keeps (s.sessions id) (s'.sessions id))
    (hnext : s.nextCall ≤ s'.nextCall) : Frame s s' where
  profile := fun id _ => by
    unfold profileOf
    rw [(hkeeps id).profile]
  phase := fun id => (hkeeps id).phase
  fresh := fun id _ hdropped => by
    rcases (hkeeps id).handle with hsame | ⟨-, hdrop⟩ | ⟨hlisted, -⟩
    · rw [hsame, hdropped]
    · exact hdrop
    · rw [hdropped] at hlisted
      cases hlisted
  creating := fun id _ => (hkeeps id).handle.creating_iff.mp
  cancelled := fun id _ => (hkeeps id).cancelled
  next := hnext

theorem Coherent.of_call (hinv : Coherent s) (hbegun : s.calls c ≠ .idle)
    (hkeeps : ∀ id, Keeps (s.sessions id) (s'.sessions id))
    (hcalls : s'.calls = Function.update s.calls c phase) (hnext : s'.nextCall = s.nextCall)
    (hindex : ∀ profileId id, s'.index profileId = some id → s.index profileId = some id)
    (hmade : phase.made = none)
    (hheld : ∀ id, phase.Holds id →
      (s'.sessions id).phase ≠ .absent ∧ (s'.sessions id).handle ≠ .creating)
    (hcancelled : ∀ id, phase.Cancels id → (s'.sessions id).cancelled = true) : Coherent s' := by
  have hright : CallRight s s' phase := .of_not_made hmade hheld hcancelled
  refine hinv.of_frame (.of_keeps hkeeps (Nat.le_of_eq hnext.symm))
    ⟨calls_of_update hcalls (Or.inr ⟨hnext ▸ hinv.begun hbegun, hright⟩),
      spawned_of_update hinv hcalls (fun id _ _ => (hkeeps id).handle.creating_iff.mpr) ?_,
      fun profileId id h => Or.inl (hindex profileId id h)⟩
  rintro profile id rfl
  cases hmade

theorem Coherent.of_task (hinv : Coherent s) (hkeeps : ∀ id, Keeps (s.sessions id) (s'.sessions id))
    (hcalls : s'.calls = s.calls) (hnext : s'.nextCall = s.nextCall)
    (hindex : ∀ profileId id, s'.index profileId = some id → s.index profileId = some id) :
    Coherent s' := by
  have hsame : ∀ c, Follows (s.calls c) (s'.calls c) := by
    intro c
    rw [hcalls]
    exact .refl _
  refine hinv.of_frame (c := s.nextCall) (.of_keeps hkeeps (Nat.le_of_eq hnext.symm))
    ⟨fun c => Or.inl (hsame c), fun c profile id hspawned => ?_, fun profileId id h => Or.inl (hindex profileId id h)⟩
  rw [hcalls] at hspawned
  exact (hkeeps id).handle.creating_iff.mpr (hinv.spawned c profile id hspawned)

theorem index_of_setIndex_none {profileId profileId' id : String}
    (hindex : (s.setIndex profileId none).index profileId' = some id) :
    s.index profileId' = some id := by
  by_cases hid : profileId' = profileId
  · subst hid
    rw [setIndex_self] at hindex
    cases hindex
  · rwa [setIndex_of_ne hid] at hindex

theorem CallMoves.begun {phase phase' : CallPhase} (hmoves : CallMoves s phase phase') : phase ≠ .idle := by
  cases hmoves <;> nofun

variable {profile : RdpProfile}

theorem Coherent.create (hinv : Coherent s) {session : RdpSession} (hcall : s.calls c = .creating profile)
    (hphase : (s.sessions id).phase = .absent) (hprofile : session.profile = profile)
    (hexists : session.phase ≠ .absent) (hcreating : session.handle = .creating) :
    Coherent (({ s with ids := s.ids ++ [id] }.setSession id session).setCall c
      (.spawned profile id)) := by
  have hlt : c < s.nextCall := hinv.begun (by rw [hcall]; nofun)
  have hself : Function.update s.sessions id session id = session := Function.update_self ..
  have hother : ∀ id', (s.sessions id').phase ≠ .absent →
      Function.update s.sessions id session id' = s.sessions id' := by
    intro id' hne
    refine Function.update_of_ne ?_ ..
    rintro rfl
    exact hne hphase
  have hframe : Frame s (({ s with ids := s.ids ++ [id] }.setSession id session).setCall c
      (.spawned profile id)) := by
    refine ⟨fun id' hne => ?_, fun id' hne => ?_, fun id' habsent hdropped => ?_,
      fun id' hne => ?_, fun id' hne => ?_, Nat.le_refl _⟩
    · exact congrArg (fun r => r.profile.id) (hother id' hne)
    · show (Function.update s.sessions id session id').phase ≠ .absent
      rwa [hother id' hne]
    · have habsent' : (Function.update s.sessions id session id').phase = .absent := habsent
      show (Function.update s.sessions id session id').handle = .dropped
      by_cases hid : id' = id
      · rw [hid, hself] at habsent'
        exact absurd habsent' hexists
      · rwa [Function.update_of_ne hid]
    · show (Function.update s.sessions id session id').handle = .creating → _
      rw [hother id' hne]
      exact fun h => h
    · show _ → (Function.update s.sessions id session id').cancelled = true
      rw [hother id' hne]
      exact fun h => h
  have hright : CallRight s (({ s with ids := s.ids ++ [id] }.setSession id session).setCall c
      (.spawned profile id)) (.spawned profile id) := by
    refine ⟨fun id' hmade => ?_, fun _ => False.elim, fun _ => False.elim⟩
    cases hmade
    refine ⟨hphase, ?_, ?_⟩
    · show (Function.update s.sessions id session id).phase ≠ .absent
      rwa [hself]
    · show profile.id = (Function.update s.sessions id session id).profile.id
      rw [hself, hprofile]
  refine hinv.of_frame hframe ⟨calls_of_update rfl (Or.inr ⟨hlt, hright⟩),
    spawned_of_update hinv rfl (fun id' hne _ hwas => ?_) ?_, fun _ _ h => Or.inl h⟩
  · show (Function.update s.sessions id session id').handle = .creating
    rwa [hother id' hne]
  · rintro profile' id' ⟨⟩
    exact (congrArg RdpSession.handle hself).trans hcreating

theorem Coherent.insert (hinv : Coherent s) (hcall : s.calls c = .spawned profile id) : Coherent
      ((s.setSession id { s.sessions id with handle := .listed }).setCall c
        (.inserted profile id)) := by
  have hown : (s.calls c).made = some id := by rw [hcall]; rfl
  have hexists := (hinv.made c id hown).1
  have hself : Function.update s.sessions id { s.sessions id with handle := .listed } id =
      { s.sessions id with handle := .listed } := Function.update_self ..
  have hother : ∀ id', id' ≠ id → Function.update s.sessions id { s.sessions id with handle := .listed } id' =
        s.sessions id' := fun id' hne => Function.update_of_ne hne ..
  have hframe : Frame s ((s.setSession id { s.sessions id with handle := .listed }).setCall c
      (.inserted profile id)) := by
    have hcases : ∀ id', (Function.update s.sessions id { s.sessions id with handle := .listed })
        id' = s.sessions id' ∨ (id' = id ∧ (Function.update s.sessions id
          { s.sessions id with handle := .listed }) id' = { s.sessions id with handle := .listed }) := by
      intro id'
      by_cases hid : id' = id
      · exact Or.inr ⟨hid, hid ▸ hself⟩
      · exact Or.inl (hother id' hid)
    refine ⟨fun id' _ => ?_, fun id' hne => ?_, fun id' habsent hdropped => ?_,
      fun id' _ hcreating => ?_, fun id' _ hcancelled => ?_, Nat.le_refl _⟩
    · rcases hcases id' with hsame | ⟨rfl, hnow⟩
      · exact congrArg (fun r => r.profile.id) hsame
      · exact congrArg (fun r => r.profile.id) hnow
    · rcases hcases id' with hsame | ⟨rfl, hnow⟩
      · exact fun h => hne ((congrArg RdpSession.phase hsame).symm.trans h)
      · exact fun h => hne ((congrArg RdpSession.phase hnow).symm.trans h)
    · rcases hcases id' with hsame | ⟨rfl, hnow⟩
      · exact (congrArg RdpSession.handle hsame).trans hdropped
      · exact absurd ((congrArg RdpSession.phase hnow).symm.trans habsent) hexists
    · rcases hcases id' with hsame | ⟨rfl, hnow⟩
      · exact (congrArg RdpSession.handle hsame).symm.trans hcreating
      · exact nomatch (congrArg RdpSession.handle hnow).symm.trans hcreating
    · rcases hcases id' with hsame | ⟨rfl, hnow⟩
      · exact (congrArg RdpSession.cancelled hsame).trans hcancelled
      · exact (congrArg RdpSession.cancelled hnow).trans hcancelled
  have hfollows : Follows (s.calls c) (.inserted profile id) := by
    rw [hcall]
    exact ⟨nofun, rfl, fun _ h => h, fun _ => False.elim, fun _ => False.elim⟩
  refine hinv.of_frame hframe ⟨calls_of_update rfl (Or.inl hfollows),
    spawned_of_update hinv rfl (fun id' _ hnot hwas => ?_) nofun, fun _ _ h => Or.inl h⟩
  have hne : id' ≠ id := by
    rintro rfl
    exact hnot hown
  exact (congrArg RdpSession.handle (hother id' hne)).trans hwas

theorem Coherent.index (hinv : Coherent s) (hcall : s.calls c = .inserted profile id) :
    Coherent ((s.setIndex profile.id (some id)).setCall c .returned) := by
  have hown : (s.calls c).made = some id := by rw [hcall]; rfl
  obtain ⟨hexists, hmakes⟩ := hinv.made c id hown
  have hprofile : profile.id = s.profileOf id := by rwa [hcall] at hmakes
  have hlt : c < s.nextCall := hinv.begun (by rw [hcall]; nofun)
  have hright : CallRight s ((s.setIndex profile.id (some id)).setCall c .returned) .returned :=
    .of_free ⟨rfl, fun _ => False.elim, fun _ => False.elim⟩
  refine hinv.of_frame (.of_keeps (fun id => .refl _) (Nat.le_refl _)) ⟨calls_of_update rfl (Or.inr ⟨hlt, hright⟩),
      spawned_of_update hinv rfl (fun _ _ _ h => h) nofun, fun profileId id' hindex => ?_⟩
  have hnow : (s.setIndex profile.id (some id)).index profileId = some id' := hindex
  by_cases hid : profileId = profile.id
  · subst hid
    rw [setIndex_self] at hnow
    cases hnow
    refine Or.inr ⟨hexists, hprofile.symm, fun c' hmade => ?_⟩
    by_cases hc : c' = c
    · subst hc
      rw [setCall_self] at hmade
      cases hmade
    · rw [setCall_of_ne hc] at hmade
      exact hc (hinv.maker c' c id hmade hown)
  · rw [setIndex_of_ne hid] at hnow
    exact Or.inl hnow

theorem Coherent.step (hinv : Coherent s) (htaken : Taken s event s' o) : Coherent s' := by
  cases htaken with
  | @begun phase o call hrunning hbegins ho =>
    have hfree := hbegins.free
    refine hinv.of_frame (.of_keeps (fun id => .refl _) (Nat.le_succ _))
      ⟨calls_of_update rfl (Or.inr ⟨Nat.lt_succ_self _, .of_free hfree⟩),
        spawned_of_update hinv rfl (fun _ _ _ h => h) ?_, fun _ _ h => Or.inl h⟩
    rintro profile id rfl
    cases hfree.made
  | moved hmoves ho =>
    have hfree := hmoves.free
    exact hinv.of_call hmoves.begun (fun id => .refl _) rfl rfl (fun _ _ h => h) hfree.made
      (fun id h => absurd h (hfree.holds id)) fun id h => absurd h (hfree.cancels id)
  | unlisted hcall =>
    exact hinv.of_call (by rw [hcall]; nofun) (keeps_setSession (keeps_unlist _)) rfl rfl
      (fun _ _ h => h) rfl (fun _ => False.elim) (fun _ => False.elim)
  | unindexedStale hcall =>
    exact hinv.of_call (by rw [hcall]; nofun) (fun id => .refl _) rfl rfl
      (fun _ _ h => index_of_setIndex_none h) rfl (fun _ => False.elim) (fun _ => False.elim)
  | inserted hcall => exact hinv.insert hcall
  | indexed hcall ho => exact hinv.index hcall
  | @took c id hcall hhandle =>
    have hkeeps : Keeps (s.sessions id) { s.sessions id with handle := .taken } :=
      .of_handle (Or.inr (Or.inr ⟨hhandle, rfl⟩))
    refine hinv.of_call (by rw [hcall]; nofun) (keeps_setSession hkeeps) rfl rfl (fun _ _ h => h)
      rfl ?_ (fun _ => False.elim)
    rintro id' rfl
    have hself : (s.setSession id { s.sessions id with handle := .taken }).sessions id =
        { s.sessions id with handle := .taken } := setSession_self _
    exact ⟨fun h => hinv.of_listed hhandle ((congrArg RdpSession.phase hself).symm.trans h),
      fun h => nomatch (congrArg RdpSession.handle hself).symm.trans h⟩
  | @cancelled c id hcall =>
    have hkeeps := keeps_setSession (s := s) (keeps_cancel (s.sessions id))
    have hframe : Frame s (s.setSession id (s.sessions id).cancel) :=
      .of_keeps hkeeps (Nat.le_refl _)
    have hheld := hinv.held c id (by rw [hcall]; rfl)
    refine hinv.of_call (by rw [hcall]; nofun) hkeeps rfl rfl (fun _ _ h => h) rfl ?_ ?_
    · rintro id' rfl
      exact hframe.held hheld
    · rintro id' rfl
      exact congrArg RdpSession.cancelled (setSession_self (s := s) (s.sessions id).cancel)
  | @closed c id session hcall hsends =>
    have hkeeps := keeps_setSession (s := s) hsends.keeps
    have hframe : Frame s (s.setSession id session) := .of_keeps hkeeps (Nat.le_refl _)
    have hheld := hinv.held c id (by rw [hcall]; rfl)
    have hcancelled := hinv.cancelled c id (by rw [hcall]; rfl)
    refine hinv.of_call (by rw [hcall]; nofun) hkeeps rfl rfl (fun _ _ h => h) rfl ?_ ?_
    · rintro id' rfl
      exact hframe.held hheld
    · rintro id' rfl
      exact hframe.cancelled id hheld.1 hcancelled
  | @unindexed c id hcall =>
    have hheld := hinv.held c id (by rw [hcall]; rfl)
    have hkeeps : Keeps (s.sessions id) { s.sessions id with handle := .dropped } :=
      .of_handle (Or.inr (Or.inl ⟨hheld.2, rfl⟩))
    exact hinv.of_call (by rw [hcall]; nofun) (keeps_setSession hkeeps) rfl rfl
      (fun _ _ h => index_of_setIndex_none h) rfl (fun _ => False.elim) (fun _ => False.elim)
  | @drained c hcall =>
    refine hinv.of_call (by rw [hcall]; nofun) (fun id => keeps_take _) rfl rfl (fun _ _ h => h)
      rfl (fun id hmem => ?_) (fun _ => False.elim)
    have hlisted : (s.sessions id).handle = .listed := by
      simpa [isSessionActive] using (List.mem_filter.mp hmem).2
    show (take (s.sessions id)).phase ≠ .absent ∧ (take (s.sessions id)).handle ≠ .creating
    unfold take
    rw [if_pos hlisted]
    exact ⟨hinv.of_listed hlisted, nofun⟩
  | cleared hcall =>
    exact hinv.of_call (by rw [hcall]; nofun) (fun id => .refl _) rfl rfl nofun
      rfl (fun _ => False.elim) (fun _ => False.elim)
  | @closedOne c id rest session hcall hsends =>
    have hheld := hinv.held c id (by rw [hcall]; exact Or.inl rfl)
    have hkeeps : Keeps (s.sessions id) { session with handle := .dropped } := by
      have h := hsends.keeps
      exact ⟨h.profile, h.phase, h.live, Or.inr (Or.inl ⟨hheld.2, rfl⟩), h.cancelled⟩
    have hframe : Frame s (s.setSession id { session with handle := .dropped }) :=
      .of_keeps (keeps_setSession hkeeps) (Nat.le_refl _)
    refine hinv.of_call (by rw [hcall]; nofun) (keeps_setSession hkeeps) rfl rfl (fun _ _ h => h)
      rfl (fun id' hmem => ?_) (fun _ => False.elim)
    exact hframe.held (hinv.held c id' (by rw [hcall]; exact Or.inr hmem))
  | input hcall hsends ho =>
    exact hinv.of_call (by rw [hcall]; nofun) (keeps_setSession hsends.keeps) rfl rfl
      (fun _ _ h => h) rfl (fun _ => False.elim) (fun _ => False.elim)
  | waits hcall hlisted hfull =>
    exact hinv.of_call (by rw [hcall]; nofun) (fun id => .refl _) rfl rfl (fun _ _ h => h)
      rfl (fun _ => False.elim) (fun _ => False.elim)
  | entered hcall hsends ho =>
    exact hinv.of_call (by rw [hcall]; nofun) (keeps_setSession (s := s) hsends.keeps) rfl rfl
      (fun _ _ h => h) rfl (fun _ => False.elim) (fun _ => False.elim)
  | created hcall hphase => exact hinv.create hcall hphase rfl nofun rfl
  | @cancelledOne c id ids hcall hmem =>
    have hkeeps := keeps_setSession (s := s) (keeps_cancel (s.sessions id))
    have hframe : Frame s (s.setSession id (s.sessions id).cancel) :=
      .of_keeps hkeeps (Nat.le_refl _)
    refine hinv.of_call (by rw [hcall]; nofun) hkeeps rfl rfl (fun _ _ h => h)
      rfl (fun id' hholds => hframe.held (hinv.held c id' ?_)) ?_
    · rw [hcall]
      rcases hholds with rfl | hrest
      · exact hmem
      · exact List.mem_of_mem_erase hrest
    · rintro id' rfl
      exact congrArg RdpSession.cancelled (setSession_self (s := s) (s.sessions id).cancel)
  | task hstep =>
    exact hinv.of_task (keeps_setSession (keeps_of_taskTaken (RdpSession.taskTaken_of_step hstep)))
      rfl rfl fun _ _ h => h
  | removed hphase =>
    exact hinv.of_task (keeps_setSession ((keeps_unlist _).ended .unindexing nofun rfl)) rfl rfl fun _ _ h => h
  | cleaned hphase =>
    exact hinv.of_task (keeps_setSession ((Keeps.refl _).ended .cleaned nofun rfl)) rfl rfl
      fun _ _ h => index_of_setIndex_none h
  | dropped =>
    refine hinv.of_task (fun id => ⟨rfl, fun h => h, fun hlive => ?_, Or.inl rfl, fun h => h⟩) rfl rfl fun _ _ h => h
    cases hopen : (s.sessions id).phase.isOpen <;> simp [RdpSession.isLive, hopen] at hlive

theorem coherent_run {G : RdpManager → RdpEvent → Prop} {h : List RdpObs}
    (hreach : Reaches rdpStep G .initial h s) : Coherent s := by
  have hstart : Coherent .initial :=
    ⟨fun _ _ => rfl, fun _ _ => rfl, nofun, nofun, nofun, nofun, nofun, fun _ _ => False.elim, fun _ _ => False.elim⟩
  exact hreach.invariant (I := fun _ s => Coherent s) hstart fun hinv _ hstep => hinv.step (taken_of_step hstep)

end RdpManager

end Portix.Rdp
