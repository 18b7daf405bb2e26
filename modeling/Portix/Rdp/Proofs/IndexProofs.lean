import Portix.Rdp.Proofs.CoherenceProofs

/-!
# Proofs: sessions and the profile index

While the index loses no live entry and connects for one profile do not overlap, a live session is
named by the index or its own connect is still to put it there, and no connect makes a second one.
-/

namespace Portix.Rdp

open Lib

variable {phase : CallPhase}

theorem CallPhase.made_of_not_makes (hnot : ∀ profileId, ¬ phase.Makes profileId) : phase.made = none := by
  cases phase with
  | spawned profile id => exact absurd rfl (hnot profile.id)
  | inserted profile id => exact absurd rfl (hnot profile.id)
  | _ => rfl

namespace RdpManager

/-- Where the live sessions are found. -/
structure Indexed (s : RdpManager) : Prop where
  live : ∀ id, s.Live id → s.index (s.profileOf id) = some id ∨ ∃ c, (s.calls c).made = some id
  alone : ∀ c c' profileId, (s.calls c).Makes profileId → (s.calls c').Makes profileId → c = c'
  only : ∀ c id, (s.calls c).Makes (s.profileOf id) → s.Live id → (s.calls c).made = some id

variable {s s' : RdpManager} {event : RdpEvent} {o : List RdpObs} {c : Nat}

theorem MayMake.no_live {profileId id : String} (hmay : s.MayMake profileId) (hcoherent : Coherent s)
    (hinv : Indexed s) (hprofile : s.profileOf id = profileId) : ¬ s.Live id := by
  intro hlive
  rcases hinv.live id hlive with hindex | ⟨c, hmade⟩
  · rw [hprofile] at hindex
    exact hmay.2 id hindex hlive
  · have hmakes := (hcoherent.made c id hmade).2
    rw [hprofile] at hmakes
    exact hmay.1 c hmakes

/-- A call makes the same session as before. -/
def SameMaking (phase phase' : CallPhase) : Prop :=
  phase'.made = phase.made ∧ ∀ profileId, phase'.Makes profileId ↔ phase.Makes profileId

theorem SameMaking.refl (phase : CallPhase) : SameMaking phase phase := ⟨rfl, fun _ => Iff.rfl⟩

theorem SameMaking.of_not {phase phase' : CallPhase} (hnot : ∀ profileId, ¬ phase.Makes profileId)
    (hnot' : ∀ profileId, ¬ phase'.Makes profileId) : SameMaking phase phase' := by
  refine ⟨?_, fun profileId => ⟨fun h => absurd h (hnot' _), fun h => absurd h (hnot _)⟩⟩
  rw [CallPhase.made_of_not_makes hnot, CallPhase.made_of_not_makes hnot']

theorem sameMaking_setCall (hsame : SameMaking (s.calls c) phase) (c' : Nat) :
    SameMaking (s.calls c') ((s.setCall c phase).calls c') := by
  by_cases hc : c' = c
  · subst hc
    rwa [setCall_self]
  · rw [setCall_of_ne hc]
    exact .refl _

/-- A session keeps its profile and does not come to life. -/
def Stays (r r' : RdpSession) : Prop := r'.profile = r.profile ∧ (r'.isLive = true → r.isLive = true)

theorem Keeps.stays {r r' : RdpSession} (hkeeps : Keeps r r') : Stays r r' :=
  ⟨hkeeps.profile, hkeeps.live⟩

variable {id : String}

theorem stays_setSession {session : RdpSession} (hstays : Stays (s.sessions id) session)
    (id' : String) : Stays (s.sessions id') ((s.setSession id session).sessions id') := by
  by_cases hid : id' = id
  · subst hid
    rwa [setSession_self]
  · rw [setSession_of_ne hid]
    exact ⟨rfl, fun h => h⟩

/-- Sessions stay, and the index loses no live entry. -/
structure Loses (s s' : RdpManager) : Prop where
  stays : ∀ id, Stays (s.sessions id) (s'.sessions id)
  index : ∀ profileId, s'.index profileId = s.index profileId ∨
    (s'.index profileId = none ∧ s.NamesNoLive profileId)

theorem Loses.of_stays (hstays : ∀ id, Stays (s.sessions id) (s'.sessions id))
    (hindex : s'.index = s.index) : Loses s s' :=
  ⟨hstays, fun profileId => Or.inl (congrFun hindex profileId)⟩

theorem Loses.profile (hloses : Loses s s') (id : String) : s'.profileOf id = s.profileOf id :=
  congrArg RdpProfile.id (hloses.stays id).1

theorem Loses.live (hloses : Loses s s') (hlive : s'.Live id) : s.Live id :=
  (hloses.stays id).2 hlive

theorem Loses.entry (hloses : Loses s s') (hlive : s'.Live id)
    (hindex : s.index (s.profileOf id) = some id) : s'.index (s'.profileOf id) = some id := by
  rw [hloses.profile]
  rcases hloses.index (s.profileOf id) with hsame | ⟨-, hno⟩
  · rw [hsame, hindex]
  · exact absurd (hloses.live hlive) (hno id hindex)

theorem loses_setIndex {profileId : String} (hno : s.NamesNoLive profileId) : Loses s (s.setIndex profileId none) := by
  refine ⟨fun id => (Keeps.refl _).stays, fun profileId' => ?_⟩
  by_cases hid : profileId' = profileId
  · subst hid
    exact Or.inr ⟨setIndex_self .., hno⟩
  · exact Or.inl (setIndex_of_ne hid _)

theorem Indexed.of_loses (hinv : Indexed s) (hloses : Loses s s')
    (hcalls : ∀ c, SameMaking (s.calls c) (s'.calls c)) : Indexed s' := by
  refine ⟨fun id hlive => ?_, fun c c' profileId hmakes hmakes' => ?_, fun c id hmakes hlive => ?_⟩
  · rcases hinv.live id (hloses.live hlive) with hindex | ⟨c, hmade⟩
    · exact Or.inl (hloses.entry hlive hindex)
    · exact Or.inr ⟨c, by rw [(hcalls c).1, hmade]⟩
  · exact hinv.alone c c' profileId (((hcalls c).2 _).mp hmakes) (((hcalls c').2 _).mp hmakes')
  · rw [hloses.profile] at hmakes
    rw [(hcalls c).1]
    exact hinv.only c id (((hcalls c).2 _).mp hmakes) (hloses.live hlive)

variable {profile : RdpProfile}

theorem Indexed.make (hinv : Indexed s) (hcoherent : Coherent s) (hmay : s.MayMake profile.id)
    (hnot : ∀ profileId, ¬ (s.calls c).Makes profileId) :
    Indexed (s.setCall c (.creating profile)) := by
  refine ⟨fun id hlive => ?_, fun c1 c2 profileId hmakes1 hmakes2 => ?_, fun c' id hmakes hlive => ?_⟩
  · rcases hinv.live id hlive with hindex | ⟨c', hmade⟩
    · exact Or.inl hindex
    · have hne : c' ≠ c := by
        rintro rfl
        rw [CallPhase.made_of_not_makes hnot] at hmade
        cases hmade
      exact Or.inr ⟨c', by rw [setCall_of_ne hne, hmade]⟩
  · by_cases hc1 : c1 = c
    · by_cases hc2 : c2 = c
      · rw [hc1, hc2]
      · subst hc1
        rw [setCall_self] at hmakes1
        rw [setCall_of_ne hc2, ← (hmakes1 : profile.id = profileId)] at hmakes2
        exact absurd hmakes2 (hmay.1 c2)
    · rw [setCall_of_ne hc1] at hmakes1
      by_cases hc2 : c2 = c
      · subst hc2
        rw [setCall_self] at hmakes2
        rw [← (hmakes2 : profile.id = profileId)] at hmakes1
        exact absurd hmakes1 (hmay.1 c1)
      · rw [setCall_of_ne hc2] at hmakes2
        exact hinv.alone c1 c2 profileId hmakes1 hmakes2
  · by_cases hc : c' = c
    · subst hc
      rw [setCall_self] at hmakes
      have hprofile : profile.id = s.profileOf id := hmakes
      exact absurd hlive (hmay.no_live hcoherent hinv hprofile.symm)
    · rw [setCall_of_ne hc] at hmakes ⊢
      exact hinv.only c' id hmakes hlive

theorem Indexed.create (hinv : Indexed s) {session : RdpSession} (hcall : s.calls c = .creating profile)
    (hphase : (s.sessions id).phase = .absent) (hprofile : session.profile = profile) :
    Indexed (({ s with ids := s.ids ++ [id] }.setSession id session).setCall c
      (.spawned profile id)) := by
  have hother : ∀ {id'}, id' ≠ id → Function.update s.sessions id session id' = s.sessions id' := fun hne =>
    Function.update_of_ne hne ..
  have hmakes : (s.calls c).Makes profile.id := by
    rw [hcall]
    exact rfl
  have hprofile' : ∀ {id'}, id' ≠ id → (({ s with ids := s.ids ++ [id] }.setSession id
      session).setCall c (.spawned profile id)).profileOf id' = s.profileOf id' := fun hne =>
    congrArg (fun r => r.profile.id) (hother hne)
  have hlive' : ∀ {id'}, id' ≠ id → (({ s with ids := s.ids ++ [id] }.setSession id
      session).setCall c (.spawned profile id)).Live id' → s.Live id' := by
    intro id' hne hlive
    have h : (Function.update s.sessions id session id').isLive = true := hlive
    rwa [hother hne] at h
  -- whatever the calls make now they made before
  have hbefore : ∀ {c' profileId}, ((({ s with ids := s.ids ++ [id] }.setSession id session).setCall
      c (.spawned profile id)).calls c').Makes profileId → (s.calls c').Makes profileId := by
    intro c' profileId h
    by_cases hc : c' = c
    · subst hc
      rw [setCall_self] at h
      have hid : profile.id = profileId := h
      rwa [← hid]
    · rwa [setCall_of_ne hc] at h
  refine ⟨fun id' hlive => ?_, fun c1 c2 profileId h1 h2 => ?_, fun c' id' h hlive => ?_⟩
  · by_cases hid : id' = id
    · exact Or.inr ⟨c, by rw [setCall_self, hid]; rfl⟩
    · rw [hprofile' hid]
      rcases hinv.live id' (hlive' hid hlive) with hindex | ⟨c', hmade⟩
      · exact Or.inl hindex
      · have hne : c' ≠ c := by
          rintro rfl
          rw [hcall] at hmade
          cases hmade
        exact Or.inr ⟨c', by rw [setCall_of_ne hne]; exact hmade⟩
  · exact hinv.alone c1 c2 profileId (hbefore h1) (hbefore h2)
  · by_cases hid : id' = id
    · subst hid
      have hown : (({ s with ids := s.ids ++ [id'] }.setSession id' session).setCall c
          (.spawned profile id')).profileOf id' = profile.id := by
        show (Function.update s.sessions id' session id').profile.id = profile.id
        rw [Function.update_self, hprofile]
      rw [hown] at h
      have hc := hinv.alone c' c profile.id (hbefore h) hmakes
      rw [hc, setCall_self]
      rfl
    · rw [hprofile' hid] at h
      have hmade := hinv.only c' id' (hbefore h) (hlive' hid hlive)
      have hne : c' ≠ c := by
        rintro rfl
        rw [hcall] at hmade
        cases hmade
      rw [setCall_of_ne hne]
      exact hmade

theorem Indexed.index (hinv : Indexed s) (hcoherent : Coherent s) (hcall : s.calls c = .inserted profile id) :
    Indexed ((s.setIndex profile.id (some id)).setCall c .returned) := by
  have hmakes : (s.calls c).Makes profile.id := by
    rw [hcall]
    exact rfl
  have hown : (s.calls c).made = some id := by rw [hcall]; rfl
  have hprofile : profile.id = s.profileOf id := by
    have h := (hcoherent.made c id hown).2
    rwa [hcall] at h
  have hbefore : ∀ {c' profileId}, ((((s.setIndex profile.id (some id)).setCall c
      .returned).calls c').Makes profileId) → c' ≠ c ∧ (s.calls c').Makes profileId := by
    intro c' profileId h
    by_cases hc : c' = c
    · subst hc
      rw [setCall_self] at h
      exact h.elim
    · rw [setCall_of_ne hc] at h
      exact ⟨hc, h⟩
  refine ⟨fun id' hlive => ?_, fun c1 c2 profileId h1 h2 => ?_, fun c' id' h hlive => ?_⟩
  · have hlive' : s.Live id' := hlive
    show (s.setIndex profile.id (some id)).index (s.profileOf id') = some id' ∨ _
    by_cases hid : s.profileOf id' = profile.id
    · have hmade := hinv.only c id' (by rwa [hid]) hlive'
      rw [hown] at hmade
      rw [hid, setIndex_self]
      exact Or.inl hmade
    · rw [setIndex_of_ne hid]
      rcases hinv.live id' hlive' with hindex | ⟨c', hmade⟩
      · exact Or.inl hindex
      · have hne : c' ≠ c := by
          rintro rfl
          rw [hown] at hmade
          obtain rfl := Option.some.inj hmade
          exact hid hprofile.symm
        exact Or.inr ⟨c', by rw [setCall_of_ne hne]; exact hmade⟩
  · exact hinv.alone c1 c2 profileId (hbefore h1).2 (hbefore h2).2
  · obtain ⟨hne, hmakes'⟩ := hbefore h
    rw [setCall_of_ne hne]
    exact hinv.only c' id' hmakes' hlive

theorem not_makes_of_begins (hbegins : Begins phase) (profileId : String) : ¬ phase.Makes profileId := by
  cases hbegins <;> exact id

theorem CallMoves.makes {phase phase' : CallPhase} (hmoves : CallMoves s phase phase') :
    (∀ profileId, ¬ phase.Makes profileId) ∧
      ((∃ profile, phase' = .creating profile) ∨ ∀ profileId, ¬ phase'.Makes profileId) := by
  cases hmoves with
  | looked hindex => exact ⟨fun _ => id, Or.inr fun _ => id⟩
  | unindexed hindex => exact ⟨fun _ => id, Or.inl ⟨_, rfl⟩⟩
  | missing hhandle => exact ⟨fun _ => id, Or.inl ⟨_, rfl⟩⟩
  | closed hhandle hclosed => exact ⟨fun _ => id, Or.inr fun _ => id⟩
  | reused hhandle hopen => exact ⟨fun _ => id, Or.inr fun _ => id⟩
  | gone hhandle => exact ⟨fun _ => id, Or.inr fun _ => id⟩
  | ignored hhandle => exact ⟨fun _ => id, Or.inr fun _ => id⟩

theorem KeepsIndex.mayMake (hguard : s.KeepsIndex (.advance c)) (hmoves : CallMoves s (s.calls c) phase)
    (hphase : phase = .creating profile) : s.MayMake profile.id := by
  unfold KeepsIndex at hguard
  dsimp only at hguard
  generalize hcall : s.calls c = old at hguard hmoves
  cases hmoves with
  | unindexed hindex =>
    cases hphase
    exact hguard hindex
  | missing hhandle =>
    cases hphase
    exact hguard (by simpa [isSessionActive] using hhandle)
  | _ => cases hphase

theorem KeepsIndex.namesNoLive (hguard : s.KeepsIndex (.advance c)) :
    (∀ profile, s.calls c = .staleIndex profile → s.MayMake profile.id) ∧
      (∀ id, s.calls c = .unindexing id → s.NamesNoLive (s.profileOf id)) ∧
      (s.calls c = .drained [] → ∀ profileId, s.NamesNoLive profileId) := by
  unfold KeepsIndex at hguard
  dsimp only at hguard
  refine ⟨fun profile hcall => ?_, fun id hcall => ?_, fun hcall => ?_⟩
  all_goals
    rw [hcall] at hguard
    exact hguard

theorem Indexed.step (hinv : Indexed s) (hcoherent : Coherent s) (hguard : s.KeepsIndex event)
    (htaken : Taken s event s' o) : Indexed s' := by
  -- a step of a call that makes no session, and changes at most one session
  have hquiet : ∀ {c : Nat} {old phase : CallPhase} (s1 : RdpManager), Loses s s1 →
      s1.calls = s.calls → s.calls c = old → (∀ profileId, ¬ old.Makes profileId) →
      (∀ profileId, ¬ phase.Makes profileId) → Indexed (s1.setCall c phase) := by
    intro c old phase s1 hloses hcalls hcall hnot hnot'
    have hloses' : Loses s (s1.setCall c phase) := ⟨hloses.stays, hloses.index⟩
    refine hinv.of_loses hloses' fun c' => ?_
    have hsame : SameMaking (s1.calls c') ((s1.setCall c phase).calls c') :=
      sameMaking_setCall (by rw [hcalls, hcall]; exact .of_not hnot hnot') c'
    rwa [hcalls] at hsame
  have hnone : ∀ profileId, ¬ CallPhase.returned.Makes profileId := fun _ => False.elim
  have hstays : Loses s s := .of_stays (fun id => (Keeps.refl _).stays) rfl
  have hsession : ∀ {id session}, Stays (s.sessions id) session → Loses s (s.setSession id session) :=
    fun hsession => .of_stays (stays_setSession hsession) rfl
  cases htaken with
  | @begun phase o call hrunning hbegins ho =>
    have hidle := hcoherent.idle s.nextCall (Nat.le_refl _)
    exact hquiet { s with nextCall := s.nextCall + 1 } ⟨hstays.stays, hstays.index⟩ rfl hidle
      (fun _ => False.elim) (not_makes_of_begins hbegins)
  | @moved c phase o hmoves ho =>
    obtain ⟨hnot, ⟨profile, rfl⟩ | hnot'⟩ := hmoves.makes
    · exact hinv.make hcoherent (hguard.mayMake hmoves rfl) hnot
    · exact hquiet s hstays rfl rfl hnot hnot'
  | unlisted hcall =>
    exact hquiet _ (hsession (keeps_unlist _).stays) rfl hcall (fun _ => False.elim) fun _ => False.elim
  | @unindexedStale c profile hcall =>
    have hmay := hguard.namesNoLive.1 profile hcall
    have hloses := loses_setIndex hmay.2
    have hinv' : Indexed (s.setIndex profile.id none) := hinv.of_loses hloses fun c => .refl _
    have hcoherent' : Coherent (s.setIndex profile.id none) :=
      hcoherent.of_task (fun id => .refl _) rfl rfl fun _ _ h => index_of_setIndex_none h
    refine hinv'.make hcoherent' ⟨hmay.1, fun id hindex => ?_⟩ ?_
    · rw [setIndex_self] at hindex
      cases hindex
    · show ∀ profileId, ¬ (s.calls c).Makes profileId
      rw [hcall]
      exact fun _ => False.elim
  | @inserted c profile id hcall =>
    have hloses : Loses s (s.setSession id { s.sessions id with handle := .listed }) :=
      hsession ⟨rfl, fun h => h⟩
    refine hinv.of_loses ⟨hloses.stays, hloses.index⟩ fun c' => ?_
    exact sameMaking_setCall (s := s) (by rw [hcall]; exact ⟨rfl, fun _ => Iff.rfl⟩) c'
  | indexed hcall ho => exact hinv.index hcoherent hcall
  | took hcall hhandle =>
    exact hquiet _ (hsession ⟨rfl, id⟩) rfl hcall (fun _ => False.elim) fun _ => False.elim
  | cancelled hcall =>
    exact hquiet _ (hsession (keeps_cancel _).stays) rfl hcall (fun _ => False.elim) fun _ => False.elim
  | closed hcall hsends =>
    exact hquiet _ (hsession hsends.keeps.stays) rfl hcall (fun _ => False.elim) fun _ => False.elim
  | @unindexed c id hcall =>
    have hno := hguard.namesNoLive.2.1 id hcall
    have hloses : Loses s ((s.setIndex (s.profileOf id) none).setSession id
        { s.sessions id with handle := .dropped }) :=
      ⟨stays_setSession (s := s) ⟨rfl, fun h => h⟩, (loses_setIndex hno).index⟩
    exact hquiet _ hloses rfl hcall (fun _ => False.elim) hnone
  | drained hcall =>
    have hloses : Loses s { s with sessions := fun id => take (s.sessions id) } :=
      .of_stays (fun id => (keeps_take _).stays) rfl
    exact hquiet _ hloses rfl hcall (fun _ => False.elim) fun _ => False.elim
  | cleared hcall =>
    have hno := hguard.namesNoLive.2.2 hcall
    have hloses : Loses s { s with index := fun _ => none } :=
      ⟨hstays.stays, fun profileId => Or.inr ⟨rfl, hno profileId⟩⟩
    exact hquiet _ hloses rfl hcall (fun _ => False.elim) hnone
  | closedOne hcall hsends =>
    have hstays' := hsends.keeps.stays
    exact hquiet _ (hsession ⟨hstays'.1, hstays'.2⟩) rfl hcall (fun _ => False.elim) fun _ => False.elim
  | input hcall hsends ho =>
    exact hquiet _ (hsession hsends.keeps.stays) rfl hcall (fun _ => False.elim) hnone
  | @waits c id command hcall hlisted hfull =>
    exact hquiet { s with lock := some c } ⟨hstays.stays, hstays.index⟩ rfl hcall
      (fun _ => False.elim) fun _ => False.elim
  | @entered c id command session o hcall hsends ho =>
    have hloses := hsession hsends.keeps.stays
    exact hquiet (RdpManager.setSession { s with lock := none } id session)
      ⟨hloses.stays, hloses.index⟩ rfl hcall (fun _ => False.elim) hnone
  | created hcall hphase => exact hinv.create hcall hphase rfl
  | cancelledOne hcall hmem =>
    exact hquiet _ (hsession (keeps_cancel _).stays) rfl hcall (fun _ => False.elim) fun _ => False.elim
  | task hstep =>
    exact hinv.of_loses
      (hsession (keeps_of_taskTaken (RdpSession.taskTaken_of_step hstep)).stays) fun c => .refl _
  | removed hphase =>
    exact hinv.of_loses (hsession ((keeps_unlist _).ended .unindexing nofun rfl).stays) fun c => .refl _
  | @cleaned id hphase =>
    have hno : s.NamesNoLive (s.profileOf id) := hguard
    have hloses : Loses s ((s.setIndex (s.profileOf id) none).setSession id { s.sessions id with phase := .cleaned }) :=
      ⟨stays_setSession (s := s) ((Keeps.refl _).ended .cleaned nofun rfl).stays,
        (loses_setIndex hno).index⟩
    exact hinv.of_loses hloses fun c => .refl _
  | dropped =>
    refine hinv.of_loses (.of_stays (fun id => ⟨rfl, fun hlive => ?_⟩) rfl) fun c => .refl _
    cases hopen : (s.sessions id).phase.isOpen <;> simp [RdpSession.isLive, hopen] at hlive

theorem indexed_run {h : List RdpObs} (hreach : Reaches rdpStep KeepsIndex .initial h s) : Coherent s ∧ Indexed s := by
  have hstart : Coherent .initial ∧ Indexed .initial :=
    ⟨coherent_run (G := KeepsIndex) .start, nofun, fun _ _ _ => False.elim, fun _ _ => False.elim⟩
  refine hreach.invariant (I := fun _ s => Coherent s ∧ Indexed s) hstart ?_
  intro h s event s' o hinv hguard hstep
  have htaken := taken_of_step hstep
  exact ⟨hinv.1.step htaken, hinv.2.step hinv.1 hguard htaken⟩

theorem Indexed.listed_iff (hinv : Indexed s) (hcoherent : Coherent s) (hlive : s.Live id)
    (hlisted : s.isSessionActive id = true) :
    s.activeSessionForProfile (s.profileOf id) = some id ↔ ¬ s.BetweenInsertions id := by
  constructor
  · rintro hindex ⟨c, profile, hcall⟩
    exact hcoherent.unindexed c id (s.profileOf id) (by rw [hcall]; rfl) hindex
  · intro hnot
    rcases hinv.live id hlive with hindex | ⟨c, hmade⟩
    · exact hindex
    · cases hcall : s.calls c with
      | spawned profile id' =>
        rw [hcall] at hmade
        obtain rfl := Option.some.inj hmade
        have hcreating := hcoherent.spawned c profile id' hcall
        simp [isSessionActive, hcreating] at hlisted
      | inserted profile id' =>
        rw [hcall] at hmade
        cases hmade
        exact absurd ⟨c, profile, hcall⟩ hnot
      | _ =>
        rw [hcall] at hmade
        cases hmade

theorem Indexed.unique (hinv : Indexed s) (hcoherent : Coherent s) {id id' : String}
    (hlive : s.Live id) (hlive' : s.Live id') (hprofile : s.profileOf id = s.profileOf id') :
    id = id' := by
  -- where one is still to be put in the index, it is the only one
  have honly : ∀ {id1 id2 c}, s.Live id2 → s.profileOf id1 = s.profileOf id2 →
      (s.calls c).made = some id1 → id1 = id2 := by
    intro id1 id2 c hlive2 heq hmade
    have hmakes := (hcoherent.made c id1 hmade).2
    rw [heq] at hmakes
    have hmade2 := hinv.only c id2 hmakes hlive2
    rw [hmade] at hmade2
    exact Option.some.inj hmade2
  rcases hinv.live id hlive with hindex | ⟨c, hmade⟩
  · rcases hinv.live id' hlive' with hindex' | ⟨c', hmade'⟩
    · rw [← hprofile, hindex] at hindex'
      exact Option.some.inj hindex'
    · exact (honly hlive hprofile.symm hmade').symm
  · exact honly hlive' hprofile hmade

end RdpManager

open RdpManager

/-- Where the index keeps its live entries and connects for a profile do not overlap, a profile has
at most one live session, and one in the map is in the index, but for the moment between the two
insertions of its connect. -/
theorem one_live_session_per_profile (h : List RdpObs) (s : RdpManager)
    (hreach : Reaches rdpStep KeepsIndex .initial h s) :
    (∀ id id', s.Live id → s.Live id' → s.profileOf id = s.profileOf id' → id = id') ∧
    ∀ id, s.Live id → s.isSessionActive id = true →
      (s.activeSessionForProfile (s.profileOf id) = some id ↔ ¬ s.BetweenInsertions id) := by
  obtain ⟨hcoherent, hinv⟩ := indexed_run hreach
  exact ⟨fun id id' hlive hlive' => hinv.unique hcoherent hlive hlive',
    fun id hlive hlisted => hinv.listed_iff hcoherent hlive hlisted⟩

theorem not_betweenInsertions {s : RdpManager} {id : String}
    (hcalls : ∀ c, s.calls c = .returned ∨ s.calls c = .idle) : ¬ s.BetweenInsertions id := by
  rintro ⟨c, profile, hcall⟩
  rcases hcalls c with hover | hover
  · cases hover.symm.trans hcall
  · cases hover.symm.trans hcall

/-- Two connects for two profiles that go on beside each other are both found in the index once they have returned,
and a second connect for the first profile returns its session. -/
theorem one_live_session_per_profile_overlapping : ∃ h s, Reaches rdpStep KeepsIndex .initial h s ∧
    .connectReturned 2 (.ok ⟨"a", "p", .connecting⟩) ∈ h ∧ s.Live "a" ∧ s.Live "b" ∧
    s.activeSessionForProfile "p" = some "a" ∧ s.activeSessionForProfile "q" = some "b" := by
  have hstart : Reaches rdpStep KeepsIndex .initial [] .initial := .start
  have hbegun := (hstart.next (e := RdpEvent.begin (.connect deskProfile)) trivial rfl).next
    (e := RdpEvent.begin (.connect { deskProfile with id := "q" })) trivial rfl
  have hchecked := hbegun.next (e := RdpEvent.advance 0) (fun _ => by
    refine ⟨fun c hmakes => ?_, nofun⟩
    rcases c with _ | _ | c
    · exact hmakes
    · exact hmakes
    · exact hmakes) rfl
  have hboth := hchecked.next (e := RdpEvent.advance 1) (fun _ => by
    refine ⟨fun c hmakes => ?_, nofun⟩
    rcases c with _ | _ | c
    · exact absurd (show "p" = "q" from hmakes) (by decide)
    · exact hmakes
    · exact hmakes) rfl
  have hmade := (hboth.next (e := RdpEvent.create 1 "b") trivial rfl).next (e := RdpEvent.create 0 "a") trivial rfl
  have hlisted := (hmade.next (e := RdpEvent.advance 0) trivial rfl).next (e := RdpEvent.advance 1) trivial rfl
  have hindexed := (hlisted.next (e := RdpEvent.advance 1) trivial rfl).next (e := RdpEvent.advance 0) trivial rfl
  have hagain := hindexed.next (e := RdpEvent.begin (.connect deskProfile)) trivial rfl
  have hfound := hagain.next (e := RdpEvent.advance 2) (fun hnone => by cases hnone) rfl
  have hreturned := hfound.next (e := RdpEvent.advance 2) (fun hinactive => by cases hinactive) rfl
  have hlive := (one_live_session_per_profile _ _ hreturned).2
  refine ⟨_, _, hreturned, List.mem_append_right _ (List.mem_singleton.mpr rfl), rfl, rfl,
    (hlive "a" rfl rfl).mpr (not_betweenInsertions fun c => ?_),
    (hlive "b" rfl rfl).mpr (not_betweenInsertions fun c => ?_)⟩
  all_goals
    rcases c with _ | _ | _ | c
    · exact .inl rfl
    · exact .inl rfl
    · exact .inl rfl
    · exact .inr rfl

/-- Two connects for one profile that both look into the index before either has made its session
make one each. -/
theorem two_live_sessions : ¬ ∀ h s, Reaches rdpStep (fun _ _ => True) .initial h s →
    (∀ id id', s.Live id → s.Live id' → s.profileOf id = s.profileOf id' → id = id') ∧
    ∀ id, s.Live id → s.isSessionActive id = true →
      s.activeSessionForProfile (s.profileOf id) = some id := by
  intro hclaim
  have hstart : Reaches rdpStep (fun _ _ => True) .initial [] .initial := .start
  have hreach := Reaches.of_runEvents [.begin (.connect deskProfile), .begin (.connect deskProfile),
    .advance 0, .advance 1, .create 0 "a", .create 1 "b"] (fun _ _ _ => trivial) hstart rfl
  exact absurd ((hclaim _ _ hreach).1 "a" "b" rfl rfl rfl) (by decide)

end Portix.Rdp
