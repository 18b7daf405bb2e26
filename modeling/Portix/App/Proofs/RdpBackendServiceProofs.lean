import Portix.App.RdpBackendService
import Portix.Lib.Bimap
import Portix.Rdp.Proofs.RdpStepProofs

/-!
# Proofs: the sessions that the app reuses

Where replies and attaches record only sessions that may still be alive, the two maps of the service
are inverse to each other, and once everything sent has been handled the sessions in them are alive.
-/

namespace Portix.App

open Lib Rdp

namespace RdpBackendService

/-- The two maps are inverse to each other. -/
def Paired (service : RdpBackendService) : Prop :=
  Inverse service.activeSessions service.sessionToProfile

variable {service : RdpBackendService} {profileId id : String}

theorem Paired.record (hpaired : Paired service) (hprofile : service.activeSessions profileId = none ∨
      service.activeSessions profileId = some id)
    (hsession : service.sessionToProfile id = none ∨
      service.sessionToProfile id = some profileId) : Paired (service.record profileId id) :=
  Inverse.insert hpaired hprofile hsession

theorem record_active {profileId' id' : String}
    (hactive : (service.record profileId id).activeSessions profileId' = some id') :
    id' = id ∨ service.activeSessions profileId' = some id' := by
  have hupdate : Function.update service.activeSessions profileId (some id) profileId' = some id' :=
    hactive
  by_cases hp : profileId' = profileId
  · rw [hp, Function.update_self] at hupdate
    exact Or.inl (Option.some.inj hupdate).symm
  · rw [Function.update_of_ne hp] at hupdate
    exact Or.inr hupdate

theorem Paired.forget (hpaired : Paired service) (id : String) : Paired (service.forget id) := by
  unfold Paired RdpBackendService.forget
  cases hback : service.sessionToProfile id with
  | none =>
    rw [update_none_of_none hback]
    exact hpaired
  | some profileId => exact Inverse.erase hpaired hback

theorem Paired.forget_active (hpaired : Paired service) {profileId' id' : String}
    (hactive : (service.forget id).activeSessions profileId' = some id') :
    id' ≠ id ∧ service.activeSessions profileId' = some id' := by
  have hforgotten : (service.forget id).sessionToProfile id' = some profileId' :=
    (hpaired.forget id profileId' id').mp hactive
  have hupdate : Function.update service.sessionToProfile id none id' = some profileId' := hforgotten
  by_cases hid : id' = id
  · rw [hid, Function.update_self] at hupdate
    cases hupdate
  · rw [Function.update_of_ne hid] at hupdate
    exact ⟨hid, (hpaired profileId' id').mpr hupdate⟩

end RdpBackendService

namespace RdpApp

open RdpBackendService

variable {s s' : RdpApp} {event : AppEvent} {o : List AppObs}

/-- A session that may be alive still may be. -/
structure Carries (s s' : RdpApp) : Prop where
  made : s.made = true → s'.made = true
  mayBeAlive : s.made = true → ∀ id, s.MayBeAlive id → s'.MayBeAlive id

theorem Carries.refl (s : RdpApp) : Carries s s := ⟨id, fun _ _ h => h⟩

theorem Carries.trans {s1 s2 s3 : RdpApp} (hfirst : Carries s1 s2) (hthen : Carries s2 s3) : Carries s1 s3 :=
  ⟨fun hmade => hthen.made (hfirst.made hmade),
    fun hmade id h => hthen.mayBeAlive (hfirst.made hmade) id (hfirst.mayBeAlive hmade id h)⟩

theorem carries_setConnect (s : RdpApp) (c : Nat) (phase : ConnectPhase) :
    Carries s (s.setConnect c phase) := ⟨id, fun _ _ h => h⟩

variable {obs : RdpObs}

theorem mem_unhandled : obs ∈ s.unhandled ↔
    (∃ event ∈ s.statuses, .status event = obs) ∨ (∃ event ∈ s.errors, .error event = obs) ∨ obs ∈ s.missed := by
  unfold unhandled
  rw [List.mem_append, List.mem_append, List.mem_map, List.mem_map, or_assoc]

theorem unhandled_receive (o : List RdpObs) (hmem : obs ∈ s.unhandled) : obs ∈ (s.receive o).unhandled := by
  rw [mem_unhandled] at hmem ⊢
  rcases hmem with ⟨event, hevent, heq⟩ | ⟨event, hevent, heq⟩ | hmissed
  · exact Or.inl ⟨event, List.mem_append_left _ hevent, heq⟩
  · exact Or.inr (Or.inl ⟨event, List.mem_append_left _ hevent, heq⟩)
  · exact Or.inr (Or.inr (List.mem_append_left _ hmissed))

theorem unhandled_of_sent {o : List RdpObs} (hmade : s.made = true) (hsent : obs ∈ o)
    {id : String} (hended : endedOf obs = some id) : obs ∈ (s.receive o).unhandled := by
  rw [mem_unhandled]
  by_cases hhears : s.hears obs = true
  · have hheard : obs ∈ o.filter s.hears := List.mem_filter.mpr ⟨hsent, hhears⟩
    cases obs with
    | status event =>
      have hstatus : event ∈ (o.filter s.hears).filterMap statusOf :=
        List.mem_filterMap.mpr ⟨_, hheard, rfl⟩
      exact Or.inl ⟨event, List.mem_append_right _ hstatus, rfl⟩
    | error event =>
      have herror : event ∈ (o.filter s.hears).filterMap errorOf :=
        List.mem_filterMap.mpr ⟨_, hheard, rfl⟩
      exact Or.inr (Or.inl ⟨event, List.mem_append_right _ herror, rfl⟩)
    | connectReturned call result => cases hended
    | inputReturned call result => cases hended
  · have hlost : obs ∈ o.filter fun obs => !s.hears obs :=
      List.mem_filter.mpr ⟨hsent, by simpa using hhears⟩
    refine Or.inr (Or.inr (List.mem_append_right _ ?_))
    rwa [if_pos hmade]

theorem carries_receive (s : RdpApp) (o : List RdpObs) : Carries s (s.receive o) := by
  refine ⟨id, fun hmade id hmay => ⟨hmay.1, fun hended => ?_⟩⟩
  have happend : id ∈ s.ended ++ o.filterMap endedOf := hended
  rcases List.mem_append.mp happend with hold | hnew
  · obtain ⟨obs, hobs, heq⟩ := hmay.2 hold
    exact ⟨obs, unhandled_receive o hobs, heq⟩
  · obtain ⟨obs, hsent, heq⟩ := List.mem_filterMap.mp hnew
    exact ⟨obs, unhandled_of_sent hmade hsent heq, heq⟩

theorem carries_managerStep {event : RdpEvent} (hstep : s.managerStep event = some s') :
    Carries s s' ∧ s'.service = s.service := by
  obtain ⟨r, -, rfl⟩ := Option.map_eq_some_iff.mp hstep
  have hmanager : Carries s { s with manager := r.1 } := ⟨id, fun _ _ h => h⟩
  exact ⟨hmanager.trans (carries_receive _ r.2), rfl⟩

variable {profile : RdpProfile}

theorem carries_rdpConnect {c attempt : Nat} (hstep : s.rdpConnect c profile attempt = some s') :
    Carries s s' ∧ s'.service = s.service := by
  obtain ⟨hcarries, hservice⟩ := carries_managerStep hstep
  exact ⟨(carries_setConnect s c _).trans hcarries, hservice⟩

/-- What a step can do to the maps. -/
inductive AppTaken (s : RdpApp) : AppEvent → RdpApp → Prop where
  | carried {s' : RdpApp} (event : AppEvent) (hcarries : Carries s s')
    (hservice : s'.service = s.service) : AppTaken s event s'
  | recorded {c attempt call : Nat} {profile : RdpProfile} {info : RdpSessionInfo} (text : String)
    (hmade : s.made = true) (hwaiting : s.connects c = .waiting profile attempt call)
    (hreply : s.replies.lookup call = some (.ok info)) : AppTaken s (.reply c text)
      ({ s with service := s.service.record profile.id info.id }.setConnect c .returned)
  | attached (profileId id : String) (hmade : s.made = true) : AppTaken s (.attach profileId id)
      { s with service := s.service.record profileId id }
  | disconnected {id : String} {s' : RdpApp} (hcarries : Carries { s with
      service := s.service.forget id
      disconnected := s.disconnected ++ [id] } s') (hservice : s'.service = s.service.forget id) :
    AppTaken s (.disconnect id) s'
  | status {event : RdpStatusEvent} {rest : List RdpStatusEvent}
    (hstatuses : s.statuses = event :: rest) : AppTaken s .status
      { s with statuses := rest, service := s.service.onStatus event }
  | error {event : RdpErrorEvent} {rest : List RdpErrorEvent} (herrors : s.errors = event :: rest) :
    AppTaken s .error { s with errors := rest, service := s.service.onError event }

theorem taken_of_rdpConnect {s1 : RdpApp} {c attempt : Nat} (hcarries : Carries s s1)
    (hservice : s1.service = s.service)
    (hstep : (s1.rdpConnect c profile attempt).map (fun s => (s, ([] : List AppObs))) =
      some (s', o)) : AppTaken s event s' := by
  obtain ⟨s2, hconnect, ⟨⟩⟩ := Option.map_eq_some_iff.mp hstep
  obtain ⟨hcarries', hservice'⟩ := carries_rdpConnect hconnect
  exact .carried _ (hcarries.trans hcarries') (hservice'.trans hservice)

variable {c : Nat}

theorem taken_of_finish {s1 : RdpApp} {result : Except String RdpConnectionResult}
    (hcarries : Carries s s1) (hservice : s1.service = s.service)
    (hstep : some (s1.finish c result) = some (s', o)) : AppTaken s event s' := by
  cases hstep
  exact .carried _ (hcarries.trans (carries_setConnect s1 c _)) hservice

theorem taken_of_connect (hstep : s.connect profile = some (s', o)) : AppTaken s (.connect profile) s' := by
  have hnext : Carries s { s with nextConnect := s.nextConnect + 1 } := ⟨id, fun _ _ h => h⟩
  unfold connect at hstep
  dsimp only at hstep
  split at hstep
  case h_1 existing hactive => exact taken_of_finish hnext rfl hstep
  case h_2 hactive =>
    by_cases hshares : profile.redirectDrives ∧ profile.localSharePath ≠ none
    · rw [if_pos hshares] at hstep
      cases hstep
      exact .carried _ (hnext.trans (carries_setConnect _ _ _)) rfl
    · rw [if_neg hshares] at hstep
      exact taken_of_rdpConnect hnext rfl hstep

theorem taken_of_prepared {result : Except String Unit}
    (hstep : s.prepared c result = some (s', o)) : AppTaken s (.prepared c result) s' := by
  unfold prepared at hstep
  split at hstep
  case h_1 profile hphase => exact taken_of_rdpConnect (.refl s) rfl hstep
  case h_2 profile text hphase => exact taken_of_finish (.refl s) rfl hstep
  case h_3 => cases hstep

theorem taken_of_reply {text : String} (hmade : s.made = true)
    (hstep : s.reply c text = some (s', o)) : AppTaken s (.reply c text) s' := by
  unfold reply at hstep
  split at hstep
  case h_2 => cases hstep
  case h_1 profile attempt call hphase =>
    split at hstep
    case h_1 info hreply =>
      cases hstep
      exact .recorded text hmade hphase hreply
    case h_2 e hreply =>
      by_cases hagain : isStillActive text = true
      · rw [if_pos hagain] at hstep
        cases hstep
        exact .carried _ (carries_setConnect s c _) rfl
      · rw [if_neg hagain] at hstep
        exact taken_of_finish (.refl s) rfl hstep
    case h_3 => cases hstep

theorem taken_of_waited (hstep : s.waited c = some (s', o)) : AppTaken s (.waited c) s' := by
  unfold waited at hstep
  split at hstep
  case h_2 => cases hstep
  case h_1 profile attempt error hphase =>
    by_cases hmore : attempt + 1 < 3
    · rw [if_pos hmore] at hstep
      exact taken_of_rdpConnect (.refl s) rfl hstep
    · rw [if_neg hmore] at hstep
      exact taken_of_finish (.refl s) rfl hstep

theorem of_made {r : Option (RdpApp × List AppObs)}
    (hstep : (if s.made then r else none) = some (s', o)) : s.made = true ∧ r = some (s', o) := by
  by_cases hmade : s.made = true
  · rw [if_pos hmade] at hstep
    exact ⟨hmade, hstep⟩
  · rw [if_neg hmade] at hstep
    cases hstep

theorem carries_of_missed (hmade : s'.made = s.made) (hended : s'.ended = s.ended)
    (hdisconnected : s'.disconnected = s.disconnected)
    (hunhandled : ∀ obs ∈ s.unhandled, obs ∈ s'.unhandled) : Carries s s' := by
  refine ⟨fun h => hmade.trans h, fun _ id hmay => ⟨?_, fun h => ?_⟩⟩
  · rw [hdisconnected]
    exact hmay.1
  · rw [hended] at h
    obtain ⟨obs, hobs, heq⟩ := hmay.2 h
    exact ⟨obs, hunhandled obs hobs, heq⟩

theorem taken_of_appStep (hstep : appStep s event = some (s', o)) : AppTaken s event s' := by
  cases event with
  | start =>
    cases hstep
    exact .carried _ ⟨fun _ => rfl, fun _ _ h => h⟩ rfl
  | listenStatus =>
    obtain ⟨-, ⟨⟩⟩ := of_made hstep
    exact .carried _ ⟨id, fun _ _ h => h⟩ rfl
  | listenError =>
    obtain ⟨-, ⟨⟩⟩ := of_made hstep
    exact .carried _ ⟨id, fun _ _ h => h⟩ rfl
  | manager event =>
    obtain ⟨s1, hmanager, ⟨⟩⟩ := Option.map_eq_some_iff.mp hstep
    obtain ⟨hcarries, hservice⟩ := carries_managerStep hmanager
    exact .carried _ hcarries hservice
  | connect profile => exact taken_of_connect (of_made hstep).2
  | prepared c result => exact taken_of_prepared (of_made hstep).2
  | reply c text => exact taken_of_reply (of_made hstep).1 (of_made hstep).2
  | waited c => exact taken_of_waited (of_made hstep).2
  | disconnect id =>
    obtain ⟨s1, hdisconnect, ⟨⟩⟩ := Option.map_eq_some_iff.mp (of_made hstep).2
    obtain ⟨hcarries, hservice⟩ := carries_managerStep hdisconnect
    exact .disconnected hcarries hservice
  | attach profileId id =>
    obtain ⟨hmade, ⟨⟩⟩ := of_made hstep
    exact .attached profileId id hmade
  | status =>
    cases hstatuses : s.statuses with
    | nil =>
      simp only [appStep, hstatuses] at hstep
      cases hstep
    | cons event rest =>
      simp only [appStep, hstatuses] at hstep
      cases hstep
      exact .status hstatuses
  | error =>
    cases herrors : s.errors with
    | nil =>
      simp only [appStep, herrors] at hstep
      cases hstep
    | cons event rest =>
      simp only [appStep, herrors] at hstep
      cases hstep
      exact .error herrors
  | missStatus =>
    cases hstatuses : s.statuses with
    | nil =>
      simp only [appStep, hstatuses] at hstep
      cases hstep
    | cons event rest =>
      simp only [appStep, hstatuses] at hstep
      cases hstep
      refine .carried _ (carries_of_missed rfl rfl rfl fun obs hobs => ?_) rfl
      rw [mem_unhandled] at hobs ⊢
      rw [hstatuses] at hobs
      simp only [List.mem_cons, List.mem_append] at hobs ⊢
      grind
  | missError =>
    cases herrors : s.errors with
    | nil =>
      simp only [appStep, herrors] at hstep
      cases hstep
    | cons event rest =>
      simp only [appStep, herrors] at hstep
      cases hstep
      refine .carried _ (carries_of_missed rfl rfl rfl fun obs hobs => ?_) rfl
      rw [mem_unhandled] at hobs ⊢
      rw [herrors] at hobs
      simp only [List.mem_cons, List.mem_append] at hobs ⊢
      grind

/-- What the maps say. -/
structure Sound (s : RdpApp) : Prop where
  paired : Paired s.service
  made : ∀ profileId id, s.service.activeSessions profileId = some id → s.made = true
  mayBeAlive : ∀ profileId id, s.service.activeSessions profileId = some id → s.MayBeAlive id

theorem Sound.of_kept (hinv : Sound s) (hpaired : Paired s'.service) (hmade : s.made = true → s'.made = true)
    (hkept : ∀ profileId id, s'.service.activeSessions profileId = some id →
      s.service.activeSessions profileId = some id ∧
        (s.made = true → s.MayBeAlive id → s'.MayBeAlive id)) : Sound s' := by
  refine ⟨hpaired, fun profileId id hactive => ?_, fun profileId id hactive => ?_⟩
  · exact hmade (hinv.made profileId id (hkept profileId id hactive).1)
  · obtain ⟨hwas, hstill⟩ := hkept profileId id hactive
    exact hstill (hinv.made profileId id hwas) (hinv.mayBeAlive profileId id hwas)

theorem Sound.carried (hinv : Sound s) (hcarries : Carries s s') (hservice : s'.service = s.service) : Sound s' := by
  refine hinv.of_kept (by rw [hservice]; exact hinv.paired) hcarries.made fun profileId id hactive => ?_
  rw [hservice] at hactive
  exact ⟨hactive, fun hmade => hcarries.mayBeAlive hmade id⟩

theorem Sound.recorded (hinv : Sound s) {profileId id : String} (hmay : s.MayRecord profileId id)
    (hmade : s.made = true) : Sound { s with service := s.service.record profileId id } := by
  refine ⟨hinv.paired.record hmay.2.1 hmay.2.2, fun _ _ _ => hmade, fun profileId' id' hactive => ?_⟩
  rcases record_active hactive with rfl | hwas
  · exact hmay.1
  · exact hinv.mayBeAlive profileId' id' hwas

theorem mayBeAlive_of_handled {id : String} (hended : s'.ended = s.ended)
    (hdisconnected : s'.disconnected = s.disconnected)
    (hunhandled : ∀ obs' ∈ s.unhandled, obs' = obs ∨ obs' ∈ s'.unhandled)
    (hother : endedOf obs ≠ some id) (hmay : s.MayBeAlive id) : s'.MayBeAlive id := by
  refine ⟨hdisconnected ▸ hmay.1, fun h => ?_⟩
  rw [hended] at h
  obtain ⟨obs', hobs', heq⟩ := hmay.2 h
  rcases hunhandled obs' hobs' with rfl | hmem
  · exact absurd heq hother
  · exact ⟨obs', hmem, heq⟩

theorem Sound.handled (hinv : Sound s) (obs : RdpObs) (hended : s'.ended = s.ended)
    (hdisconnected : s'.disconnected = s.disconnected) (hmade : s'.made = s.made)
    (hunhandled : ∀ obs' ∈ s.unhandled, obs' = obs ∨ obs' ∈ s'.unhandled)
    (hservice : (∃ id, endedOf obs = some id ∧ s'.service = s.service.forget id) ∨
      (endedOf obs = none ∧ s'.service = s.service)) : Sound s' := by
  have hpaired := hinv.paired
  rcases hservice with ⟨id, hid, hforget⟩ | ⟨hnone, hsame⟩
  · refine hinv.of_kept (by rw [hforget]; exact hpaired.forget id) (fun h => hmade.trans h)
      fun profileId id' hactive => ?_
    rw [hforget] at hactive
    obtain ⟨hne, hwas⟩ := hpaired.forget_active hactive
    refine ⟨hwas, fun _ hmay => mayBeAlive_of_handled hended hdisconnected hunhandled ?_ hmay⟩
    rw [hid]
    exact fun h => hne (Option.some.inj h).symm
  · refine hinv.of_kept (by rw [hsame]; exact hpaired) (fun h => hmade.trans h) fun profileId id' hactive => ?_
    rw [hsame] at hactive
    refine ⟨hactive, fun _ hmay => mayBeAlive_of_handled hended hdisconnected hunhandled ?_ hmay⟩
    rw [hnone]
    nofun

theorem onStatus_removes (service : RdpBackendService) (event : RdpStatusEvent) :
    (∃ id, endedOf (.status event) = some id ∧ service.onStatus event = service.forget id) ∨
      (endedOf (.status event) = none ∧ service.onStatus event = service) := by
  unfold RdpBackendService.onStatus
  cases hstatus : event.status with
  | disconnected => exact Or.inl ⟨event.sessionId, by simp [endedOf, hstatus], rfl⟩
  | error => exact Or.inl ⟨event.sessionId, by simp [endedOf, hstatus], rfl⟩
  | connected => exact Or.inr ⟨by simp [endedOf, hstatus], rfl⟩
  | connecting => exact Or.inr ⟨by simp [endedOf, hstatus], rfl⟩

theorem onError_removes (service : RdpBackendService) (event : RdpErrorEvent) :
    (∃ id, endedOf (.error event) = some id ∧ service.onError event = service.forget id) ∨
      (endedOf (.error event) = none ∧ service.onError event = service) := by
  unfold RdpBackendService.onError
  cases hsession : event.sessionId with
  | some id => exact Or.inl ⟨id, hsession, rfl⟩
  | none => exact Or.inr ⟨hsession, rfl⟩

theorem Sound.disconnected (hinv : Sound s) (id : String) : Sound { s with
    service := s.service.forget id
    disconnected := s.disconnected ++ [id] } := by
  refine hinv.of_kept (hinv.paired.forget id) (fun h => h) fun profileId id' hactive => ?_
  obtain ⟨hne, hwas⟩ := hinv.paired.forget_active hactive
  refine ⟨hwas, fun _ hmay => ⟨fun hmem => ?_, hmay.2⟩⟩
  rcases List.mem_append.mp hmem with hold | hnew
  · exact hmay.1 hold
  · exact hne (List.mem_singleton.mp hnew)

theorem Sound.step (hinv : Sound s) (hguard : s.RecordsAlive event) (htaken : AppTaken s event s') : Sound s' := by
  cases htaken with
  | carried event hcarries hservice => exact hinv.carried hcarries hservice
  | @recorded c attempt call profile info text hmade hwaiting hreply =>
    have hmay := hguard profile attempt call info hwaiting hreply
    exact (hinv.recorded hmay hmade).carried (carries_setConnect _ c _) rfl
  | attached profileId id hmade => exact hinv.recorded hguard hmade
  | disconnected hcarries hservice => exact (hinv.disconnected _).carried hcarries hservice
  | @status event rest hstatuses =>
    refine hinv.handled (.status event) rfl rfl rfl (fun obs hobs => ?_)
      (onStatus_removes s.service event)
    rw [mem_unhandled] at hobs ⊢
    rw [hstatuses] at hobs
    simp only [List.mem_cons] at hobs
    grind
  | @error event rest herrors =>
    refine hinv.handled (.error event) rfl rfl rfl (fun obs hobs => ?_)
      (onError_removes s.service event)
    rw [mem_unhandled] at hobs ⊢
    rw [herrors] at hobs
    simp only [List.mem_cons] at hobs
    grind

theorem sound_run {h : List AppObs} (hreach : Reaches appStep RecordsAlive .initial h s) : Sound s := by
  have hstart : Sound .initial := ⟨inverse_empty, nofun, nofun⟩
  exact hreach.invariant (I := fun _ s => Sound s) hstart
    fun hinv hguard hstep => hinv.step hguard (taken_of_appStep hstep)

theorem Sound.alive (hinv : Sound s) (hsettled : s.Settled) {profileId id : String}
    (hactive : s.service.activeSessions profileId = some id) : s.Alive id := by
  have hmay := hinv.mayBeAlive profileId id hactive
  refine ⟨fun hended => ?_, hmay.1⟩
  obtain ⟨obs, hobs, -⟩ := hmay.2 hended
  rw [hsettled.1] at hobs
  cases hobs

theorem active_of_connect {result : RdpConnectionResult} (hstep : appStep s (.connect profile) = some (s', o))
    (hreturned : .connectReturned c (.ok result) ∈ o) :
    s.service.activeSessions profile.id = some result.sessionId := by
  obtain ⟨-, hconnect⟩ := of_made hstep
  unfold connect at hconnect
  dsimp only at hconnect
  split at hconnect
  case h_1 existing hactive =>
    cases hconnect
    have hobs := List.mem_singleton.mp hreturned
    injection hobs with _ hresult
    injection hresult with hresult
    rw [hresult]
    exact hactive
  case h_2 hactive =>
    split at hconnect
    · cases hconnect
      cases hreturned
    · obtain ⟨s1, -, ⟨⟩⟩ := Option.map_eq_some_iff.mp hconnect
      cases hreturned

end RdpApp

open RdpApp

/-- Where replies and attaches record only sessions that may still be alive, the maps of the service
are inverse to each other, and in a settled state they name only sessions that are alive, which are
also all that a connect returns at once. -/
theorem app_reuses_only_live_sessions (h : List AppObs) (s : RdpApp)
    (hreach : Reaches appStep RecordsAlive .initial h s) :
    (∀ profileId id, s.service.activeSessions profileId = some id ↔
      s.service.sessionToProfile id = some profileId) ∧
    (s.Settled → ∀ profileId id, s.service.activeSessions profileId = some id → s.Alive id) ∧
    (s.Settled → ∀ profile s' o c result, appStep s (.connect profile) = some (s', o) →
      .connectReturned c (.ok result) ∈ o → s.Alive result.sessionId) := by
  have hsound := sound_run hreach
  refine ⟨hsound.paired, fun hsettled profileId id hactive => hsound.alive hsettled hactive, ?_⟩
  intro hsettled profile s' o c result hstep hreturned
  exact hsound.alive hsettled (active_of_connect hstep hreturned)

def recordsCheck (s : RdpApp) : AppEvent → Bool
  | .reply c _ => match s.connects c with
    | .waiting profile _ call => match s.replies.lookup call with
      | some (.ok info) => s.MayRecord profile.id info.id
      | _ => true
    | _ => true
  | .attach profileId id => s.MayRecord profileId id
  | _ => true

theorem records_of_check (s : RdpApp) (event : AppEvent) (hcheck : recordsCheck s event = true) :
    s.RecordsAlive event := by
  unfold RecordsAlive
  split
  case h_1 c text =>
    intro profile attempt call info hwaiting hreply
    simpa [recordsCheck, hwaiting, hreply] using hcheck
  case h_2 profileId id => simpa [recordsCheck] using hcheck
  case h_3 => trivial

/-- A session that is connected is recorded, and alive once everything has been handled. -/
theorem app_reuses_only_live_sessions_connected : ∃ h s, Reaches appStep RecordsAlive .initial h s ∧
    s.Settled ∧ s.service.activeSessions "p" = some "a" ∧ s.Alive "a" := by
  obtain ⟨h, s, hreach, hsettled, hactive⟩ := Reaches.exists_of_checkedEvents appStep .initial
    (P := fun s : RdpApp => s.Settled ∧ s.service.activeSessions "p" = some "a") recordsCheck
    records_of_check [.start, .listenStatus, .listenError, .connect deskProfile,
      .manager (.advance 0), .manager (.create 0 "a"), .manager (.advance 0), .manager (.advance 0),
      .reply 0 ""] (by decide)
  exact ⟨h, s, hreach, hsettled, hactive,
    (app_reuses_only_live_sessions h s hreach).2.1 hsettled "p" "a" hactive⟩

/-- A session that fails before the reply to its connect arrives stays recorded. -/
theorem dead_session_reused : ¬ ∀ h s, Reaches appStep (fun _ _ => True) .initial h s →
    (∀ profileId id, s.service.activeSessions profileId = some id ↔
      s.service.sessionToProfile id = some profileId) ∧
    (s.Settled → ∀ profileId id, s.service.activeSessions profileId = some id → s.Alive id) := by
  intro hclaim
  obtain ⟨h, s, hreach, hsettled, hactive, hended⟩ := Reaches.exists_of_events appStep .initial
    (P := fun s : RdpApp => s.Settled ∧ s.service.activeSessions "p" = some "a" ∧ "a" ∈ s.ended)
    [.start, .listenStatus, .listenError, .connect deskProfile, .manager (.advance 0),
      .manager (.create 0 "a"), .manager (.task "a" (.runtime .check)),
      .manager (.task "a" (.runtime .check)),
      .manager (.task "a" (.runtime (.connect (.error .connectionTimeout)))),
      .manager (.task "a" .report), .manager (.task "a" .report), .error, .status,
      .manager (.advance 0), .manager (.advance 0), .reply 0 ""] (by decide)
  exact ((hclaim _ _ hreach).2 hsettled "p" "a" hactive).1 hended

end Portix.App
