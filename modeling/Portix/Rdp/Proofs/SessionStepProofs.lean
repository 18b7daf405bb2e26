import Portix.Rdp.Proofs.RdpStepProofs

/-!
# Proofs: what a step does to one session

Every step of the manager leaves all but at most one session as they are, or only tells them to stop
or hands their handles on. What becomes of one session is said here once, for what holds of sessions
one by one.
-/

namespace Portix.Rdp

open Lib

/-- Nothing is seen of the session. -/
def Silent (id : String) (o : List RdpObs) : Prop := ∀ obs ∈ o, obs.sessionId ≠ some id

theorem silent_nil (id : String) : Silent id [] := nofun

theorem silent_of_returning {o : List RdpObs} (ho : RdpManager.Returning o) (id : String) :
    Silent id o := by
  intro obs hobs
  rcases ho with rfl | ⟨c, result, rfl⟩ | ⟨c, result, rfl⟩
  · cases hobs
  · obtain rfl := List.mem_singleton.mp hobs
    nofun
  · obtain rfl := List.mem_singleton.mp hobs
    nofun

variable {id id' : String}

theorem Silent.seen {o : List RdpObs} (hsilent : Silent id o) :
    finalStatuses id o = [] ∧ o.countP (RdpObs.isErrorOf id) = 0 := by
  constructor
  · refine List.filterMap_eq_nil_iff.mpr fun obs hobs => ?_
    have hne := hsilent obs hobs
    cases obs with
    | status event =>
      have hid : event.sessionId ≠ id := fun heq => hne (congrArg some heq)
      simp [RdpObs.finalStatus, hid]
    | _ => rfl
  · refine List.countP_eq_zero.mpr fun obs hobs => ?_
    have hne := hsilent obs hobs
    cases obs with
    | error event =>
      have hid : event.sessionId ≠ some id := hne
      simpa [RdpObs.isErrorOf] using hid
    | _ => nofun

theorem RdpSession.TaskTaken.silent {r r' : RdpSession} {globalCancel : Bool}
    {event : RdpTaskEvent} {o : List RdpObs} (htaken : TaskTaken r id globalCancel event r' o)
    (hne : id ≠ id') : Silent id' o := by
  have hne' : some id ≠ some id' := fun h => hne (Option.some.inj h)
  intro obs hobs
  cases htaken with
  | stopped hopen hcancelled => cases hobs
  | shut hopen hglobal => cases hobs
  | @wentOn phase phase' queue status event hphase hturn =>
    obtain ⟨status, -, rfl⟩ := List.mem_map.mp hobs
    exact hne'
  | returned event hphase hturn => cases hobs
  | reportedOk hphase =>
    obtain rfl := List.mem_singleton.mp hobs
    exact hne'
  | reportedError hphase =>
    obtain rfl := List.mem_singleton.mp hobs
    exact hne'
  | reportedStatus hphase =>
    obtain rfl := List.mem_singleton.mp hobs
    exact hne'

namespace RdpManager

/-- A session is left alone, but that it may be told to stop, by its own token or the global one. -/
structure Tells (globalCancel : Bool) (r r' : RdpSession) : Prop where
  phase : r'.phase = r.phase
  profile : r'.profile = r.profile
  told : r'.told = r.told ∨
    (r'.told = (r.told || r.phase.isOpen) ∧ (r'.cancelled = true ∨ globalCancel = true))
  cancelled : r.cancelled = true → r'.cancelled = true
  listed : r'.handle = .listed → r.handle = .listed

/-- What a step can do to the session `id`, where `globalCancel` says whether the global token is
cancelled afterwards. -/
inductive SessionTaken (s : RdpManager) (id : String) (globalCancel : Bool) :
    RdpEvent → RdpSession → List RdpObs → Prop where
  | told {r : RdpSession} {o : List RdpObs} (event : RdpEvent)
    (htells : Tells globalCancel (s.sessions id) r) (ho : Silent id o) :
    SessionTaken s id globalCancel event r o
  | made {profile : RdpProfile} {c : Nat} (hphase : (s.sessions id).phase = .absent) :
    SessionTaken s id globalCancel (.create c id) { RdpSession.absent with
      profile := profile
      phase := .inRuntime .starting
      handle := .creating
      told := s.globalCancel } []
  | inserted {profile : RdpProfile} {c : Nat} (hcall : s.calls c = .spawned profile id) :
    SessionTaken s id globalCancel (.advance c) { s.sessions id with handle := .listed } []
  | task {event : RdpTaskEvent} {r : RdpSession} {o : List RdpObs}
    (htaken : RdpSession.TaskTaken (s.sessions id) id s.globalCancel event r o) :
    SessionTaken s id globalCancel (.task id event) r o
  | removed (hphase : (s.sessions id).phase = .leaving) : SessionTaken s id globalCancel
      (.task id .remove) { (s.sessions id).unlist with phase := .unindexing } []
  | cleaned (hphase : (s.sessions id).phase = .unindexing) : SessionTaken s id globalCancel
      (.task id .unindex) { s.sessions id with phase := .cleaned } []

variable {s s' : RdpManager} {event : RdpEvent} {o : List RdpObs}

section

variable {g : Bool} {r r' : RdpSession}

theorem Tells.refl (r : RdpSession) : Tells g r r :=
  ⟨rfl, rfl, Or.inl rfl, id, id⟩

theorem Sends.tells {command : RdpCommand} (hsends : Sends r command r') : Tells g r r' := by
  cases hsends with
  | accepted hopen hroom => exact ⟨rfl, rfl, Or.inl rfl, id, id⟩
  | refused hclosed => exact .refl r

theorem tells_handle (r : RdpSession) {handle : HandlePlace} (hne : handle ≠ .listed) :
    Tells g r { r with handle := handle } :=
  ⟨rfl, rfl, Or.inl rfl, id, fun h => absurd h hne⟩

theorem unlist_tells (r : RdpSession) : Tells g r r.unlist := by
  unfold RdpSession.unlist
  split
  case isTrue hlisted => exact tells_handle r nofun
  case isFalse => exact .refl r

theorem take_tells (r : RdpSession) : Tells g r (take r) := by
  unfold take
  split
  case isTrue hlisted => exact tells_handle r nofun
  case isFalse => exact .refl r

theorem cancel_tells (r : RdpSession) : Tells g r r.cancel :=
  ⟨rfl, rfl, Or.inr ⟨rfl, Or.inl rfl⟩, fun _ => rfl, id⟩

end

theorem sessionTaken_update {g : Bool} {r : RdpSession}
    (hsilent : ∀ id, id' ≠ id → Silent id o) (htaken : SessionTaken s id' g event r o) (id : String) :
    SessionTaken s id g event (Function.update s.sessions id' r id) o := by
  by_cases hid : id = id'
  · subst hid
    rw [Function.update_self]
    exact htaken
  · rw [Function.update_of_ne hid]
    exact .told event (.refl _) (hsilent id (Ne.symm hid))

theorem sessionTaken_tells {g : Bool} {r : RdpSession}
    (htells : Tells g (s.sessions id') r) (hsilent : ∀ id, Silent id o) (id : String) :
    SessionTaken s id g event (Function.update s.sessions id' r id) o :=
  sessionTaken_update (fun id _ => hsilent id) (.told event htells (hsilent id')) id

theorem session_of_taken (htaken : Taken s event s' o) (id : String) :
    SessionTaken s id s'.globalCancel event (s'.sessions id) o := by
  cases htaken with
  | begun call hrunning hbegins ho => exact .told _ (.refl _) (silent_of_returning ho id)
  | moved hmoves ho => exact .told _ (.refl _) (silent_of_returning ho id)
  | unlisted hcall => exact sessionTaken_tells (unlist_tells _) silent_nil id
  | unindexedStale hcall => exact .told _ (.refl _) (silent_nil id)
  | inserted hcall => exact sessionTaken_update (fun id _ => silent_nil id) (.inserted hcall) id
  | indexed hcall ho => exact .told _ (.refl _) (silent_of_returning ho id)
  | took hcall hhandle =>
    have hne : HandlePlace.taken ≠ .listed := nofun
    exact sessionTaken_tells (tells_handle _ hne) silent_nil id
  | cancelled hcall => exact sessionTaken_tells (cancel_tells _) silent_nil id
  | closed hcall hsends => exact sessionTaken_tells hsends.tells silent_nil id
  | unindexed hcall =>
    have hne : HandlePlace.dropped ≠ .listed := nofun
    exact sessionTaken_tells (tells_handle _ hne) silent_nil id
  | drained hcall => exact .told _ (take_tells _) (silent_nil id)
  | cleared hcall => exact .told _ (.refl _) (silent_nil id)
  | @closedOne c id' rest session hcall hsends =>
    have htells : Tells s.globalCancel (s.sessions id') session := hsends.tells
    have hdropped : Tells s.globalCancel (s.sessions id') { session with handle := .dropped } :=
      ⟨htells.phase, htells.profile, htells.told, htells.cancelled, nofun⟩
    exact sessionTaken_tells hdropped silent_nil id
  | input hcall hsends ho => exact sessionTaken_tells hsends.tells (silent_of_returning ho) id
  | waits hcall hlisted hfull => exact .told _ (.refl _) (silent_nil id)
  | entered hcall hsends ho => exact sessionTaken_tells hsends.tells (silent_of_returning ho) id
  | created hcall hphase => exact sessionTaken_update (fun id _ => silent_nil id) (.made hphase) id
  | cancelledOne hcall hmem => exact sessionTaken_tells (cancel_tells _) silent_nil id
  | task hstep =>
    have htask := RdpSession.taskTaken_of_step hstep
    exact sessionTaken_update (fun id hne => htask.silent hne) (.task htask) id
  | removed hphase => exact sessionTaken_update (fun id _ => silent_nil id) (.removed hphase) id
  | cleaned hphase => exact sessionTaken_update (fun id _ => silent_nil id) (.cleaned hphase) id
  | dropped =>
    exact .told _ ⟨rfl, rfl, Or.inr ⟨rfl, Or.inr rfl⟩, fun h => h, fun h => h⟩ (silent_nil id)

end RdpManager

end Portix.Rdp
