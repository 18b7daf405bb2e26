import Portix.Rdp.SessionManager

/-!
# Proofs: the steps of the RDP session manager

What each step of a call, of a task and of the manager can be, said once.
-/

namespace Portix.Rdp

open Lib

theorem runtimeStep_status {profile : RdpProfile} {isCancelled hasSender : Bool}
    {queue queue' : List RdpCommand} {phase phase' : RuntimePhase} {event : RuntimeEvent}
    {status : RdpConnectionStatus} {message : String}
    (hstep : runtimeStep profile isCancelled queue hasSender phase event =
      some (.goesOn phase' queue' (some (status, message)))) :
    status = .connected ∨ status = .connecting := by
  unfold runtimeStep at hstep
  split at hstep
  case h_1 => split at hstep <;> cases hstep
  case h_2 => split at hstep <;> cases hstep
  case h_3 =>
    cases hstep
    exact Or.inl rfl
  case h_4 =>
    split at hstep
    · cases hstep
      exact Or.inr rfl
    · cases hstep
  case h_6 => split at hstep <;> cases hstep
  case h_10 result =>
    split at hstep
    · cases hstep
    · cases result <;> cases hstep
    · split at hstep <;> cases hstep
  all_goals cases hstep

namespace RdpSession

inductive TaskTaken (s : RdpSession) (id : String) (globalCancel : Bool) :
    RdpTaskEvent → RdpSession → List RdpObs → Prop where
  | stopped (hopen : s.phase.isOpen = true) (hcancelled : s.cancelled = true) :
    TaskTaken s id globalCancel .stop (s.finish (.ok ())) []
  | shut (hopen : s.phase.isOpen = true) (hglobal : globalCancel = true) :
    TaskTaken s id globalCancel .shutdown (s.finish (.ok ())) []
  | wentOn {phase phase' : RuntimePhase} {queue : List RdpCommand}
    {status : Option (RdpConnectionStatus × String)} (event : RuntimeEvent)
    (hphase : s.phase = .inRuntime phase)
    (hturn : runtimeStep s.profile s.cancelled s.queue (s.handle ≠ .dropped) phase event =
      some (.goesOn phase' queue status)) :
    TaskTaken s id globalCancel (.runtime event) { s with phase := .inRuntime phase', queue := queue }
      (status.toList.map fun (status, message) => .status ⟨id, status, some message⟩)
  | returned {phase : RuntimePhase} {result : Except RdpError Unit} (event : RuntimeEvent)
    (hphase : s.phase = .inRuntime phase)
    (hturn : runtimeStep s.profile s.cancelled s.queue (s.handle ≠ .dropped) phase event =
      some (.returns result)) :
    TaskTaken s id globalCancel (.runtime event) (s.finish result) []
  | reportedOk (hphase : s.phase = .finished (.ok ())) :
    TaskTaken s id globalCancel .report { s with phase := .leaving }
      [.status ⟨id, .disconnected, some "disconnected normally"⟩]
  | reportedError {e : RdpError} (hphase : s.phase = .finished (.error e)) :
    TaskTaken s id globalCancel .report { s with phase := .reported e }
      [.error ⟨some id, e.text, "UNKNOWN"⟩]
  | reportedStatus {e : RdpError} (hphase : s.phase = .reported e) :
    TaskTaken s id globalCancel .report { s with phase := .leaving }
      [.status ⟨id, .error, some e.text⟩]

theorem taskTaken_of_step {s s' : RdpSession} {id : String} {globalCancel : Bool}
    {event : RdpTaskEvent} {o : List RdpObs}
    (hstep : s.taskStep id globalCancel event = some (s', o)) :
    TaskTaken s id globalCancel event s' o := by
  unfold taskStep at hstep
  split at hstep
  case h_1 phase hphase =>
    by_cases hcancelled : s.cancelled = true
    · rw [if_pos hcancelled] at hstep
      cases hstep
      exact .stopped (by rw [hphase]; rfl) hcancelled
    · rw [if_neg hcancelled] at hstep
      cases hstep
  case h_2 phase hphase =>
    by_cases hglobal : globalCancel = true
    · rw [if_pos hglobal] at hstep
      cases hstep
      exact .shut (by rw [hphase]; rfl) hglobal
    · rw [if_neg hglobal] at hstep
      cases hstep
  case h_3 phase event hphase =>
    obtain ⟨turn, hturn, heq⟩ := Option.map_eq_some_iff.mp hstep
    cases turn with
    | goesOn phase' queue status =>
      cases heq
      exact .wentOn event hphase hturn
    | returns result =>
      cases heq
      exact .returned event hphase hturn
  case h_4 hphase =>
    cases hstep
    exact .reportedOk hphase
  case h_5 e hphase =>
    cases hstep
    exact .reportedError hphase
  case h_6 e hphase =>
    cases hstep
    exact .reportedStatus hphase
  case h_7 => cases hstep

end RdpSession

namespace RdpManager

/-- The steps of calls that change nothing but the call. -/
inductive CallMoves (s : RdpManager) : CallPhase → CallPhase → Prop where
  | looked {profile : RdpProfile} {existing : String} (hindex : s.index profile.id = some existing) :
    CallMoves s (.checking profile) (.found profile existing)
  | unindexed {profile : RdpProfile} (hindex : s.index profile.id = none) :
    CallMoves s (.checking profile) (.creating profile)
  | missing {profile : RdpProfile} {existing : String}
    (hhandle : (s.sessions existing).handle ≠ .listed) :
    CallMoves s (.found profile existing) (.creating profile)
  | closed {profile : RdpProfile} {existing : String}
    (hhandle : (s.sessions existing).handle = .listed)
    (hclosed : (s.sessions existing).isClosed = true) :
    CallMoves s (.found profile existing) (.stale profile existing)
  | reused {profile : RdpProfile} {existing : String}
    (hhandle : (s.sessions existing).handle = .listed)
    (hopen : (s.sessions existing).isClosed = false) :
    CallMoves s (.found profile existing) .returned
  | gone {id : String} (hhandle : (s.sessions id).handle ≠ .listed) :
    CallMoves s (.disconnecting id) .returned
  | ignored {id : String} {command : RdpCommand} (hhandle : (s.sessions id).handle ≠ .listed) :
    CallMoves s (.inputting id command) .returned

/-- A command is sent to the queue of a session, or refused because the receiver is gone. -/
inductive Sends (session : RdpSession) (command : RdpCommand) : RdpSession → Prop where
  | accepted (hopen : session.phase.isOpen = true)
    (hroom : session.queue.length < rdpCommandCapacity) :
    Sends session command { session with queue := session.queue ++ [command] }
  | refused (hclosed : session.phase.isOpen = false) : Sends session command session

inductive Begins : CallPhase → Prop where
  | refused : Begins .returned
  | connect (profile : RdpProfile) : Begins (.checking profile)
  | disconnect (id : String) : Begins (.disconnecting id)
  | disconnectAll : Begins .draining
  | input (id : String) (command : RdpCommand) : Begins (.inputting id command)

/-- A call returns; nothing else is seen. -/
def Returning (o : List RdpObs) : Prop :=
  o = [] ∨ (∃ c result, o = [.connectReturned c result]) ∨ ∃ c result, o = [.inputReturned c result]

/-- What a step can be. -/
inductive Taken (s : RdpManager) : RdpEvent → RdpManager → List RdpObs → Prop where
  | begun {phase : CallPhase} {o : List RdpObs} (call : RdpCall) (hrunning : s.globalCancel = false)
    (hbegins : Begins phase) (ho : Returning o) :
    Taken s (.begin call) ({ s with nextCall := s.nextCall + 1 }.setCall s.nextCall phase) o
  | moved {c : Nat} {phase : CallPhase} {o : List RdpObs} (hmoves : CallMoves s (s.calls c) phase)
    (ho : Returning o) : Taken s (.advance c) (s.setCall c phase) o
  | unlisted {c : Nat} {profile : RdpProfile} {existing : String}
    (hcall : s.calls c = .stale profile existing) : Taken s (.advance c)
      ((s.setSession existing (s.sessions existing).unlist).setCall c (.staleIndex profile)) []
  | unindexedStale {c : Nat} {profile : RdpProfile} (hcall : s.calls c = .staleIndex profile) :
    Taken s (.advance c) ((s.setIndex profile.id none).setCall c (.creating profile)) []
  | inserted {c : Nat} {profile : RdpProfile} {id : String}
    (hcall : s.calls c = .spawned profile id) : Taken s (.advance c)
      ((s.setSession id { s.sessions id with handle := .listed }).setCall c (.inserted profile id)) []
  | indexed {c : Nat} {profile : RdpProfile} {id : String} {o : List RdpObs}
    (hcall : s.calls c = .inserted profile id) (ho : Returning o) : Taken s (.advance c)
      ((s.setIndex profile.id (some id)).setCall c .returned) o
  | took {c : Nat} {id : String} (hcall : s.calls c = .disconnecting id)
    (hhandle : (s.sessions id).handle = .listed) : Taken s (.advance c)
      ((s.setSession id { s.sessions id with handle := .taken }).setCall c (.taken id)) []
  | cancelled {c : Nat} {id : String} (hcall : s.calls c = .taken id) : Taken s (.advance c)
      ((s.setSession id (s.sessions id).cancel).setCall c (.closing id)) []
  | closed {c : Nat} {id : String} {session : RdpSession} (hcall : s.calls c = .closing id)
    (hsends : Sends (s.sessions id) .disconnect session) : Taken s (.advance c)
      ((s.setSession id session).setCall c (.unindexing id)) []
  | unindexed {c : Nat} {id : String} (hcall : s.calls c = .unindexing id) : Taken s (.advance c)
      (((s.setIndex (s.profileOf id) none).setSession id
        { s.sessions id with handle := .dropped }).setCall c .returned) []
  | drained {c : Nat} (hcall : s.calls c = .draining) : Taken s (.advance c)
      ({ s with sessions := fun id => take (s.sessions id) }.setCall c
        (.drained (s.ids.filter s.isSessionActive))) []
  | cleared {c : Nat} (hcall : s.calls c = .drained []) : Taken s (.advance c)
      ({ s with index := fun _ => none }.setCall c .returned) []
  | closedOne {c : Nat} {id : String} {rest : List String} {session : RdpSession}
    (hcall : s.calls c = .closingOne id rest)
    (hsends : Sends (s.sessions id) .disconnect session) : Taken s (.advance c)
      ((s.setSession id { session with handle := .dropped }).setCall c (.drained rest)) []
  | input {c : Nat} {id : String} {command : RdpCommand} {session : RdpSession} {o : List RdpObs}
    (hcall : s.calls c = .inputting id command) (hsends : Sends (s.sessions id) command session)
    (ho : Returning o) : Taken s (.advance c) ((s.setSession id session).setCall c .returned) o
  | waits {c : Nat} {id : String} {command : RdpCommand} (hcall : s.calls c = .inputting id command)
    (hlisted : (s.sessions id).handle = .listed)
    (hfull : send (s.sessions id) command = none) : Taken s (.advance c)
      ({ s with lock := some c }.setCall c (.sending id command)) []
  | entered {c : Nat} {id : String} {command : RdpCommand} {session : RdpSession} {o : List RdpObs}
    (hcall : s.calls c = .sending id command) (hsends : Sends (s.sessions id) command session)
    (ho : Returning o) : Taken s (.advance c)
      (({ s with lock := none }.setSession id session).setCall c .returned) o
  | created {c : Nat} {id : String} {profile : RdpProfile} (hcall : s.calls c = .creating profile)
    (hphase : (s.sessions id).phase = .absent) : Taken s (.create c id)
      (({ s with ids := s.ids ++ [id] }.setSession id { RdpSession.absent with
        profile := profile
        phase := .inRuntime .starting
        handle := .creating
        told := s.globalCancel }).setCall c (.spawned profile id)) []
  | cancelledOne {c : Nat} {id : String} {ids : List String} (hcall : s.calls c = .drained ids)
    (hmem : id ∈ ids) : Taken s (.close c id)
      ((s.setSession id (s.sessions id).cancel).setCall c (.closingOne id (ids.erase id))) []
  | task {id : String} {event : RdpTaskEvent} {session : RdpSession} {o : List RdpObs}
    (hstep : (s.sessions id).taskStep id s.globalCancel event = some (session, o)) :
    Taken s (.task id event) (s.setSession id session) o
  | removed {id : String} (hphase : (s.sessions id).phase = .leaving) : Taken s (.task id .remove)
      (s.setSession id { (s.sessions id).unlist with phase := .unindexing }) []
  | cleaned {id : String} (hphase : (s.sessions id).phase = .unindexing) :
    Taken s (.task id .unindex) ((s.setIndex (s.profileOf id) none).setSession id
      { s.sessions id with phase := .cleaned }) []
  | dropped : Taken s .drop { s with
      globalCancel := true
      sessions := fun id => { s.sessions id with
        told := (s.sessions id).told || (s.sessions id).phase.isOpen } } []

variable {s s' : RdpManager} {event : RdpEvent} {o : List RdpObs}

theorem sends_of_send {session session' : RdpSession} {command : RdpCommand} {accepted : Bool}
    (hsend : send session command = some (session', accepted)) : Sends session command session' := by
  unfold send at hsend
  by_cases hclosed : session.isClosed = true
  · rw [if_pos hclosed] at hsend
    cases hsend
    exact .refused (by simpa [RdpSession.isClosed] using hclosed)
  · rw [if_neg hclosed] at hsend
    by_cases hroom : session.queue.length < rdpCommandCapacity
    · rw [if_pos hroom] at hsend
      cases hsend
      exact .accepted (by simpa [RdpSession.isClosed] using hclosed) hroom
    · rw [if_neg hroom] at hsend
      cases hsend

theorem taken_of_begin {call : RdpCall} (hstep : rdpStep s (.begin call) = some (s', o)) :
    Taken s (.begin call) s' o := by
  have hrunning : s.globalCancel = false := by
    by_contra hdropped
    rw [Bool.not_eq_false] at hdropped
    simp [rdpStep, hdropped] at hstep
  have hbegin : s.begin call = (s', o) := by simpa [rdpStep, hrunning] using hstep
  unfold begin at hbegin
  cases call with
  | connect profile =>
    dsimp only at hbegin
    split at hbegin
    · cases hbegin
      exact .begun _ hrunning .refused (Or.inr (Or.inl ⟨_, _, rfl⟩))
    · cases hbegin
      exact .begun _ hrunning (.connect profile) (Or.inl rfl)
  | disconnect id =>
    cases hbegin
    exact .begun _ hrunning (.disconnect id) (Or.inl rfl)
  | disconnectAll =>
    cases hbegin
    exact .begun _ hrunning .disconnectAll (Or.inl rfl)
  | input id command =>
    cases hbegin
    exact .begun _ hrunning (.input id command) (Or.inl rfl)

theorem of_unlocked {r : Option (RdpManager × List RdpObs)}
    (hstep : (if s.lock ≠ none then none else r) = some (s', o)) :
    s.lock = none ∧ r = some (s', o) := by
  by_cases hlock : s.lock = none
  · rw [if_neg (not_not_intro hlock)] at hstep
    exact ⟨hlock, hstep⟩
  · rw [if_pos hlock] at hstep
    cases hstep

theorem of_sendMap {session : RdpSession} {command : RdpCommand}
    {f : RdpSession × Bool → RdpManager × List RdpObs}
    (hstep : (send session command).map f = some (s', o)) : ∃ session' accepted,
      Sends session command session' ∧ f (session', accepted) = (s', o) := by
  obtain ⟨⟨session', accepted⟩, hsend, heq⟩ := Option.map_eq_some_iff.mp hstep
  exact ⟨session', accepted, sends_of_send hsend, heq⟩

theorem taken_of_connect {c : Nat} {profile : RdpProfile} {existing : String}
    (hcall : s.calls c = .found profile existing) (hstep : s.advance c = some (s', o)) :
    Taken s (.advance c) s' o := by
  unfold advance at hstep
  rw [hcall] at hstep
  obtain ⟨-, hstep⟩ := of_unlocked hstep
  by_cases hhandle : (s.sessions existing).handle = .listed
  · rw [if_neg (not_not_intro hhandle)] at hstep
    by_cases hclosed : (s.sessions existing).isClosed = true
    · rw [if_pos hclosed] at hstep
      cases hstep
      exact .moved (hcall ▸ .closed hhandle hclosed) (Or.inl rfl)
    · rw [if_neg hclosed] at hstep
      cases hstep
      exact .moved (hcall ▸ .reused hhandle (Bool.eq_false_iff.mpr hclosed))
        (Or.inr (Or.inl ⟨_, _, rfl⟩))
  · rw [if_pos hhandle] at hstep
    cases hstep
    exact .moved (hcall ▸ .missing hhandle) (Or.inl rfl)

theorem taken_of_input {c : Nat} {id : String} {command : RdpCommand}
    (hcall : s.calls c = .inputting id command) (hstep : s.advance c = some (s', o)) :
    Taken s (.advance c) s' o := by
  unfold advance at hstep
  rw [hcall] at hstep
  obtain ⟨-, hstep⟩ := of_unlocked hstep
  by_cases hhandle : (s.sessions id).handle = .listed
  · rw [if_neg (not_not_intro hhandle)] at hstep
    split at hstep
    case h_1 session accepted hsend =>
      cases hstep
      exact .input hcall (sends_of_send hsend) (Or.inr (Or.inr ⟨_, _, rfl⟩))
    case h_2 hsend =>
      cases hstep
      exact .waits hcall hhandle hsend
  · rw [if_pos hhandle] at hstep
    cases hstep
    exact .moved (hcall ▸ .ignored hhandle) (Or.inr (Or.inr ⟨_, _, rfl⟩))

theorem taken_of_advance {c : Nat} (hstep : s.advance c = some (s', o)) : Taken s (.advance c) s' o := by
  have hadvance := hstep
  unfold advance at hstep
  cases hcall : s.calls c with
  | checking profile =>
    rw [hcall] at hstep
    dsimp only at hstep
    split at hstep
    case h_1 existing hindex =>
      cases hstep
      exact .moved (hcall ▸ .looked hindex) (Or.inl rfl)
    case h_2 hindex =>
      cases hstep
      exact .moved (hcall ▸ .unindexed hindex) (Or.inl rfl)
  | found profile existing => exact taken_of_connect hcall hadvance
  | stale profile existing =>
    rw [hcall] at hstep
    obtain ⟨-, hstep⟩ := of_unlocked hstep
    cases hstep
    exact .unlisted hcall
  | staleIndex profile =>
    rw [hcall] at hstep
    cases hstep
    exact .unindexedStale hcall
  | spawned profile id =>
    rw [hcall] at hstep
    obtain ⟨-, hstep⟩ := of_unlocked hstep
    cases hstep
    exact .inserted hcall
  | inserted profile id =>
    rw [hcall] at hstep
    cases hstep
    exact .indexed hcall (Or.inr (Or.inl ⟨_, _, rfl⟩))
  | disconnecting id =>
    rw [hcall] at hstep
    obtain ⟨-, hstep⟩ := of_unlocked hstep
    by_cases hhandle : (s.sessions id).handle = .listed
    · rw [if_pos hhandle] at hstep
      cases hstep
      have htake : take (s.sessions id) = { s.sessions id with handle := .taken } := if_pos hhandle
      rw [htake]
      exact .took hcall hhandle
    · rw [if_neg hhandle] at hstep
      cases hstep
      exact .moved (hcall ▸ .gone hhandle) (Or.inl rfl)
  | taken id =>
    rw [hcall] at hstep
    cases hstep
    exact .cancelled hcall
  | closing id =>
    rw [hcall] at hstep
    obtain ⟨session, accepted, hsends, ⟨⟩⟩ := of_sendMap hstep
    exact .closed hcall hsends
  | unindexing id =>
    rw [hcall] at hstep
    cases hstep
    exact .unindexed hcall
  | draining =>
    rw [hcall] at hstep
    obtain ⟨-, hstep⟩ := of_unlocked hstep
    cases hstep
    exact .drained hcall
  | drained ids =>
    rw [hcall] at hstep
    cases ids with
    | nil =>
      cases hstep
      exact .cleared hcall
    | cons id rest => cases hstep
  | closingOne id rest =>
    rw [hcall] at hstep
    obtain ⟨session, accepted, hsends, ⟨⟩⟩ := of_sendMap hstep
    exact .closedOne hcall hsends
  | inputting id command => exact taken_of_input hcall hadvance
  | sending id command =>
    rw [hcall] at hstep
    obtain ⟨session, accepted, hsends, ⟨⟩⟩ := of_sendMap hstep
    exact .entered hcall hsends (Or.inr (Or.inr ⟨_, _, rfl⟩))
  | _ =>
    rw [hcall] at hstep
    cases hstep

theorem taken_of_task {id : String} {event : RdpTaskEvent} (hstep : s.task id event = some (s', o)) :
    Taken s (.task id event) s' o := by
  unfold task at hstep
  split at hstep
  case h_1 hphase =>
    obtain ⟨-, hstep⟩ := of_unlocked hstep
    cases hstep
    exact .removed hphase
  case h_2 hphase =>
    cases hstep
    exact .cleaned hphase
  case h_3 =>
    obtain ⟨⟨session, obs⟩, htask, ⟨⟩⟩ := Option.map_eq_some_iff.mp hstep
    exact .task htask

theorem taken_of_step (hstep : rdpStep s event = some (s', o)) : Taken s event s' o := by
  cases event with
  | begin call => exact taken_of_begin hstep
  | advance c => exact taken_of_advance hstep
  | create c id =>
    have hcreate : s.create c id = some (s', o) := hstep
    unfold create at hcreate
    split at hcreate
    case h_1 profile hcall =>
      by_cases hphase : (s.sessions id).phase = .absent
      · rw [if_pos hphase] at hcreate
        cases hcreate
        exact .created hcall hphase
      · rw [if_neg hphase] at hcreate
        cases hcreate
    case h_2 => cases hcreate
  | close c id =>
    have hclose : s.close c id = some (s', o) := hstep
    unfold close at hclose
    split at hclose
    case h_1 ids hcall =>
      by_cases hmem : id ∈ ids
      · rw [if_pos hmem] at hclose
        cases hclose
        exact .cancelledOne hcall hmem
      · rw [if_neg hmem] at hclose
        cases hclose
    case h_2 => cases hclose
  | task id event => exact taken_of_task hstep
  | drop =>
    have hdrop : s.drop = some (s', o) := hstep
    unfold drop at hdrop
    split at hdrop
    · cases hdrop
      exact .dropped
    · cases hdrop

section

variable {r r' : RdpSession} {id : String} {command : RdpCommand}

/-- How a handle goes from hand to hand, once its connect has put it in the map. -/
def HandleMoves (handle handle' : HandlePlace) : Prop :=
  handle' = handle ∨ (handle ≠ .creating ∧ handle' = .dropped) ∨ (handle = .listed ∧ handle' = .taken)

/-- A session keeps its profile, exists from then on, and does not come to life again; its token
stays cancelled. -/
structure Keeps (r r' : RdpSession) : Prop where
  profile : r'.profile = r.profile
  phase : r.phase ≠ .absent → r'.phase ≠ .absent
  live : r'.isLive = true → r.isLive = true
  handle : HandleMoves r.handle r'.handle
  cancelled : r.cancelled = true → r'.cancelled = true

theorem Keeps.refl (r : RdpSession) : Keeps r r :=
  ⟨rfl, id, id, Or.inl rfl, id⟩

theorem Keeps.of_handle {handle : HandlePlace} (hhandle : HandleMoves r.handle handle) :
    Keeps r { r with handle := handle } :=
  ⟨rfl, id, id, hhandle, id⟩

theorem Keeps.ended (hkeeps : Keeps r r') (phase : RdpTaskPhase) (hphase : phase ≠ .absent)
    (hended : phase.isOpen = false) : Keeps r { r' with phase := phase } := by
  refine ⟨hkeeps.profile, fun _ => hphase, fun hlive => ?_, hkeeps.handle, hkeeps.cancelled⟩
  simp [RdpSession.isLive, hended] at hlive

theorem HandleMoves.creating_iff {handle handle' : HandlePlace} (hmoves : HandleMoves handle handle') :
    handle' = .creating ↔ handle = .creating := by
  rcases hmoves with rfl | ⟨hne, rfl⟩ | ⟨rfl, rfl⟩
  · exact Iff.rfl
  · exact ⟨nofun, fun h => absurd h hne⟩
  · exact ⟨nofun, nofun⟩

theorem keeps_unlist (r : RdpSession) : Keeps r r.unlist := by
  unfold RdpSession.unlist
  split
  case isTrue hlisted => exact .of_handle (Or.inr (Or.inl ⟨by rw [hlisted]; nofun, rfl⟩))
  case isFalse => exact .refl r

theorem keeps_take (r : RdpSession) : Keeps r (take r) := by
  unfold take
  split
  case isTrue hlisted => exact .of_handle (Or.inr (Or.inr ⟨hlisted, rfl⟩))
  case isFalse => exact .refl r

theorem keeps_cancel (r : RdpSession) : Keeps r r.cancel := by
  refine ⟨rfl, id, fun hlive => ?_, Or.inl rfl, fun _ => rfl⟩
  cases hopen : r.phase.isOpen <;> simp [RdpSession.isLive, RdpSession.cancel, hopen] at hlive

theorem Sends.keeps (hsends : Sends r command r') : Keeps r r' := by
  cases hsends with
  | accepted hopen hroom => exact ⟨rfl, id, id, Or.inl rfl, id⟩
  | refused hclosed => exact .refl r

theorem keeps_of_taskTaken {globalCancel : Bool} {event : RdpTaskEvent} {o : List RdpObs}
    (htaken : RdpSession.TaskTaken r id globalCancel event r' o) : Keeps r r' := by
  have hself := Keeps.refl r
  cases htaken with
  | stopped hopen hcancelled => exact ⟨rfl, nofun, nofun, Or.inl rfl, fun h => h⟩
  | shut hopen hglobal => exact ⟨rfl, nofun, nofun, Or.inl rfl, fun h => h⟩
  | wentOn event hphase hturn =>
    refine ⟨rfl, nofun, fun hlive => ?_, Or.inl rfl, fun h => h⟩
    simpa [RdpSession.isLive, hphase, RdpTaskPhase.isOpen] using hlive
  | returned event hphase hturn => exact ⟨rfl, nofun, nofun, Or.inl rfl, fun h => h⟩
  | reportedOk hphase => exact hself.ended _ nofun rfl
  | reportedError hphase => exact hself.ended _ nofun rfl
  | reportedStatus hphase => exact hself.ended _ nofun rfl

end

variable {id : String}

@[simp] theorem setCall_self (c : Nat) (phase : CallPhase) : (s.setCall c phase).calls c = phase :=
  Function.update_self ..

theorem setCall_of_ne {c c' : Nat} (hne : c' ≠ c) (phase : CallPhase) :
    (s.setCall c phase).calls c' = s.calls c' := Function.update_of_ne hne ..

@[simp] theorem setSession_self (session : RdpSession) :
    (s.setSession id session).sessions id = session := Function.update_self ..

theorem setSession_of_ne {id' : String} (hne : id' ≠ id) (session : RdpSession) :
    (s.setSession id session).sessions id' = s.sessions id' := Function.update_of_ne hne ..

@[simp] theorem setIndex_self (profileId : String) (entry : Option String) :
    (s.setIndex profileId entry).index profileId = entry := Function.update_self ..

theorem setIndex_of_ne {profileId profileId' : String} (hne : profileId' ≠ profileId)
    (entry : Option String) : (s.setIndex profileId entry).index profileId' = s.index profileId' :=
  Function.update_of_ne hne ..

theorem keeps_setSession {session : RdpSession} (hkeeps : Keeps (s.sessions id) session)
    (id' : String) : Keeps (s.sessions id') ((s.setSession id session).sessions id') := by
  by_cases hid : id' = id
  · subst hid
    rw [setSession_self]
    exact hkeeps
  · rw [setSession_of_ne hid]
    exact .refl _

end RdpManager

def deskProfile : RdpProfile := ⟨"p", "desk", 3389, "ann", true, false, none, "share"⟩

end Portix.Rdp
