import Portix.Rdp.Proofs.SessionStepProofs

/-!
# Proofs: sessions that are told to stop

Where the runtime of a session that was told to stop does not fail any more, the task reports the end
of the session once, as a disconnect, and no error.
-/

namespace Portix.Rdp

open Lib

theorem runtimeStep_error {profile : RdpProfile} {isCancelled hasSender : Bool}
    {queue : List RdpCommand} {phase : RuntimePhase} {event : RuntimeEvent} {e : RdpError}
    (hstep : runtimeStep profile isCancelled queue hasSender phase event =
      some (.returns (.error e))) : event.fails profile isCancelled phase = true := by
  unfold runtimeStep at hstep
  split at hstep
  case h_1 =>
    by_cases hcancelled : isCancelled = true
    · exact hcancelled
    · rw [if_neg hcancelled] at hstep
      cases hstep
  case h_2 =>
    by_cases hcancelled : isCancelled = true
    · exact hcancelled
    · rw [if_neg hcancelled] at hstep
      cases hstep
  case h_4 error =>
    cases hafter : afterFailure profile.enableCredSsp error with
    | retry =>
      rw [hafter] at hstep
      cases hstep
    | fail error' => simp [RuntimeEvent.fails, hafter]
  case h_5 => simp [RuntimeEvent.fails]
  case h_6 => rfl
  case h_9 => rfl
  case h_10 result =>
    cases result with
    | error e' => rfl
    | ok =>
      split at hstep
      · cases hstep
      · cases hstep
      · split at hstep <;> cases hstep
  all_goals cases hstep

/-- What has been seen of the end of a session. -/
def Seen (id : String) (h : List RdpObs) (statuses : List RdpConnectionStatus) : Prop :=
  finalStatuses id h = statuses ∧ h.countP (RdpObs.isErrorOf id) = 0

theorem Seen.append {id : String} {h o : List RdpObs} {statuses statuses' : List RdpConnectionStatus}
    (hseen : Seen id h statuses) (ho : Seen id o statuses') :
    Seen id (h ++ o) (statuses ++ statuses') := by
  constructor
  · unfold finalStatuses
    rw [List.filterMap_append]
    exact congrArg₂ (· ++ ·) hseen.1 ho.1
  · rw [List.countP_append, hseen.2, ho.2]

theorem Seen.silent {id : String} {h o : List RdpObs} {statuses : List RdpConnectionStatus}
    (hseen : Seen id h statuses) (ho : Silent id o) : Seen id (h ++ o) statuses := by
  have hnone : Seen id o [] := ho.seen
  have happend := hseen.append hnone
  rwa [List.append_nil] at happend

namespace RdpSession

/-- What has been reported of a session where its task is. -/
def Reported (id : String) (h : List RdpObs) (r : RdpSession) : Prop :=
  match r.phase with
  | .absent => r.told = false ∧ Seen id h []
  | .inRuntime _ => Seen id h []
  | .finished result => Seen id h [] ∧ (r.told = true → result = .ok ())
  | .reported _ => r.told = false
  | _ => r.told = true → Seen id h [.disconnected]

/-- The token that told a session to stop is cancelled. -/
def Stoppable (r : RdpSession) (globalCancel : Bool) : Prop :=
  r.told = true → r.cancelled = true ∨ globalCancel = true

variable {r r' : RdpSession} {id : String} {h o : List RdpObs} {g g' : Bool}
  {event : RdpTaskEvent}

theorem Reported.told (hinv : Reported id h r) (htells : RdpManager.Tells g r r')
    (ho : Silent id o) : Reported id (h ++ o) r' := by
  unfold Reported at hinv ⊢
  have hphase := htells.phase
  -- where the runtime is not running, nothing tells it to stop
  have hsame : r.phase.isOpen = false → r'.told = r.told := by
    intro hclosed
    rcases htells.told with htold | ⟨htold, -⟩
    · exact htold
    · rw [htold, hclosed, Bool.or_false]
  rw [hphase]
  cases hp : r.phase with
  | inRuntime phase =>
    rw [hp] at hinv
    exact hinv.silent ho
  | absent =>
    rw [hp] at hinv hsame
    exact ⟨(hsame rfl).trans hinv.1, hinv.2.silent ho⟩
  | finished result =>
    rw [hp] at hinv hsame
    refine ⟨hinv.1.silent ho, fun htold => hinv.2 ?_⟩
    rwa [← hsame rfl]
  | reported e =>
    rw [hp] at hinv hsame
    exact (hsame rfl).trans hinv
  | _ =>
    rw [hp] at hinv hsame
    intro htold
    rw [hsame rfl] at htold
    exact (hinv htold).silent ho

theorem seen_nil_of_wentOn {profile : RdpProfile} {isCancelled hasSender : Bool}
    {queue queue' : List RdpCommand} {phase phase' : RuntimePhase} {event : RuntimeEvent}
    {status : Option (RdpConnectionStatus × String)} (id' : String)
    (hturn : runtimeStep profile isCancelled queue hasSender phase event = some (.goesOn phase' queue' status)) :
    Seen id (status.toList.map fun (status, message) => .status ⟨id', status, some message⟩) [] := by
  cases status with
  | none => exact ⟨rfl, rfl⟩
  | some pair =>
    obtain ⟨status, message⟩ := pair
    rcases runtimeStep_status hturn with rfl | rfl
    · exact ⟨by simp [finalStatuses, RdpObs.finalStatus], rfl⟩
    · exact ⟨by simp [finalStatuses, RdpObs.finalStatus], rfl⟩

theorem Reported.task (hinv : Reported id h r) (htaken : TaskTaken r id g event r' o)
    (hquiet : ∀ runtimeEvent, event = .runtime runtimeEvent → r.told = true → ∀ phase,
      r.phase = .inRuntime phase → runtimeEvent.fails r.profile r.cancelled phase = false) :
    Reported id (h ++ o) r' := by
  have hseen : r.phase.isOpen = true → Seen id h [] := by
    intro hopen
    unfold Reported at hinv
    cases hp : r.phase with
    | inRuntime phase =>
      rw [hp] at hinv
      exact hinv
    | _ =>
      rw [hp] at hopen
      cases hopen
  cases htaken with
  | stopped hopen hcancelled => exact ⟨(hseen hopen).silent (silent_nil id), fun _ => rfl⟩
  | shut hopen hglobal => exact ⟨(hseen hopen).silent (silent_nil id), fun _ => rfl⟩
  | wentOn event hphase hturn =>
    have hopen : r.phase.isOpen = true := by rw [hphase]; rfl
    exact (hseen hopen).append (seen_nil_of_wentOn id hturn)
  | @returned phase result event hphase hturn =>
    have hopen : r.phase.isOpen = true := by rw [hphase]; rfl
    refine ⟨(hseen hopen).silent (silent_nil id), fun htold => ?_⟩
    cases result with
    | ok => rfl
    | error e =>
      have hfails := runtimeStep_error hturn
      rw [hquiet event rfl htold phase hphase] at hfails
      cases hfails
  | reportedOk hphase =>
    unfold Reported at hinv
    rw [hphase] at hinv
    have hreport : Seen id [RdpObs.status ⟨id, .disconnected, some "disconnected normally"⟩]
        [.disconnected] := ⟨by simp [finalStatuses, RdpObs.finalStatus], rfl⟩
    exact fun _ => hinv.1.append hreport
  | reportedError hphase =>
    unfold Reported at hinv
    rw [hphase] at hinv
    show r.told = false
    by_contra htold
    have hok := hinv.2 (Bool.not_eq_false _ ▸ htold)
    cases hok
  | reportedStatus hphase =>
    unfold Reported at hinv
    rw [hphase] at hinv
    have huntold : r.told = false := hinv
    intro htold
    rw [huntold] at htold
    cases htold

theorem Stoppable.told (hinv : Stoppable r g) (hglobal : g = true → g' = true)
    (htells : RdpManager.Tells g' r r') : Stoppable r' g' := by
  intro htold
  rcases htells.told with hsame | ⟨-, hstops⟩
  · rcases hinv (hsame ▸ htold) with hcancelled | hg
    · exact Or.inl (htells.cancelled hcancelled)
    · exact Or.inr (hglobal hg)
  · exact hstops

theorem TaskTaken.stoppable (hinv : Stoppable r g) (htaken : TaskTaken r id g event r' o) : Stoppable r' g := by
  cases htaken <;> exact hinv

end RdpSession

namespace RdpManager

variable {s s' : RdpManager} {event : RdpEvent} {o : List RdpObs}

theorem globalCancel_stays (htaken : Taken s event s' o) (hglobal : s.globalCancel = true) :
    s'.globalCancel = true := by
  cases htaken with
  | dropped => rfl
  | _ => exact hglobal

/-- What holds of a session and what was seen of it. -/
structure Ended (h : List RdpObs) (s : RdpManager) (id : String) : Prop where
  reported : (s.sessions id).Reported id h
  stoppable : (s.sessions id).Stoppable s.globalCancel

theorem Ended.step {h : List RdpObs} {id : String} (hinv : Ended h s id)
    (hguard : s.StopsQuietly event) (htaken : Taken s event s' o) : Ended (h ++ o) s' id := by
  have hglobal := globalCancel_stays htaken
  have hsession := session_of_taken htaken id
  suffices hboth : (s'.sessions id).Reported id (h ++ o) ∧
      (s'.sessions id).Stoppable s'.globalCancel from ⟨hboth.1, hboth.2⟩
  generalize s'.sessions id = r at hsession ⊢
  generalize s'.globalCancel = g at hsession hglobal ⊢
  obtain ⟨hreported, hstoppable⟩ := hinv
  have hweaken : ∀ {r : RdpSession}, r.Stoppable s.globalCancel → r.Stoppable g :=
    fun hstop htold => (hstop htold).imp_right hglobal
  cases hsession with
  | told event htells ho => exact ⟨hreported.told htells ho, hstoppable.told hglobal htells⟩
  | made hphase =>
    unfold RdpSession.Reported at hreported
    rw [hphase] at hreported
    exact ⟨hreported.2.silent (silent_nil id), fun htold => Or.inr (hglobal htold)⟩
  | inserted hcall =>
    rw [List.append_nil]
    exact ⟨hreported, hweaken hstoppable⟩
  | @task taskEvent r o htask =>
    refine ⟨hreported.task htask ?_, hweaken (htask.stoppable hstoppable)⟩
    rintro runtimeEvent rfl
    exact hguard
  | removed hphase =>
    rw [List.append_nil]
    unfold RdpSession.Reported at hreported
    rw [hphase] at hreported
    have htells : Tells g (s.sessions id) (s.sessions id).unlist := unlist_tells _
    have htold : (s.sessions id).unlist.told = (s.sessions id).told := by
      unfold RdpSession.unlist
      split <;> rfl
    have hstoppable' : (s.sessions id).unlist.Stoppable g := hstoppable.told hglobal htells
    exact ⟨fun h => hreported (htold ▸ h), hstoppable'⟩
  | cleaned hphase =>
    rw [List.append_nil]
    unfold RdpSession.Reported at hreported
    rw [hphase] at hreported
    exact ⟨hreported, hweaken hstoppable⟩

theorem ended_run {h : List RdpObs} (hreach : Reaches rdpStep StopsQuietly .initial h s)
    (id : String) : Ended h s id := by
  have hstart : Ended [] .initial id := ⟨⟨rfl, rfl, rfl⟩, nofun⟩
  exact hreach.invariant (I := fun h s => Ended h s id) hstart
    fun hinv hguard hstep => hinv.step hguard (taken_of_step hstep)

def Stops (id : String) (_ : RdpManager) : RdpEvent → Prop
  | .task id' .stop => id' = id
  | .task id' .shutdown => id' = id
  | .task id' .report => id' = id
  | _ => False

theorem report_stop {id : String} (hphase : (s.sessions id).phase = .finished (.ok ())) :
    ∃ s', Reaches rdpStep (Stops id) s [.status ⟨id, .disconnected, some "disconnected normally"⟩] s' := by
  have hstep : rdpStep s (.task id .report) = some (s.setSession id { s.sessions id with phase := .leaving },
        [.status ⟨id, .disconnected, some "disconnected normally"⟩]) := by
    simp [rdpStep, task, RdpSession.taskStep, hphase]
  have hstops : Stops id s (.task id .report) := rfl
  exact ⟨_, Reaches.start.next hstops hstep⟩

theorem stop_running {id : String} {phase : RuntimePhase}
    (hphase : (s.sessions id).phase = .inRuntime phase) (hstoppable : (s.sessions id).cancelled = true ∨
      s.globalCancel = true) : ∃ s', Reaches rdpStep (Stops id) s [] s' ∧
      (s'.sessions id).phase = .finished (.ok ()) := by
  have hfinished : ((s.setSession id ((s.sessions id).finish (.ok ()))).sessions id).phase =
      .finished (.ok ()) := congrArg RdpSession.phase (setSession_self _)
  rcases hstoppable with hcancelled | hglobal
  · have hstep : rdpStep s (.task id .stop) = some (s.setSession id ((s.sessions id).finish (.ok ())), []) := by
      simp [rdpStep, task, RdpSession.taskStep, hphase, hcancelled]
    have hstops : Stops id s (.task id .stop) := rfl
    exact ⟨_, Reaches.start.next hstops hstep, hfinished⟩
  · have hstep : rdpStep s (.task id .shutdown) = some (s.setSession id ((s.sessions id).finish (.ok ())), []) := by
      simp [rdpStep, task, RdpSession.taskStep, hphase, hglobal]
    have hstops : Stops id s (.task id .shutdown) := rfl
    exact ⟨_, Reaches.start.next hstops hstep, hfinished⟩

end RdpManager

def RdpTaskPhase.hasReported : RdpTaskPhase → Bool
  | leaving | unindexing | cleaned => true
  | _ => false

open RdpManager

theorem RdpManager.Ended.seen {h : List RdpObs} {s : RdpManager} {id : String} (hinv : Ended h s id)
    (htold : (s.sessions id).told = true) :
    Seen id h (if (s.sessions id).phase.hasReported then [.disconnected] else []) := by
  have hreported := hinv.reported
  unfold RdpSession.Reported at hreported
  cases hphase : (s.sessions id).phase with
  | absent =>
    rw [hphase, htold] at hreported
    cases hreported.1
  | inRuntime phase =>
    rw [hphase] at hreported
    exact hreported
  | finished result =>
    rw [hphase] at hreported
    exact hreported.1
  | reported e =>
    rw [hphase] at hreported
    have huntold : (s.sessions id).told = false := hreported
    rw [huntold] at htold
    cases htold
  | _ =>
    rw [hphase] at hreported
    exact hreported htold

/-- Where the runtimes of sessions that were told to stop do not fail any more, such a session makes
no error event and at most one final status, `Disconnected`, which its task can always get to send. -/
theorem requested_stop_reported_once (h : List RdpObs) (s : RdpManager)
    (hreach : Reaches rdpStep StopsQuietly .initial h s) (id : String)
    (htold : (s.sessions id).told = true) :
    h.countP (RdpObs.isErrorOf id) = 0 ∧
    finalStatuses id h = (if (s.sessions id).phase.hasReported then [.disconnected] else []) ∧
    ∃ h' s', Reaches rdpStep (Stops id) s h' s' ∧ finalStatuses id (h ++ h') = [.disconnected] := by
  have hinv := ended_run hreach id
  have hseen := hinv.seen htold
  refine ⟨hseen.2, hseen.1, ?_⟩
  have hreport : ∀ {s1}, Reaches rdpStep (Stops id) s [] s1 →
      (s1.sessions id).phase = .finished (.ok ()) → finalStatuses id h = [] →
      ∃ h' s', Reaches rdpStep (Stops id) s h' s' ∧ finalStatuses id (h ++ h') = [.disconnected] := by
    intro s1 hreach1 hphase hnone
    obtain ⟨s2, hreach2⟩ := report_stop hphase
    refine ⟨_, s2, hreach1.trans hreach2, ?_⟩
    unfold finalStatuses at hnone ⊢
    rw [List.filterMap_append, hnone]
    simp [RdpObs.finalStatus]
  have hreported := hinv.reported
  unfold RdpSession.Reported at hreported
  cases hphase : (s.sessions id).phase with
  | absent =>
    rw [hphase, htold] at hreported
    cases hreported.1
  | inRuntime phase =>
    rw [hphase] at hreported
    obtain ⟨s1, hreach1, hphase1⟩ := stop_running hphase (hinv.stoppable htold)
    exact hreport hreach1 hphase1 hreported.1
  | finished result =>
    rw [hphase] at hreported
    exact hreport .start (hreported.2 htold ▸ hphase) hreported.1.1
  | reported e =>
    rw [hphase] at hreported
    have huntold : (s.sessions id).told = false := hreported
    rw [huntold] at htold
    cases htold
  | _ =>
    refine ⟨[], s, .start, ?_⟩
    rw [List.append_nil, hseen.1, hphase]
    rfl

/-- The runtime of a session that was told to stop does not fail in this step. -/
def quietCheck (s : RdpManager) : RdpEvent → Bool
  | .task id (.runtime event) => !(s.sessions id).told || match (s.sessions id).phase with
    | .inRuntime phase => !event.fails (s.sessions id).profile (s.sessions id).cancelled phase
    | _ => true
  | _ => true

theorem quiet_of_check (s : RdpManager) (event : RdpEvent) (hcheck : quietCheck s event = true) :
    s.StopsQuietly event := by
  unfold StopsQuietly
  split
  case h_1 id event =>
    intro htold phase hphase
    simpa [quietCheck, htold, hphase] using hcheck
  case h_2 => trivial

/-- A session that is disconnected while it runs. -/
theorem requested_stop_reported_once_disconnect : ∃ h s, Reaches rdpStep StopsQuietly .initial h s ∧
    (s.sessions "a").told = true ∧ finalStatuses "a" h = [.disconnected] ∧
    h.countP (RdpObs.isErrorOf "a") = 0 := by
  have hreach : Reaches rdpStep StopsQuietly .initial _ _ :=
    Reaches.of_checkedEvents quietCheck quiet_of_check
      [.begin (.connect deskProfile), .advance 0, .create 0 "a", .advance 0, .advance 0,
        .task "a" (.runtime .check), .task "a" (.runtime .check),
        .task "a" (.runtime (.connect (.ok ()))), .begin (.disconnect "a"), .advance 1, .advance 1,
        .task "a" .stop, .task "a" .report] rfl
  have hstopped := requested_stop_reported_once _ _ hreach "a" rfl
  exact ⟨_, _, hreach, rfl, hstopped.2.1, hstopped.1⟩

/-- A session that is disconnected, and whose runtime is the first to see that its token is
cancelled. -/
theorem stop_reported_as_error : ¬ ∀ h s, Reaches rdpStep (fun _ _ => True) .initial h s → ∀ id,
    (s.sessions id).told = true → h.countP (RdpObs.isErrorOf id) = 0 ∧
      ∀ status ∈ finalStatuses id h, status = .disconnected := by
  intro hclaim
  have hstart : Reaches rdpStep (fun _ _ => True) .initial [] .initial := .start
  have hreach := Reaches.of_runEvents [.begin (.connect deskProfile), .advance 0, .create 0 "a",
    .advance 0, .advance 0, .task "a" (.runtime .check), .task "a" (.runtime .check),
    .task "a" (.runtime (.connect (.ok ()))), .begin (.disconnect "a"), .advance 1, .advance 1,
    .task "a" (.runtime .cancelled), .task "a" .report, .task "a" .report]
    (fun _ _ _ => trivial) hstart rfl
  exact absurd (hclaim _ _ hreach "a" rfl).1 (by decide)

end Portix.Rdp
