import Portix.Ssh.SessionManager

/-!
# Proofs: the session manager

Seen through its statuses and errors the task of a session is a session as `sessionStep` has it,
whatever happens in its queues and in the session map; what a session has sent follows from the
phase it is in.
-/

namespace Portix.Ssh

open Lib Domain

/-- Not ended yet, by its statuses. -/
def Begun (statuses : List ConnectionStatus) : Prop :=
  statuses = [.connecting] ∨ statuses = [.connecting, .connected]

def errorsFor : Except PortixError Unit → Nat
  | .ok () => 0
  | .error _ => 1

def Lived : SessionPhase → List ConnectionStatus → Nat → Prop
  | .absent, statuses, errors => statuses = [] ∧ errors = 0
  | .connecting, statuses, errors => statuses = [.connecting] ∧ errors = 0
  | .running, statuses, errors => statuses = [.connecting, .connected] ∧ errors = 0
  | .failed _, statuses, errors => Begun statuses ∧ errors = 0
  | .ending result, statuses, errors => Begun statuses ∧ errors = errorsFor result
  | .ended, statuses, errors => ∃ begun result, Begun begun ∧
      statuses = begun ++ [(finalStatus result).1] ∧ errors = errorsFor result

section

variable {id id' : String} {phase phase' : SessionPhase} {event : SessionEvent}
  {emitted : Option (Σ k, EventKind.Event k)}

@[simp] theorem statusOf_output (event : TerminalOutputEvent) : statusOf id ⟨.output, event⟩ = none := rfl

@[simp] theorem statusOf_status (event : ConnectionStatusEvent) :
    statusOf id ⟨.status, event⟩ = if event.sessionId = id then some event.status else none := rfl

@[simp] theorem statusOf_error (event : ErrorEvent) : statusOf id ⟨.error, event⟩ = none := rfl

@[simp] theorem isErrorOf_output (event : TerminalOutputEvent) : isErrorOf id ⟨.output, event⟩ = false := rfl

@[simp] theorem isErrorOf_status (event : ConnectionStatusEvent) : isErrorOf id ⟨.status, event⟩ = false := rfl

@[simp] theorem isErrorOf_error (event : ErrorEvent) :
    isErrorOf id ⟨.error, event⟩ = decide (event.sessionId = some id) := rfl

theorem Lived.step {statuses : List ConnectionStatus} {errors : Nat} (hlived : Lived phase statuses errors)
    (hstep : sessionStep id phase event = some (phase', emitted)) :
    Lived phase' (statuses ++ emitted.toList.filterMap (statusOf id))
      (errors + emitted.toList.countP (isErrorOf id)) := by
  unfold sessionStep at hstep
  split at hstep
  case h_3 msg =>
    split at hstep <;> rename_i output hmsg <;>
      cases hstep
    · cases output <;> simpa [Lived, List.filterMap_cons] using hlived
    · exact ⟨Or.inr (by simpa using hlived.1), by simpa [errorsFor] using hlived.2⟩
  case h_9 => cases hstep
  all_goals cases hstep
  case h_1 => simp [Lived, hlived.1, hlived.2]
  case h_2 => simp [Lived, hlived.1, hlived.2]
  case h_4 => exact ⟨Or.inr (by simpa using hlived.1), by simpa [errorsFor] using hlived.2⟩
  case h_5 => exact ⟨Or.inl (by simpa using hlived.1), by simpa using hlived.2⟩
  case h_6 => exact ⟨Or.inr (by simpa using hlived.1), by simpa using hlived.2⟩
  case h_7 => exact ⟨by simpa [List.filterMap_cons] using hlived.1, by simp [hlived.2, errorsFor]⟩
  case h_8 result =>
    exact ⟨statuses, result, hlived.1, by simp [finalEvent], by simpa using hlived.2⟩

theorem silent_of_sessionStep (hstep : sessionStep id phase event = some (phase', emitted)) (hne : id' ≠ id) :
    emitted.toList.filterMap (statusOf id') = [] ∧ emitted.toList.countP (isErrorOf id') = 0 := by
  unfold sessionStep at hstep
  split at hstep
  case h_3 msg =>
    split at hstep <;> rename_i output hmsg <;>
      cases hstep
    · cases output <;> simp [List.filterMap_cons]
    · simp
  case h_9 => cases hstep
  all_goals
    cases hstep
    simp [List.filterMap_cons, finalEvent, hne.symm]

end

namespace ManagedSession

inductive Moved (id : String) (s : ManagedSession) :
    ManagerEvent → ManagedSession → List ManagerObs → Prop where
  | login {profile : SshProfile} {cols rows : UInt32} (event : TaskEvent)
    (hphase : s.phase = .connecting profile cols rows) : Moved id s (.task id event)
      { s with phase := .opening (openingRequests profile cols rows) } []
  | opened {request : TerminalRequest} {rest : List TerminalRequest} (event : TaskEvent)
    (hphase : s.phase = .opening (request :: rest)) (hrest : rest ≠ []) : Moved id s (.task id event)
      { s with phase := .opening rest } [.requested id request]
  | connected {request : TerminalRequest} (hphase : s.phase = .opening [request]) :
    Moved id s (.task id (.request (.ok ()))) { s with phase := .running, worker := .starting }
      [.requested id request, emitStatus id .connected "connected"]
  | failed {left : List Queued} (event : TaskEvent) (error : PortixError)
    (hphase : s.phase.isOpen = true) (hleft : left <:+ s.queue) : Moved id s (.task id event)
      { s with phase := .failed error, queue := [] } (left.flatMap (dropped id))
  | stopped {left : List Queued} (event : TaskEvent) (hphase : s.phase = .running)
    (hleft : left <:+ s.queue) : Moved id s (.task id event)
      { s with phase := .leaving (.ok ()), queue := [] } (left.flatMap (dropped id))
  | sent {queued : Queued} {rest : List Queued} (event : TaskEvent) (message : CommandMsg)
    (hphase : s.phase = .running) (hqueue : s.queue = queued :: rest)
    (hcommand : queued.command ≠ .disconnect) : Moved id s (.task id event)
      { s with queue := rest } [.sent id queued.call message]
  | took {queued : Queued} {rest : List Queued} (event : TaskEvent) (command : String)
    (hphase : s.phase = .running) (hqueue : s.queue = queued :: rest)
    (hcommand : queued.command = .exec command) : Moved id s (.task id event)
      { s with phase := .handing ⟨command, none, queued.call⟩, queue := rest } []
  | output {output : Option (List UInt8)} (msg : Option ChannelMsg)
    (hphase : s.phase = .running) (hmsg : runtimeMessage msg = (true, output)) :
    Moved id s (.task id (.message msg)) s
      (output.toList.map fun data => .emitted ⟨.output, ⟨id, data⟩⟩)
  | handed {request : ExecRequest} (hphase : s.phase = .handing request) :
    Moved id s (.task id .hand)
      { s with phase := .running, execQueue := s.execQueue ++ [request] } []
  | reported {error : PortixError} (hphase : s.phase = .failed error) :
    Moved id s (.task id .reportError) { s with phase := .leaving (.error error) }
      [.emitted ⟨.error, ⟨some id, error.text⟩⟩]
  | removed {result : Except PortixError Unit} (hphase : s.phase = .leaving result) :
    Moved id s (.task id .remove) { s with phase := .ending result, listed := false } []
  | finished {result : Except PortixError Unit} (hphase : s.phase = .ending result) :
    Moved id s (.task id .finish) { s with phase := .ended }
      [.emitted ⟨.status, finalEvent id result⟩]
  | started (session : Bool) :
    Moved id s (.worker id (.start session)) { s with worker := .idle session } []
  | taken {session : Bool} {request : ExecRequest} {rest : List ExecRequest}
    (hqueue : s.execQueue = request :: rest) : Moved id s (.worker id .take)
      { s with worker := .serving session request, execQueue := rest } []
  | stuck {session : Bool} {request : ExecRequest} (service : Service) (messages : List Sent)
    (hworker : s.worker = .serving session request) : Moved id s (.worker id (.serve service))
      { s with worker := .stuck }
      (messages.map fun message => .sent id request.responseTx (.exec message))
  | served {session session' : Bool} {request : ExecRequest} (service : Service)
    (messages : List Sent) (result : Except PortixError String)
    (hworker : s.worker = .serving session request) : Moved id s (.worker id (.serve service))
      { s with worker := .idle session' }
      ((messages.map fun message => .sent id request.responseTx (.exec message)) ++
        [.returned request.responseTx id (.exec request.command) (result.map some)])
  | pushed {queued : Queued} {o : List ManagerObs} (hmem : queued ∈ s.sending)
    (hphase : s.phase.isOpen = true)
    (ho : o = [] ∨ o = [.returned queued.call id queued.command (.ok none)]) :
    Moved id s (.push id queued)
      { s with sending := s.sending.erase queued, queue := s.queue ++ [queued] } o
  | late {queued : Queued} (hmem : queued ∈ s.sending) (hphase : s.phase.isOpen = false) :
    Moved id s (.push id queued) { s with sending := s.sending.erase queued }
      [.returned queued.call id queued.command (.error (.sessionNotFound id))]

variable {id : String} {s s' : ManagedSession} {o : List ManagerObs}

theorem moved_of_taskStep {event : TaskEvent} (hstep : s.taskStep id event = some (s', o)) :
    Moved id s (.task id event) s' o := by
  unfold taskStep at hstep
  split at hstep
  case h_1 profile cols rows hphase =>
    cases hstep
    exact .login _ hphase
  case h_2 error hphase =>
    cases hstep
    exact .failed _ error (by rw [hphase]; rfl) List.suffix_rfl
  case h_3 request rest hphase =>
    split at hstep <;> rename_i hrest <;>
      cases hstep
    · subst hrest
      exact .connected hphase
    · exact .opened _ hphase hrest
  case h_4 requests e hphase =>
    cases hstep
    exact .failed _ (.russh e) (by rw [hphase]; rfl) List.suffix_rfl
  case h_5 result hphase =>
    split at hstep
    · cases hstep
    case h_2 queued rest hqueue =>
      have hleft : rest <:+ s.queue := hqueue ▸ List.suffix_cons queued rest
      have hopen : s.phase.isOpen = true := by rw [hphase]; rfl
      unfold onCommand at hstep
      split at hstep
      case h_1 data hcommand =>
        cases result <;> cases hstep
        · exact .failed _ _ hopen hleft
        · exact .sent _ (.data data) hphase hqueue (by simp [hcommand])
      case h_2 cols rows hcommand =>
        cases result <;> cases hstep
        · exact .failed _ _ hopen hleft
        · exact .sent _ _ hphase hqueue (by simp [hcommand])
      case h_3 command hcommand =>
        cases hstep
        exact .took _ command hphase hqueue hcommand
      case h_4 hcommand =>
        cases hstep
        exact .stopped _ hphase hleft
  case h_6 msg hphase =>
    split at hstep <;> rename_i output hmsg <;>
      cases hstep
    · exact .output msg hphase hmsg
    · exact .stopped _ hphase List.suffix_rfl
  case h_7 request hphase =>
    split at hstep
    · cases hstep
      exact .handed hphase
    · cases hstep
  case h_8 error hphase =>
    cases hstep
    exact .reported hphase
  case h_9 result hphase =>
    cases hstep
    exact .removed hphase
  case h_10 result hphase =>
    cases hstep
    exact .finished hphase
  case h_11 => cases hstep

theorem moved_of_workerStep {event : ServeEvent} (hstep : s.workerStep id event = some (s', o)) :
    Moved id s (.worker id event) s' o := by
  unfold workerStep at hstep
  split at hstep
  case h_1 session hworker =>
    cases hstep
    exact .started session
  case h_2 session hworker =>
    split at hstep
    · cases hstep
    case h_2 request rest hqueue =>
      cases hstep
      exact .taken hqueue
  case h_3 session request service hworker =>
    split at hstep <;> cases hstep
    · exact .stuck service _ hworker
    · exact .served service _ _ hworker
  case h_4 => cases hstep

theorem moved_of_push {queued : Queued} (hstep : s.push id queued = some (s', o)) :
    Moved id s (.push id queued) s' o := by
  unfold push at hstep
  by_cases hmem : queued ∈ s.sending
  · rw [if_pos hmem] at hstep
    by_cases hopen : s.phase.isOpen = true
    · simp only [if_pos hopen] at hstep
      split at hstep
      · cases hstep
        refine .pushed hmem hopen ?_
        split
        · exact Or.inl rfl
        · exact Or.inr rfl
      · cases hstep
    · simp only [if_neg hopen] at hstep
      cases hstep
      exact .late hmem (Bool.eq_false_iff.mpr hopen)
  · rw [if_neg hmem] at hstep
    cases hstep

end ManagedSession

namespace SessionManager

open ManagedSession

/-- What a step can be: a connect that is refused, a connect, a call that is answered at once, one
that finds its session, or a step in a session. -/
inductive Taken (s : SessionManager) : ManagerEvent → SessionManager → List ManagerObs → Prop where
  | refused (event : ManagerEvent) (error : PortixError) :
    Taken s event s [.connectReturned (.error error)]
  | connect {id : String} (profile : SshProfile) (cols rows : UInt32)
    (hphase : (s.sessions id).phase = .absent) : Taken s (.connect id profile cols rows)
      (s.setSession id
        { ManagedSession.absent with phase := .connecting profile cols rows, listed := true })
      [emitStatus id .connecting "connecting",
        .connectReturned (.ok ⟨id, profile.id, .connecting⟩)]
  | answered (id : String) (command : SshCommand) (result : Except PortixError (Option String))
    (hresult : command ≠ .input [] → result = .error (.sessionNotFound id)) :
    Taken s (.call id command) { s with nextCall := s.nextCall + 1 }
      [.called s.nextCall id command, .returned s.nextCall id command result]
  | found {id : String} (command : SshCommand) (hlisted : (s.sessions id).listed = true) :
    Taken s (.call id command)
      (setSession { s with nextCall := s.nextCall + 1 } id { s.sessions id with
        sending := (s.sessions id).sending ++ [⟨s.nextCall, command⟩] })
      [.called s.nextCall id command]
  | moved {id : String} {event : ManagerEvent} {session : ManagedSession} {o : List ManagerObs}
    (hmoved : Moved id (s.sessions id) event session o) :
    Taken s event (s.setSession id session) o

variable {s s' : SessionManager} {event : ManagerEvent} {o : List ManagerObs}

theorem inSession_some {id : String}
    {step : ManagedSession → Option (ManagedSession × List ManagerObs)}
    (hstep : s.inSession id step = some (s', o)) :
    ∃ session, step (s.sessions id) = some (session, o) ∧ s' = s.setSession id session := by
  unfold inSession at hstep
  obtain ⟨⟨session, o'⟩, hsession, ⟨⟩⟩ := Option.map_eq_some_iff.mp hstep
  exact ⟨session, hsession, rfl⟩

theorem taken_of_step (hstep : managerStep s event = some (s', o)) : Taken s event s' o := by
  cases event with
  | connect id profile cols rows =>
    have hconnect : s.connect id profile cols rows = some (s', o) := hstep
    unfold connect at hconnect
    split at hconnect
    · cases hconnect
      exact .refused _ _
    · split at hconnect
      case h_1 hphase =>
        cases hconnect
        exact .connect profile cols rows hphase
      · cases hconnect
  | call id command =>
    have hcall := Option.some.inj hstep
    unfold call at hcall
    by_cases hempty : command = .input []
    · rw [if_pos hempty] at hcall
      cases hcall
      exact .answered id command _ fun hne => absurd hempty hne
    · rw [if_neg hempty] at hcall
      by_cases hlisted : (s.sessions id).listed = true
      · rw [if_pos hlisted] at hcall
        cases hcall
        exact .found command hlisted
      · rw [if_neg hlisted] at hcall
        cases hcall
        exact .answered id command _ fun _ => rfl
  | push id queued =>
    have hin : s.inSession id (fun session => session.push id queued) = some (s', o) := hstep
    obtain ⟨session, hsession, rfl⟩ := inSession_some hin
    exact .moved (moved_of_push hsession)
  | task id event =>
    have hin : s.inSession id (fun session => session.taskStep id event) = some (s', o) := hstep
    obtain ⟨session, hsession, rfl⟩ := inSession_some hin
    exact .moved (moved_of_taskStep hsession)
  | worker id event =>
    have hin : s.inSession id (fun session => session.workerStep id event) = some (s', o) := hstep
    obtain ⟨session, hsession, rfl⟩ := inSession_some hin
    exact .moved (moved_of_workerStep hsession)

end SessionManager

section

variable {id : String} {h h' : List ManagerObs}

theorem emissions_append : emissions (h ++ h') = emissions h ++ emissions h' :=
  List.filterMap_append

theorem statuses_append : statuses id (h ++ h') = statuses id h ++ statuses id h' := by
  rw [statuses, emissions_append, List.filterMap_append]
  rfl

theorem errorEvents_append : errorEvents id (h ++ h') = errorEvents id h + errorEvents id h' := by
  rw [errorEvents, emissions_append, List.countP_append]
  rfl

theorem emissions_dropped (left : List Queued) : emissions (left.flatMap (ManagedSession.dropped id)) = [] := by
  rw [emissions, List.filterMap_eq_nil_iff]
  intro obs hobs
  obtain ⟨queued, -, hdropped⟩ := List.mem_flatMap.mp hobs
  unfold ManagedSession.dropped at hdropped
  split at hdropped
  · rw [List.mem_singleton.mp hdropped]
  · cases hdropped

theorem emissions_sent (call : Nat) (messages : List Sent) :
    emissions (messages.map fun message => ManagerObs.sent id call (.exec message)) = [] := by
  rw [emissions, List.filterMap_map]
  exact List.filterMap_eq_nil_iff.mpr fun _ _ => rfl

theorem emissions_output (output : Option (List UInt8)) :
    emissions (output.toList.map fun data => ManagerObs.emitted ⟨.output, ⟨id, data⟩⟩) =
      (output.map fun data => (⟨.output, ⟨id, data⟩⟩ : Σ k, EventKind.Event k)).toList := by
  cases output <;> rfl

/-- The phase stays the same and nothing is sent over the streams, or it is a step of the session. -/
def Refines (id : String) (phase phase' : TaskPhase) (o : List ManagerObs) : Prop :=
  (phase'.session = phase.session ∧ emissions o = []) ∨
    ∃ event emitted, sessionStep id phase.session event = some (phase'.session, emitted) ∧
      emissions o = emitted.toList

theorem ManagedSession.Moved.refines {s s' : ManagedSession} {event : ManagerEvent}
    {o : List ManagerObs} (hmoved : Moved id s event s' o) : Refines id s.phase s'.phase o := by
  cases hmoved with
  | login event hphase => exact Or.inl ⟨by rw [hphase]; rfl, rfl⟩
  | opened event hphase hrest => exact Or.inl ⟨by rw [hphase]; rfl, rfl⟩
  | connected hphase => exact Or.inr ⟨.connected, _, by rw [hphase]; rfl, rfl⟩
  | failed event error hphase hleft =>
    refine Or.inr ⟨.fail error, none, ?_, emissions_dropped _⟩
    cases hopen : s.phase <;> rw [hopen] at hphase <;> first | rfl | cases hphase
  | stopped event hphase hleft =>
    exact Or.inr ⟨.disconnect, none, by rw [hphase]; rfl, emissions_dropped _⟩
  | sent event message hphase hqueue hcommand => exact Or.inl ⟨rfl, rfl⟩
  | took event command hphase hqueue hcommand => exact Or.inl ⟨by rw [hphase]; rfl, rfl⟩
  | output msg hphase hmsg =>
    refine Or.inr ⟨.message msg, _, ?_, emissions_output _⟩
    rw [hphase]
    simp [TaskPhase.session, sessionStep, hmsg]
  | handed hphase => exact Or.inl ⟨by rw [hphase]; rfl, rfl⟩
  | reported hphase => exact Or.inr ⟨.reportError, _, by rw [hphase]; rfl, rfl⟩
  | removed hphase => exact Or.inl ⟨by rw [hphase]; rfl, rfl⟩
  | finished hphase => exact Or.inr ⟨.finish, _, by rw [hphase]; rfl, rfl⟩
  | started session => exact Or.inl ⟨rfl, rfl⟩
  | taken hqueue => exact Or.inl ⟨rfl, rfl⟩
  | stuck service messages hworker => exact Or.inl ⟨rfl, emissions_sent _ _⟩
  | served service messages result hworker =>
    refine Or.inl ⟨rfl, ?_⟩
    rw [emissions_append, emissions_sent]
    rfl
  | pushed hmem hphase ho =>
    rcases ho with rfl | rfl
    · exact Or.inl ⟨rfl, rfl⟩
    · exact Or.inl ⟨rfl, rfl⟩
  | late hmem hphase => exact Or.inl ⟨rfl, rfl⟩

end

namespace SessionManager

open ManagedSession

variable {s s' : SessionManager} {event : ManagerEvent} {o h : List ManagerObs} {id : String}

@[simp] theorem setSession_self (session : ManagedSession) :
    (s.setSession id session).sessions id = session := Function.update_self ..

theorem setSession_of_ne {id' : String} (hne : id' ≠ id) (session : ManagedSession) :
    (s.setSession id session).sessions id' = s.sessions id' := Function.update_of_ne hne ..

theorem Taken.refines (htaken : Taken s event s' o) : ∃ id,
    (∀ id', id' ≠ id → s'.sessions id' = s.sessions id') ∧
      Refines id (s.sessions id).phase (s'.sessions id).phase o := by
  cases htaken with
  | refused event error => exact ⟨"", fun _ _ => rfl, Or.inl ⟨rfl, rfl⟩⟩
  | @connect id profile cols rows hphase =>
    refine ⟨id, fun id' hne => setSession_of_ne hne _, Or.inr ⟨.connect,
      some ⟨.status, ⟨id, .connecting, some "connecting"⟩⟩, ?_, rfl⟩⟩
    rw [setSession_self, hphase]
    rfl
  | answered id command result hresult => exact ⟨id, fun _ _ => rfl, Or.inl ⟨rfl, rfl⟩⟩
  | @found id command hlisted =>
    refine ⟨id, fun id' hne => setSession_of_ne hne _, Or.inl ⟨?_, rfl⟩⟩
    rw [setSession_self]
  | @moved id event session o hmoved =>
    refine ⟨id, fun id' hne => setSession_of_ne hne _, ?_⟩
    rw [setSession_self]
    exact hmoved.refines

theorem lived_run {G : SessionManager → ManagerEvent → Prop}
    (hreach : Reaches managerStep G .initial h s) :
    ∀ id, Lived (s.sessions id).phase.session (statuses id h) (errorEvents id h) := by
  have hstart : ∀ id, Lived .absent (statuses id []) (errorEvents id []) := fun id => ⟨rfl, rfl⟩
  refine hreach.invariant (I := fun h s => ∀ id, Lived (s.sessions id).phase.session
    (statuses id h) (errorEvents id h)) hstart ?_
  intro h s event s' o hinv _ hstep id
  obtain ⟨id', hothers, hrefines⟩ := (taken_of_step hstep).refines
  rw [statuses_append, errorEvents_append]
  by_cases hid : id = id'
  · subst hid
    rcases hrefines with ⟨hphase, hsilent⟩ | ⟨sessionEvent, emitted, hsession, hemits⟩
    · rw [hphase, statuses, errorEvents, statuses, errorEvents, hsilent, List.filterMap_nil,
        List.countP_nil, List.append_nil]
      exact hinv id
    · have hlived := (hinv id).step hsession
      rwa [← hemits] at hlived
  · rw [hothers id hid]
    have hquiet : statuses id o = [] ∧ errorEvents id o = 0 := by
      rcases hrefines with ⟨-, hsilent⟩ | ⟨sessionEvent, emitted, hsession, hemits⟩
      · rw [statuses, errorEvents, hsilent]
        exact ⟨rfl, rfl⟩
      · rw [statuses, errorEvents, hemits]
        exact silent_of_sessionStep hsession hid
    rw [hquiet.1, hquiet.2, List.append_nil]
    exact hinv id

end SessionManager

namespace TaskPhase

def inMap : TaskPhase → Bool
  | absent => false
  | ending _ => false
  | ended => false
  | _ => true

theorem inMap_of_isOpen {phase : TaskPhase} (hopen : phase.isOpen = true) : phase.inMap = true := by
  cases phase <;> first | rfl | cases hopen

end TaskPhase

theorem ManagedSession.Moved.listed {id : String} {s s' : ManagedSession} {event : ManagerEvent}
    {o : List ManagerObs} (hmoved : Moved id s event s' o) (hlisted : s.listed = s.phase.inMap) :
    s'.listed = s'.phase.inMap := by
  cases hmoved with
  | login event hphase => simpa [hphase, TaskPhase.inMap] using hlisted
  | opened event hphase hrest => simpa [hphase, TaskPhase.inMap] using hlisted
  | connected hphase => simpa [hphase, TaskPhase.inMap] using hlisted
  | failed event error hphase hleft => exact hlisted.trans (TaskPhase.inMap_of_isOpen hphase)
  | stopped event hphase hleft => simpa [hphase, TaskPhase.inMap] using hlisted
  | sent event message hphase hqueue hcommand => exact hlisted
  | took event command hphase hqueue hcommand => simpa [hphase, TaskPhase.inMap] using hlisted
  | output msg hphase hmsg => exact hlisted
  | handed hphase => simpa [hphase, TaskPhase.inMap] using hlisted
  | reported hphase => simpa [hphase, TaskPhase.inMap] using hlisted
  | removed hphase => rfl
  | finished hphase => simpa [hphase, TaskPhase.inMap] using hlisted
  | started session => exact hlisted
  | taken hqueue => exact hlisted
  | stuck service messages hworker => exact hlisted
  | served service messages result hworker => exact hlisted
  | pushed hmem hphase ho => exact hlisted
  | late hmem hphase => exact hlisted

namespace SessionManager

open ManagedSession

variable {s s' : SessionManager} {event : ManagerEvent} {o h : List ManagerObs} {id : String}

theorem listed_run {G : SessionManager → ManagerEvent → Prop} (hreach : Reaches managerStep G .initial h s) :
    ∀ id, (s.sessions id).listed = (s.sessions id).phase.inMap := by
  refine hreach.invariant (I := fun _ s => ∀ id, (s.sessions id).listed =
    (s.sessions id).phase.inMap) (fun id => rfl) ?_
  intro h s event s' o hinv _ hstep id
  cases taken_of_step hstep with
  | refused event error => exact hinv id
  | @connect id' profile cols rows hphase =>
    by_cases hid : id = id'
    · subst hid
      rw [setSession_self]
      rfl
    · rw [setSession_of_ne hid]
      exact hinv id
  | answered id' command result hresult => exact hinv id
  | @found id' command hlisted =>
    by_cases hid : id = id'
    · subst hid
      rw [setSession_self]
      exact hinv id
    · rw [setSession_of_ne hid]
      exact hinv id
  | @moved id' event session o hmoved =>
    by_cases hid : id = id'
    · subst hid
      rw [setSession_self]
      exact hmoved.listed (hinv id)
    · rw [setSession_of_ne hid]
      exact hinv id

theorem call_of_not_listed (hlisted : (s.sessions id).listed = false) (command : SshCommand) :
    managerStep s (.call id command) = some ({ s with nextCall := s.nextCall + 1 },
      [.called s.nextCall id command, .returned s.nextCall id command
        (if command = .input [] then .ok none else .error (.sessionNotFound id))]) := by
  unfold managerStep call
  by_cases hempty : command = .input []
  · simp [hempty]
  · simp [hempty, hlisted]

end SessionManager

section

variable {phase : SessionPhase} {seen : List ConnectionStatus} {errors : Nat}

open ConnectionStatus

theorem finalStatus_isFinal (result : Except PortixError Unit) : (finalStatus result).1.isFinal = true := by
  cases result <;> rfl

theorem Begun.life {final : ConnectionStatus} (hbegun : Begun seen) (hfinal : final.isFinal = true) :
    Life (seen ++ [final]) := by
  rcases hbegun with rfl | rfl
  · exact .unconnected final hfinal
  · exact .connected final hfinal

theorem Begun.not_final {status : ConnectionStatus} (hbegun : Begun seen) (hmem : status ∈ seen) :
    status.isFinal = false := by
  rcases hbegun with rfl | rfl
  · simp only [List.mem_singleton] at hmem
    rw [hmem]
    rfl
  · simp only [List.mem_cons, List.not_mem_nil, or_false] at hmem
    rcases hmem with rfl | rfl
    · rfl
    · rfl

theorem Lived.life (hlived : Lived phase seen errors) : ∃ rest, Life (seen ++ rest) := by
  have hend : ∀ {seen}, Begun seen → ∃ rest, Life (seen ++ rest) := fun hbegun =>
    ⟨[.disconnected], hbegun.life rfl⟩
  cases phase with
  | absent =>
    obtain ⟨rfl, -⟩ := hlived
    exact ⟨[.connecting, .disconnected], .unconnected _ rfl⟩
  | connecting => exact hend (Or.inl hlived.1)
  | running => exact hend (Or.inr hlived.1)
  | failed error => exact hend hlived.1
  | ending result => exact hend hlived.1
  | ended =>
    obtain ⟨begun, result, hbegun, rfl, -⟩ := hlived
    refine ⟨[], ?_⟩
    rw [List.append_nil]
    exact hbegun.life (finalStatus_isFinal result)

theorem Lived.ended {final : ConnectionStatus} (hlived : Lived phase seen errors)
    (hmem : final ∈ seen) (hfinal : final.isFinal = true) : phase = .ended := by
  have hnot : ∀ {seen}, Begun seen → final ∉ seen := fun hbegun hmem => by
    rw [hbegun.not_final hmem] at hfinal
    cases hfinal
  cases phase with
  | absent =>
    rw [hlived.1] at hmem
    cases hmem
  | connecting => exact absurd hmem (hnot (Or.inl hlived.1))
  | running => exact absurd hmem (hnot (Or.inr hlived.1))
  | failed error => exact absurd hmem (hnot hlived.1)
  | ending result => exact absurd hmem (hnot hlived.1)
  | ended => rfl

theorem Lived.error_iff (hlived : Lived .ended seen errors) :
    Life seen ∧ errors ≤ 1 ∧ (errors = 1 ↔ seen.getLast? = some .error) := by
  obtain ⟨begun, result, hbegun, rfl, rfl⟩ := hlived
  refine ⟨hbegun.life (finalStatus_isFinal result), ?_, ?_⟩
  · cases result <;> simp [errorsFor]
  · cases result <;> simp [errorsFor, finalStatus]

end

namespace SessionManager

variable {s : SessionManager} {h : List ManagerObs} {id : String}

theorem ended_of_session {phase : TaskPhase} (hended : phase.session = .ended) : phase = .ended := by
  cases phase <;> first | rfl | cases hended

theorem task_step {session : ManagedSession} {event : TaskEvent} {o : List ManagerObs}
    (hstep : (s.sessions id).taskStep id event = some (session, o)) :
    managerStep s (.task id event) = some (s.setSession id session, o) := by
  show ((s.sessions id).taskStep id event).map (fun r => (s.setSession id r.1, r.2)) = _
  rw [hstep]
  rfl

theorem ends_of_returned (hreach : Reaches managerStep (fun _ _ => True) .initial h s)
    (hreturned : s.Returned id) : ∃ h' s', Reaches managerStep (fun _ _ => True) .initial (h ++ h') s' ∧
      (s'.sessions id).phase = .ended := by
  have hending : ∀ {h s result}, Reaches managerStep (fun _ _ => True) .initial h s →
      (s.sessions id).phase = .ending result →
      ∃ h' s', Reaches managerStep (fun _ _ => True) .initial (h ++ h') s' ∧
        (s'.sessions id).phase = .ended := by
    intro h s result hreach hphase
    have hstep : (s.sessions id).taskStep id .finish = some ({ s.sessions id with phase := .ended },
        [.emitted ⟨.status, finalEvent id result⟩]) := by
      unfold ManagedSession.taskStep
      rw [hphase]
    refine ⟨_, _, hreach.next (e := .task id .finish) trivial (task_step hstep), ?_⟩
    rw [setSession_self]
  have hleaving : ∀ {h s result}, Reaches managerStep (fun _ _ => True) .initial h s →
      (s.sessions id).phase = .leaving result →
      ∃ h' s', Reaches managerStep (fun _ _ => True) .initial (h ++ h') s' ∧
        (s'.sessions id).phase = .ended := by
    intro h s result hreach hphase
    have hstep : (s.sessions id).taskStep id .remove =
        some ({ s.sessions id with phase := .ending result, listed := false }, []) := by
      unfold ManagedSession.taskStep
      rw [hphase]
    have hnext := hreach.next (e := .task id .remove) trivial (task_step hstep)
    obtain ⟨h', s', hreach', hended⟩ := hending hnext (congrArg _ (setSession_self _))
    exact ⟨[] ++ h', s', by simpa using hreach', hended⟩
  obtain ⟨hbegun, hclosed⟩ := hreturned
  cases hphase : (s.sessions id).phase with
  | failed error =>
    have hstep : (s.sessions id).taskStep id .reportError =
        some ({ s.sessions id with phase := .leaving (.error error) }, [.emitted ⟨.error, ⟨some id, error.text⟩⟩]) := by
      unfold ManagedSession.taskStep
      rw [hphase]
    have hnext := hreach.next (e := .task id .reportError) trivial (task_step hstep)
    obtain ⟨h', s', hreach', hended⟩ := hleaving hnext (congrArg _ (setSession_self _))
    exact ⟨_, s', by rwa [List.append_assoc] at hreach', hended⟩
  | leaving result => exact hleaving hreach hphase
  | ending result => exact hending hreach hphase
  | ended => exact ⟨[], s, by simpa using hreach, hphase⟩
  | absent => exact absurd hphase hbegun
  | _ => simp [hphase, TaskPhase.isOpen] at hclosed

end SessionManager

open SessionManager in
/-- The statuses of a session are the start of a life. With its final status it has left the map,
has sent an error event just if that status is the error, and later calls fail and change nothing,
but for an input without data, which is accepted. -/
theorem session_life_cycle (h : List ManagerObs) (s : SessionManager)
    (hreach : Reaches managerStep (fun _ _ => True) .initial h s) (id : String) :
    (∃ rest, ConnectionStatus.Life (statuses id h ++ rest)) ∧
    (∀ final ∈ statuses id h, final.isFinal = true →
      ConnectionStatus.Life (statuses id h) ∧ errorEvents id h ≤ 1 ∧
      (errorEvents id h = 1 ↔ (statuses id h).getLast? = some .error) ∧
      (s.sessions id).listed = false ∧
      ∀ command, managerStep s (.call id command) = some ({ s with nextCall := s.nextCall + 1 },
        [.called s.nextCall id command, .returned s.nextCall id command
          (if command = .input [] then .ok none else .error (.sessionNotFound id))])) ∧
    (s.Returned id → ∃ h' s', Reaches managerStep (fun _ _ => True) .initial (h ++ h') s' ∧
      ConnectionStatus.Life (statuses id (h ++ h'))) := by
  have hlived := lived_run hreach id
  refine ⟨hlived.life, ?_, ?_⟩
  · intro final hmem hfinal
    have hended := hlived.ended hmem hfinal
    have hlisted := listed_run hreach id
    rw [ended_of_session hended] at hlisted
    rw [hended] at hlived
    obtain ⟨hlife, hone, herror⟩ := hlived.error_iff
    exact ⟨hlife, hone, herror, hlisted, call_of_not_listed hlisted⟩
  · intro hreturned
    obtain ⟨h', s', hreach', hended⟩ := ends_of_returned hreach hreturned
    have hlived' := lived_run hreach' id
    rw [hended] at hlived'
    exact ⟨h', s', hreach', hlived'.error_iff.1⟩

def someProfile : SshProfile where
  id := "p"
  host := "h"
  port := 22
  username := "u"
  forwardAgent := false
  command := none

def refusedRun : List ManagerEvent :=
  [.connect "a" someProfile 80 24, .task "a" (.authenticate (.error .authenticationFailed)),
    .task "a" .reportError, .task "a" .remove, .task "a" .finish]

theorem session_life_cycle_refused : ∃ h s,
    Reaches managerStep (fun _ _ => True) .initial h s ∧
      statuses "a" h = [.connecting, .error] ∧ errorEvents "a" h = 1 ∧
      (s.sessions "a").listed = false := by
  have hstart : Reaches managerStep (fun _ _ => True) .initial [] .initial := .start
  have hreach := Reaches.of_runEvents refusedRun (fun _ _ _ => trivial) hstart rfl
  obtain ⟨-, hended, -⟩ := session_life_cycle _ _ hreach "a"
  obtain ⟨-, -, herror, hlisted, -⟩ := hended .error (by decide) rfl
  exact ⟨_, _, hreach, rfl, herror.mpr rfl, hlisted⟩

/-- An input without data is accepted after the end. -/
theorem ended_session_takes_input : ¬ ∀ h s, Reaches managerStep (fun _ _ => True) .initial h s →
    ∀ id, ∀ final ∈ statuses id h, final.isFinal = true → ∀ command,
      ∃ s', managerStep s (.call id command) = some (s', [.called s.nextCall id command,
        .returned s.nextCall id command (.error (.sessionNotFound id))]) := by
  intro hclaim
  have hstart : Reaches managerStep (fun _ _ => True) .initial [] .initial := .start
  have hreach := Reaches.of_runEvents refusedRun (fun _ _ _ => trivial) hstart rfl
  obtain ⟨s', hcall⟩ := hclaim _ _ hreach "a" .error (by decide) rfl (.input [])
  have hobs := (some_mk_inj hcall).2
  simp at hobs

end Portix.Ssh
