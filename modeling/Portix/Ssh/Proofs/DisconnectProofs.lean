import Portix.Ssh.Proofs.SessionManagerProofs

/-!
# Proofs: disconnecting a session

A disconnect that has been accepted waits in the queue of its session until the runtime takes it or
returns. What is taken before it was submitted earlier, so nothing that was submitted later gets to
the server. A session that is connected by then has only its end before it; another one can still get
connected.
-/

namespace Portix.Ssh

open Lib Domain

namespace ManagedSession

/-- What the loop hands over and the exec worker serves comes from the first `n` calls. -/
structure ServesBelow (n : Nat) (s : ManagedSession) : Prop where
  handing : ∀ request, s.phase = .handing request → request.responseTx < n
  execQueue : ∀ request ∈ s.execQueue, request.responseTx < n
  serving : ∀ session request, s.worker = .serving session request → request.responseTx < n

/-- Every call that is on its way in the session is one of the first `n`. -/
structure CallsBelow (n : Nat) (s : ManagedSession) : Prop extends ServesBelow n s where
  sending : ∀ queued ∈ s.sending, queued.call < n
  queue : ∀ queued ∈ s.queue, queued.call < n

/-- A disconnect waits in the queue, and what is before it comes from the first `n` calls. -/
def DisconnectWaits (n : Nat) (queue : List Queued) : Prop := ∃ before queued after,
  queue = before ++ queued :: after ∧ queued.command = .disconnect ∧
    ∀ earlier ∈ before, earlier.call < n

/-- The session has been told to disconnect, and what it still serves comes from the first `n`
calls. -/
structure Told (n : Nat) (s : ManagedSession) : Prop extends ServesBelow n s where
  begun : s.phase ≠ .absent
  waits : s.phase.isOpen = true → DisconnectWaits n s.queue

/-- What may be seen after a disconnect of the session `id`, when `n` calls had begun. -/
def Afterwards (id : String) (n : Nat) : ManagerObs → Prop
  | .called call _ _ => n ≤ call
  | .sent id' call _ => id' = id → call < n
  | _ => True

variable {id : String} {s s' : ManagedSession} {event : ManagerEvent} {o : List ManagerObs} {n : Nat}

theorem DisconnectWaits.concat {queue : List Queued} (hwaits : DisconnectWaits n queue)
    (queued : Queued) : DisconnectWaits n (queue ++ [queued]) := by
  obtain ⟨before, disconnect, after, rfl, hcommand, hbefore⟩ := hwaits
  exact ⟨before, disconnect, after ++ [queued], by simp, hcommand, hbefore⟩

theorem DisconnectWaits.front {queued : Queued} {rest : List Queued}
    (hwaits : DisconnectWaits n (queued :: rest)) (hcommand : queued.command ≠ .disconnect) :
    queued.call < n ∧ DisconnectWaits n rest := by
  obtain ⟨before, disconnect, after, hqueue, hdisconnect, hbefore⟩ := hwaits
  cases before with
  | nil =>
    cases hqueue
    exact absurd hdisconnect hcommand
  | cons first before =>
    cases hqueue
    rw [List.forall_mem_cons] at hbefore
    exact ⟨hbefore.1, before, disconnect, after, rfl, hdisconnect, hbefore.2⟩

theorem ServesBelow.step (hserves : ServesBelow n s) (hmoved : Moved id s event s' o)
    (hfront : ∀ queued rest command, s.phase = .running → s.queue = queued :: rest →
      queued.command = .exec command → queued.call < n) : ServesBelow n s' := by
  obtain ⟨hhanding, hexec, hserving⟩ := hserves
  cases hmoved with
  | login event hphase => exact ⟨by rintro request ⟨⟩, hexec, hserving⟩
  | opened event hphase hrest => exact ⟨by rintro request ⟨⟩, hexec, hserving⟩
  | connected hphase => exact ⟨by rintro request ⟨⟩, hexec, by rintro session request ⟨⟩⟩
  | failed event error hphase hleft => exact ⟨by rintro request ⟨⟩, hexec, hserving⟩
  | stopped event hphase hleft => exact ⟨by rintro request ⟨⟩, hexec, hserving⟩
  | sent event message hphase hqueue hcommand => exact ⟨hhanding, hexec, hserving⟩
  | took event command hphase hqueue hcommand =>
    refine ⟨?_, hexec, hserving⟩
    rintro request ⟨⟩
    exact hfront _ _ command hphase hqueue hcommand
  | output msg hphase hmsg => exact ⟨hhanding, hexec, hserving⟩
  | handed hphase =>
    refine ⟨by rintro request ⟨⟩, fun request hmem => ?_, hserving⟩
    rcases List.mem_append.mp hmem with hold | hnew
    · exact hexec request hold
    · rw [List.mem_singleton.mp hnew]
      exact hhanding _ hphase
  | reported hphase => exact ⟨by rintro request ⟨⟩, hexec, hserving⟩
  | removed hphase => exact ⟨by rintro request ⟨⟩, hexec, hserving⟩
  | finished hphase => exact ⟨by rintro request ⟨⟩, hexec, hserving⟩
  | started session => exact ⟨hhanding, hexec, by rintro session request ⟨⟩⟩
  | taken hqueue =>
    rw [hqueue, List.forall_mem_cons] at hexec
    refine ⟨hhanding, hexec.2, ?_⟩
    rintro session request ⟨⟩
    exact hexec.1
  | stuck service messages hworker => exact ⟨hhanding, hexec, by rintro session request ⟨⟩⟩
  | served service messages result hworker =>
    exact ⟨hhanding, hexec, by rintro session request ⟨⟩⟩
  | pushed hmem hphase ho => exact ⟨hhanding, hexec, hserving⟩
  | late hmem hphase => exact ⟨hhanding, hexec, hserving⟩

theorem CallsBelow.mono {n' : Nat} (hcalls : CallsBelow n s) (hle : n ≤ n') : CallsBelow n' s where
  handing := fun request hphase => Nat.lt_of_lt_of_le (hcalls.handing request hphase) hle
  execQueue := fun request hmem => Nat.lt_of_lt_of_le (hcalls.execQueue request hmem) hle
  serving := fun session request hworker =>
    Nat.lt_of_lt_of_le (hcalls.serving session request hworker) hle
  sending := fun queued hmem => Nat.lt_of_lt_of_le (hcalls.sending queued hmem) hle
  queue := fun queued hmem => Nat.lt_of_lt_of_le (hcalls.queue queued hmem) hle

theorem CallsBelow.step (hcalls : CallsBelow n s) (hmoved : Moved id s event s' o) :
    CallsBelow n s' := by
  have hserves : ServesBelow n s' := hcalls.toServesBelow.step hmoved
    fun queued rest command _ hqueue _ => hcalls.queue queued (by simp [hqueue])
  have hsending := hcalls.sending
  have hqueue := hcalls.queue
  cases hmoved with
  | failed event error hphase hleft => exact ⟨hserves, hsending, by simp⟩
  | stopped event hphase hleft => exact ⟨hserves, hsending, by simp⟩
  | sent event message hphase hfront hcommand =>
    rw [hfront, List.forall_mem_cons] at hqueue
    exact ⟨hserves, hsending, hqueue.2⟩
  | took event command hphase hfront hcommand =>
    rw [hfront, List.forall_mem_cons] at hqueue
    exact ⟨hserves, hsending, hqueue.2⟩
  | pushed hmem hphase ho =>
    refine ⟨hserves, fun queued hleft => hsending queued (List.mem_of_mem_erase hleft), ?_⟩
    intro queued hqueued
    rcases List.mem_append.mp hqueued with hold | hnew
    · exact hqueue queued hold
    · rw [List.mem_singleton.mp hnew]
      exact hsending _ hmem
  | late hmem hphase =>
    exact ⟨hserves, fun queued hleft => hsending queued (List.mem_of_mem_erase hleft), hqueue⟩
  | _ => exact ⟨hserves, hsending, hqueue⟩

theorem afterwards_dropped {id' : String} (left : List Queued) :
    ∀ obs ∈ left.flatMap (dropped id'), Afterwards id n obs := by
  intro obs hobs
  obtain ⟨queued, -, hdropped⟩ := List.mem_flatMap.mp hobs
  unfold dropped at hdropped
  split at hdropped
  · rw [List.mem_singleton.mp hdropped]
    trivial
  · cases hdropped

theorem afterwards_sent {request : ExecRequest} (hlt : request.responseTx < n)
    (messages : List Sent) : ∀ obs ∈ messages.map fun message =>
      ManagerObs.sent id request.responseTx (.exec message), Afterwards id n obs := by
  intro obs hobs
  obtain ⟨message, -, rfl⟩ := List.mem_map.mp hobs
  exact fun _ => hlt

/-- A session that has been told to disconnect does nothing any more but what was submitted
before. -/
theorem Told.step (htold : Told n s) (hmoved : Moved id s event s' o) : Told n s' ∧ ∀ obs ∈ o, Afterwards id n obs := by
  have hopen : ∀ {phase}, s.phase = phase → phase.isOpen = true → DisconnectWaits n s.queue :=
    fun hphase hopen => htold.waits (hphase ▸ hopen)
  have hserves : ServesBelow n s' := by
    refine htold.toServesBelow.step hmoved fun queued rest command hphase hqueue hcommand => ?_
    have hwaits := hopen hphase rfl
    rw [hqueue] at hwaits
    exact (hwaits.front (by rw [hcommand]; nofun)).1
  cases hmoved with
  | login event hphase => exact ⟨⟨hserves, nofun, fun _ => hopen hphase rfl⟩, by simp⟩
  | opened event hphase hrest =>
    refine ⟨⟨hserves, nofun, fun _ => hopen hphase rfl⟩, ?_⟩
    simp [Afterwards]
  | connected hphase =>
    refine ⟨⟨hserves, nofun, fun _ => hopen hphase rfl⟩, ?_⟩
    simp [Afterwards, emitStatus]
  | failed event error hphase hleft => exact ⟨⟨hserves, nofun, nofun⟩, afterwards_dropped _⟩
  | stopped event hphase hleft => exact ⟨⟨hserves, nofun, nofun⟩, afterwards_dropped _⟩
  | sent event message hphase hqueue hcommand =>
    have hwaits := hopen hphase rfl
    rw [hqueue] at hwaits
    obtain ⟨hlt, hrest⟩ := hwaits.front hcommand
    refine ⟨⟨hserves, htold.begun, fun _ => hrest⟩, ?_⟩
    intro obs hobs
    rw [List.mem_singleton.mp hobs]
    exact fun _ => hlt
  | took event command hphase hqueue hcommand =>
    have hwaits := hopen hphase rfl
    rw [hqueue] at hwaits
    exact ⟨⟨hserves, nofun, fun _ => (hwaits.front (by rw [hcommand]; nofun)).2⟩, by simp⟩
  | @output output msg hphase hmsg =>
    refine ⟨htold, ?_⟩
    intro obs hobs
    obtain ⟨data, -, rfl⟩ := List.mem_map.mp hobs
    trivial
  | handed hphase => exact ⟨⟨hserves, nofun, fun _ => hopen hphase rfl⟩, by simp⟩
  | reported hphase =>
    refine ⟨⟨hserves, nofun, nofun⟩, ?_⟩
    simp [Afterwards]
  | removed hphase => exact ⟨⟨hserves, nofun, nofun⟩, by simp⟩
  | finished hphase =>
    refine ⟨⟨hserves, nofun, nofun⟩, ?_⟩
    simp [Afterwards]
  | started session => exact ⟨⟨hserves, htold.begun, htold.waits⟩, by simp⟩
  | taken hqueue => exact ⟨⟨hserves, htold.begun, htold.waits⟩, by simp⟩
  | stuck service messages hworker =>
    exact ⟨⟨hserves, htold.begun, htold.waits⟩, afterwards_sent (htold.serving _ _ hworker) _⟩
  | served service messages result hworker =>
    refine ⟨⟨hserves, htold.begun, htold.waits⟩, ?_⟩
    intro obs hobs
    rcases List.mem_append.mp hobs with hsent | hreply
    · exact afterwards_sent (htold.serving _ _ hworker) _ obs hsent
    · rw [List.mem_singleton.mp hreply]
      trivial
  | pushed hmem hphase ho =>
    refine ⟨⟨hserves, htold.begun, fun hopen => (htold.waits hopen).concat _⟩, ?_⟩
    rcases ho with rfl | rfl
    · simp
    · simp [Afterwards]
  | late hmem hphase =>
    refine ⟨⟨hserves, htold.begun, htold.waits⟩, ?_⟩
    simp [Afterwards]

theorem Moved.of_other {id' : String} (hmoved : Moved id' s event s' o) (hne : id' ≠ id) :
    ∀ obs ∈ o, Afterwards id n obs := by
  have hsent : ∀ {call : Nat} {message : CommandMsg}, Afterwards id n (.sent id' call message) :=
    fun hid => absurd hid hne
  cases hmoved with
  | failed event error hphase hleft => exact afterwards_dropped _
  | stopped event hphase hleft => exact afterwards_dropped _
  | connected hphase => simp [Afterwards, emitStatus]
  | sent event message hphase hqueue hcommand => simpa using hsent
  | output msg hphase hmsg =>
    intro obs hobs
    obtain ⟨data, -, rfl⟩ := List.mem_map.mp hobs
    trivial
  | stuck service messages hworker =>
    intro obs hobs
    obtain ⟨message, -, rfl⟩ := List.mem_map.mp hobs
    exact hsent
  | served service messages result hworker =>
    intro obs hobs
    rcases List.mem_append.mp hobs with hmessage | hreply
    · obtain ⟨message, -, rfl⟩ := List.mem_map.mp hmessage
      exact hsent
    · rw [List.mem_singleton.mp hreply]
      trivial
  | pushed hmem hphase ho =>
    rcases ho with rfl | rfl
    · simp
    · simp [Afterwards]
  | _ => simp [Afterwards]

theorem Moved.accepted {id' : String} {call : Nat} (hmoved : Moved id' s event s' o)
    (hmem : .returned call id .disconnect (.ok none) ∈ o) :
    id' = id ∧ o = [.returned call id .disconnect (.ok none)] ∧ s.phase.isOpen = true ∧
      s'.phase = s.phase ∧ ∃ queued, queued.command = .disconnect ∧ s'.queue = s.queue ++ [queued] := by
  have hdrop : ∀ left : List Queued, .returned call id .disconnect (.ok none) ∉ left.flatMap (dropped id') := by
    intro left hobs
    obtain ⟨queued, -, hdropped⟩ := List.mem_flatMap.mp hobs
    unfold dropped at hdropped
    split at hdropped
    · simp at hdropped
    · cases hdropped
  cases hmoved with
  | failed event error hphase hleft => exact absurd hmem (hdrop _)
  | stopped event hphase hleft => exact absurd hmem (hdrop _)
  | @pushed queued o hsending hphase ho =>
    rcases ho with rfl | rfl
    · cases hmem
    · have heq := List.mem_singleton.mp hmem
      simp only [ManagerObs.returned.injEq] at heq
      obtain ⟨rfl, rfl, hcommand, -⟩ := heq
      exact ⟨rfl, by rw [← hcommand], hphase, rfl, queued, hcommand.symm, rfl⟩
  | output msg hphase hmsg => simp at hmem
  | stuck service messages hworker => simp at hmem
  | served service messages result hworker => simp at hmem
  | _ => simp [emitStatus] at hmem

end ManagedSession

namespace SessionManager

open ManagedSession

variable {s s' : SessionManager} {event : ManagerEvent} {o h : List ManagerObs} {id : String}

theorem callsBelow_run {G : SessionManager → ManagerEvent → Prop} (hreach : Reaches managerStep G .initial h s) :
    ∀ id, CallsBelow s.nextCall (s.sessions id) := by
  have hstart : ∀ n, CallsBelow n ManagedSession.absent := fun n =>
    ⟨⟨nofun, nofun, nofun⟩, nofun, nofun⟩
  refine hreach.invariant (I := fun _ s => ∀ id, CallsBelow s.nextCall (s.sessions id))
    (fun id => hstart 0) ?_
  intro h s event s' o hinv _ hstep id
  cases taken_of_step hstep with
  | refused event error => exact hinv id
  | @connect id' profile cols rows hphase =>
    by_cases hid : id = id'
    · subst hid
      rw [setSession_self]
      exact ⟨⟨nofun, nofun, nofun⟩, nofun, nofun⟩
    · rw [setSession_of_ne hid]
      exact hinv id
  | answered id' command result hresult => exact (hinv id).mono (Nat.le_succ _)
  | @found id' command hlisted =>
    have hcalls := (hinv id).mono (Nat.le_succ s.nextCall)
    by_cases hid : id = id'
    · subst hid
      rw [setSession_self]
      refine ⟨⟨hcalls.handing, hcalls.execQueue, hcalls.serving⟩, fun queued hmem => ?_, hcalls.queue⟩
      rcases List.mem_append.mp hmem with hold | hnew
      · exact hcalls.sending queued hold
      · rw [List.mem_singleton.mp hnew]
        exact Nat.lt_succ_self _
    · rw [setSession_of_ne hid]
      exact hcalls
  | @moved id' event session o hmoved =>
    by_cases hid : id = id'
    · subst hid
      rw [setSession_self]
      exact (hinv id).step hmoved
    · rw [setSession_of_ne hid]
      exact hinv id

theorem told_of_accepted {o' : List ManagerObs} {call : Nat} (hcalls : CallsBelow s.nextCall (s.sessions id))
    (hstep : managerStep s event = some (s', o ++ .returned call id .disconnect (.ok none) :: o')) :
    Told s'.nextCall (s'.sessions id) ∧ (s'.sessions id).phase.isOpen = true ∧ o = [] ∧ o' = [] := by
  have hmem : .returned call id .disconnect (.ok none) ∈ o ++ .returned call id .disconnect (.ok none) :: o' := by simp
  generalize hobs : o ++ .returned call id .disconnect (.ok none) :: o' = obs at hstep hmem
  cases taken_of_step hstep with
  | refused event error => simp at hmem
  | connect profile cols rows hphase => simp [emitStatus] at hmem
  | answered id' command result hresult =>
    simp only [List.mem_cons, reduceCtorEq, ManagerObs.returned.injEq, List.not_mem_nil, or_false, false_or] at hmem
    obtain ⟨-, rfl, rfl, hok⟩ := hmem
    rw [hresult (by simp)] at hok
    cases hok
  | found command hlisted => simp at hmem
  | @moved id' event session obs hmoved =>
    obtain ⟨rfl, hone, hopen, hphase, queued, hcommand, hqueue⟩ := hmoved.accepted hmem
    have hcalls' := hcalls.step hmoved
    rw [setSession_self]
    have hopened : session.phase.isOpen = true := by rw [hphase, hopen]
    refine ⟨⟨hcalls'.toServesBelow, ?_, fun _ => ?_⟩, hopened, ?_⟩
    · rw [hphase]
      intro habsent
      rw [habsent] at hopen
      cases hopen
    · exact ⟨_, queued, [], hqueue, hcommand, hcalls.queue⟩
    · have hlength := congrArg List.length (hobs.trans hone)
      simp only [List.length_append, List.length_cons, List.length_nil] at hlength
      exact ⟨List.length_eq_zero_iff.mp (by omega), List.length_eq_zero_iff.mp (by omega)⟩

theorem told_step {n : Nat} (hle : n ≤ s.nextCall) (htold : Told n (s.sessions id))
    (hstep : managerStep s event = some (s', o)) :
    n ≤ s'.nextCall ∧ Told n (s'.sessions id) ∧ ∀ obs ∈ o, Afterwards id n obs := by
  cases taken_of_step hstep with
  | refused event error => exact ⟨hle, htold, by simp [Afterwards]⟩
  | @connect id' profile cols rows hphase =>
    have hne : id ≠ id' := by
      rintro rfl
      exact htold.begun hphase
    rw [setSession_of_ne hne]
    exact ⟨hle, htold, by simp [Afterwards, emitStatus]⟩
  | answered id' command result hresult =>
    exact ⟨Nat.le_succ_of_le hle, htold, by simp [Afterwards, hle]⟩
  | @found id' command hlisted =>
    refine ⟨Nat.le_succ_of_le hle, ?_, by simp [Afterwards, hle]⟩
    by_cases hid : id = id'
    · subst hid
      rw [setSession_self]
      exact ⟨⟨htold.handing, htold.execQueue, htold.serving⟩, htold.begun, htold.waits⟩
    · rw [setSession_of_ne hid]
      exact htold
  | @moved id' event session o hmoved =>
    by_cases hid : id = id'
    · subst hid
      rw [setSession_self]
      exact ⟨hle, htold.step hmoved⟩
    · rw [setSession_of_ne hid]
      exact ⟨hle, htold, hmoved.of_other (Ne.symm hid)⟩

variable {call : Nat}

/-- A disconnect is accepted for a session whose runtime has not returned. -/
theorem open_of_accepted {h' : List ManagerObs} (hreach : Reaches managerStep (fun _ _ => True) .initial
    (h ++ .returned call id .disconnect (.ok none) :: h') s) :
    ∃ s1, Reaches managerStep (fun _ _ => True) .initial (h ++ [.returned call id .disconnect (.ok none)]) s1 ∧
      (s1.sessions id).phase.isOpen = true := by
  refine hreach.observed (Q := fun h obs => obs = .returned call id .disconnect (.ok none) → ∃ s1,
    Reaches managerStep (fun _ _ => True) .initial (h ++ [obs]) s1 ∧ (s1.sessions id).phase.isOpen = true)
    ?_ rfl rfl
  rintro h s event s' o1 obs o2 hbefore _ hstep rfl
  obtain ⟨-, hopen, rfl, rfl⟩ := told_of_accepted (callsBelow_run hbefore id) hstep
  rw [List.append_nil]
  exact ⟨s', hbefore.next trivial hstep, hopen⟩

/-- Nothing submitted after a disconnect is sent, whatever becomes of the session. -/
theorem nothing_sent_later {h' : List ManagerObs} (hreach : Reaches managerStep (fun _ _ => True) .initial
    (h ++ .returned call id .disconnect (.ok none) :: h') s) (later : Nat) (command : SshCommand)
    (message : CommandMsg) (hcalled : .called later id command ∈ h') : .sent id later message ∉ h' := by
  obtain ⟨n, -, hafter⟩ := hreach.aftermath
    (T := fun obs => obs = .returned call id .disconnect (.ok none))
    (P := fun n s => n ≤ s.nextCall ∧ ManagedSession.Told n (s.sessions id))
    (Q := ManagedSession.Afterwards id)
    (by
      intro h s event s' o obs o' hreach _ hstep hobs
      subst hobs
      obtain ⟨htold, -, -, rfl⟩ := told_of_accepted (callsBelow_run hreach id) hstep
      exact ⟨s'.nextCall, ⟨Nat.le_refl _, htold⟩, by simp⟩)
    (by
      intro n s event s' o htold _ hstep
      obtain ⟨hle, htold', hobs⟩ := told_step htold.1 htold.2 hstep
      exact ⟨⟨hle, htold'⟩, hobs⟩)
    rfl rfl
  intro hsent
  have hle : n ≤ later := hafter _ hcalled
  have hlt : later < n := hafter _ hsent rfl
  omega

theorem opening_run (hreach : Reaches managerStep (fun _ _ => True) .initial h s) :
    ∀ id requests, (s.sessions id).phase = .opening requests → requests ≠ [] := by
  refine hreach.invariant (I := fun _ s => ∀ id requests, (s.sessions id).phase = .opening requests → requests ≠ [])
    nofun ?_
  intro h s event s' o hinv _ hstep id requests hphase
  have hother : ∀ {id' session}, id ≠ id' → ((s.setSession id' session).sessions id).phase = .opening requests →
      requests ≠ [] := by
    intro id' session hid hphase
    rw [setSession_of_ne hid] at hphase
    exact hinv id requests hphase
  cases taken_of_step hstep with
  | refused event error => exact hinv id requests hphase
  | @connect id' profile cols rows habsent =>
    by_cases hid : id = id'
    · subst hid
      rw [setSession_self] at hphase
      cases hphase
    · exact hother hid hphase
  | answered id' command result hresult => exact hinv id requests hphase
  | @found id' command hlisted =>
    by_cases hid : id = id'
    · subst hid
      rw [setSession_self] at hphase
      exact hinv id requests hphase
    · exact hother hid hphase
  | @moved id' event session o hmoved =>
    by_cases hid : id = id'
    · subst hid
      rw [setSession_self] at hphase
      cases hmoved with
      | login event hconnecting =>
        cases hphase
        simp [openingRequests]
      | opened event hopening hrest =>
        cases hphase
        exact hrest
      | sent | output | started | taken | stuck | served | pushed | late => exact hinv id requests hphase
      | _ => cases hphase
    · exact hother hid hphase

/-- A session that has still to send some requests gets connected, if the server grants them all. -/
theorem connects_of_opening (requests : List TerminalRequest) (hne : requests ≠ []) :
    ∀ {h s}, Reaches managerStep (fun _ _ => True) .initial h s → (s.sessions id).phase = .opening requests →
      ∃ h' s', Reaches managerStep (fun _ _ => True) .initial (h ++ h') s' ∧ .connected ∈ statuses id h' := by
  induction requests with
  | nil => exact absurd rfl hne
  | cons request rest ih =>
    intro h s hreach hphase
    by_cases hrest : rest = []
    · have hstep : (s.sessions id).taskStep id (.request (.ok ())) =
          some ({ s.sessions id with phase := .running, worker := .starting },
            [.requested id request, ManagedSession.emitStatus id .connected "connected"]) := by
        simp only [ManagedSession.taskStep, hphase, if_pos hrest]
      refine ⟨_, _, hreach.next (e := .task id (.request (.ok ()))) trivial (task_step hstep), ?_⟩
      simp [statuses, emissions, ManagedSession.emitStatus]
    · have hstep : (s.sessions id).taskStep id (.request (.ok ())) =
          some ({ s.sessions id with phase := .opening rest }, [.requested id request]) := by
        simp only [ManagedSession.taskStep, hphase, if_neg hrest]
      have hnext := hreach.next (e := .task id (.request (.ok ()))) trivial (task_step hstep)
      obtain ⟨h', s', hreach', hconnected⟩ := ih hrest hnext (congrArg _ (setSession_self _))
      rw [List.append_assoc] at hreach'
      exact ⟨_, s', hreach', statuses_append ▸ List.mem_append_right _ hconnected⟩

theorem connects_of_connecting (hreach : Reaches managerStep (fun _ _ => True) .initial h s)
    (hconnecting : (s.sessions id).phase.session = .connecting) :
    ∃ h' s', Reaches managerStep (fun _ _ => True) .initial (h ++ h') s' ∧ .connected ∈ statuses id h' := by
  cases hphase : (s.sessions id).phase with
  | connecting profile cols rows =>
    have hstep : (s.sessions id).taskStep id (.authenticate (.ok ())) =
        some ({ s.sessions id with phase := .opening (openingRequests profile cols rows) }, []) := by
      simp only [ManagedSession.taskStep, hphase]
    have hnext := hreach.next (e := .task id (.authenticate (.ok ()))) trivial (task_step hstep)
    rw [List.append_nil] at hnext
    exact connects_of_opening _ (by simp [openingRequests]) hnext (congrArg _ (setSession_self _))
  | opening requests => exact connects_of_opening requests (opening_run hreach id requests hphase) hreach hphase
  | _ =>
    rw [hphase] at hconnecting
    cases hconnecting

end SessionManager

theorem ConnectionStatus.Life.final_after {seen later : List ConnectionStatus} (hlife : Life (seen ++ later))
    (hconnected : .connected ∈ seen) : ∀ status ∈ later, status.isFinal = true := by
  generalize hall : seen ++ later = statuses at hlife
  cases hlife with
  | unconnected final hfinal =>
    have hmem : .connected ∈ [.connecting, final] := hall ▸ List.mem_append_left _ hconnected
    have heq : final = .connected := by simpa [eq_comm] using hmem
    rw [heq] at hfinal
    cases hfinal
  | connected final hfinal =>
    rcases seen with - | ⟨first, - | ⟨second, seen⟩⟩
    · cases hconnected
    · cases hall
      simp at hconnected
    · intro status hmem
      have hrest := (List.cons.inj (List.cons.inj hall).2).2
      have hlast : status ∈ [final] := hrest ▸ List.mem_append_right _ hmem
      rw [List.mem_singleton.mp hlast]
      exact hfinal

open SessionManager in
/-- A disconnect is final if the session had got connected when it was accepted; otherwise the session can still get
connected. -/
theorem disconnect_final (h : List ManagerObs) (s : SessionManager) (id : String) (call : Nat)
    (hreach : Reaches managerStep (fun _ _ => True) .initial (h ++ [.returned call id .disconnect (.ok none)]) s) :
    (∀ h' s', Reaches managerStep (fun _ _ => True) .initial (h ++ .returned call id .disconnect (.ok none) :: h') s' →
      Final id h') ↔ .connected ∈ statuses id h := by
  have hsplit : ∀ h', statuses id (h ++ .returned call id .disconnect (.ok none) :: h') =
      statuses id h ++ statuses id h' := fun h' => statuses_append
  constructor
  · intro hfinal
    obtain ⟨s1, hreach1, hopen⟩ := open_of_accepted hreach
    have hlived := lived_run hreach1 id
    have hsame : statuses id (h ++ [.returned call id .disconnect (.ok none)]) = statuses id h :=
      (hsplit []).trans (List.append_nil _)
    rw [hsame] at hlived
    have hrunning : (s1.sessions id).phase.session = .running ∨ (s1.sessions id).phase.session = .connecting := by
      revert hopen
      cases (s1.sessions id).phase <;> simp [TaskPhase.isOpen, TaskPhase.session]
    rcases hrunning with hrunning | hconnecting
    · rw [hrunning] at hlived
      rw [hlived.1]
      decide
    · obtain ⟨h', s', hreach', hconnected⟩ := connects_of_connecting hreach1 hconnecting
      rw [List.append_assoc] at hreach'
      exact absurd hconnected (hfinal h' s' hreach').1
  · intro hconnected h' s' hreach'
    obtain ⟨rest, hlife⟩ := (lived_run hreach' id).life
    rw [hsplit, List.append_assoc] at hlife
    have hafter : ∀ status ∈ statuses id h', status.isFinal = true := fun status hmem =>
      hlife.final_after hconnected status (List.mem_append_left _ hmem)
    exact ⟨fun hmem => absurd (hafter _ hmem) (by decide), nothing_sent_later hreach',
      fun status hhead => hafter status (List.mem_of_mem_head? hhead)⟩

def connectedObs : List ManagerObs :=
  [ManagedSession.emitStatus "a" .connecting "connecting",
    .connectReturned (.ok ⟨"a", "p", .connecting⟩), .requested "a" .openSession,
    .requested "a" (.pty "xterm-256color" 80 24), .requested "a" .shell,
    ManagedSession.emitStatus "a" .connected "connected", .called 0 "a" .disconnect]

def connectedRun : List ManagerEvent :=
  [.connect "a" someProfile 80 24, .task "a" (.authenticate (.ok ())),
    .task "a" (.request (.ok ())), .task "a" (.request (.ok ())), .task "a" (.request (.ok ())),
    .call "a" .disconnect, .push "a" ⟨0, .disconnect⟩]

/-- A session is connected and disconnected, and input comes after that: all the session reports then is its end. -/
theorem disconnect_final_connected : ∃ s,
    Reaches managerStep (fun _ _ => True) .initial (connectedObs ++ .returned 0 "a" .disconnect (.ok none) ::
      [.called 1 "a" (.input [1]), .returned 1 "a" (.input [1]) (.ok none),
        .emitted ⟨.status, finalEvent "a" (.ok ())⟩]) s ∧
    Final "a" [.called 1 "a" (.input [1]), .returned 1 "a" (.input [1]) (.ok none),
      .emitted ⟨.status, finalEvent "a" (.ok ())⟩] := by
  have hstart : Reaches managerStep (fun _ _ => True) .initial [] .initial := .start
  have haccepted := Reaches.of_runEvents connectedRun (fun _ _ _ => trivial) hstart rfl
  have hreach := Reaches.of_runEvents (connectedRun ++ [.call "a" (.input [1]), .push "a" ⟨1, .input [1]⟩,
    .task "a" (.receive (.ok ())), .task "a" .remove, .task "a" .finish]) (fun _ _ _ => trivial) hstart rfl
  exact ⟨_, hreach, (disconnect_final connectedObs _ "a" 0 haccepted).mpr (by decide) _ _ hreach⟩

/-- A session that is disconnected while it connects gets connected all the same. -/
theorem connected_after_disconnect : ¬ ∀ h s, Reaches managerStep (fun _ _ => True) .initial h s →
    ∀ id call h1 h2, h = h1 ++ .returned call id .disconnect (.ok none) :: h2 →
      .connected ∉ statuses id h2 := by
  intro hclaim
  have hstart : Reaches managerStep (fun _ _ => True) .initial [] .initial := .start
  have hreach := Reaches.of_runEvents [.connect "a" someProfile 80 24, .call "a" .disconnect,
    .push "a" ⟨0, .disconnect⟩, .task "a" (.authenticate (.ok ())), .task "a" (.request (.ok ())),
    .task "a" (.request (.ok ())), .task "a" (.request (.ok ()))]
    (fun _ _ _ => trivial) hstart rfl
  have hnever := hclaim _ _ hreach "a" 0
    [ManagedSession.emitStatus "a" .connecting "connecting",
      .connectReturned (.ok ⟨"a", "p", .connecting⟩), .called 0 "a" .disconnect]
    [.requested "a" .openSession, .requested "a" (.pty "xterm-256color" 80 24),
      .requested "a" .shell, ManagedSession.emitStatus "a" .connected "connected"] rfl
  exact hnever (by decide)

end Portix.Ssh
