import Portix.Rdp.Proofs.CoherenceProofs

/-!
# Proofs: the lock on the session map

Where no input locks the session map to wait for room, the map is always free, and a disconnect gets
to its end by its own steps and the stop of the task it has told to stop.
-/

namespace Portix.Rdp

open Lib

namespace RdpManager

variable {s s' : RdpManager} {event : RdpEvent} {o : List RdpObs} {c : Nat} {id : String}

/-- No call keeps the session map locked, or waits for room with it. -/
structure Unlocked (s : RdpManager) : Prop where
  lock : s.lock = none
  sending : ∀ c id command, s.calls c ≠ .sending id command

theorem Unlocked.of_call (hinv : Unlocked s) {phase : CallPhase} (hlock : s'.lock = none)
    (hcalls : s'.calls = Function.update s.calls c phase)
    (hphase : ∀ id command, phase ≠ .sending id command) : Unlocked s' := by
  refine ⟨hlock, fun c' id command => ?_⟩
  rw [hcalls]
  by_cases hc : c' = c
  · subst hc
    rw [Function.update_self]
    exact hphase id command
  · rw [Function.update_of_ne hc]
    exact hinv.sending c' id command

theorem Unlocked.of_task (hinv : Unlocked s) (hlock : s'.lock = s.lock) (hcalls : s'.calls = s.calls) :
    Unlocked s' := ⟨hlock.trans hinv.lock, fun c => hcalls ▸ hinv.sending c⟩

theorem Begins.not_sending {phase : CallPhase} (hbegins : Begins phase) (id : String)
    (command : RdpCommand) : phase ≠ .sending id command := by
  cases hbegins <;> nofun

theorem CallMoves.not_sending {phase phase' : CallPhase} (hmoves : CallMoves s phase phase')
    (id : String) (command : RdpCommand) : phase' ≠ .sending id command := by
  cases hmoves <;> nofun

theorem Unlocked.step (hinv : Unlocked s) (hguard : s.FindsRoom event) (htaken : Taken s event s' o) : Unlocked s' := by
  have hlock := hinv.lock
  cases htaken with
  | begun call hrunning hbegins ho => exact hinv.of_call hlock rfl hbegins.not_sending
  | moved hmoves ho => exact hinv.of_call hlock rfl hmoves.not_sending
  | unlisted hcall => exact hinv.of_call hlock rfl nofun
  | unindexedStale hcall => exact hinv.of_call hlock rfl nofun
  | inserted hcall => exact hinv.of_call hlock rfl nofun
  | indexed hcall ho => exact hinv.of_call hlock rfl nofun
  | took hcall hhandle => exact hinv.of_call hlock rfl nofun
  | cancelled hcall => exact hinv.of_call hlock rfl nofun
  | closed hcall hsends => exact hinv.of_call hlock rfl nofun
  | unindexed hcall => exact hinv.of_call hlock rfl nofun
  | drained hcall => exact hinv.of_call hlock rfl nofun
  | cleared hcall => exact hinv.of_call hlock rfl nofun
  | closedOne hcall hsends => exact hinv.of_call hlock rfl nofun
  | input hcall hsends ho => exact hinv.of_call hlock rfl nofun
  | waits hcall hlisted hfull =>
    -- this is the step that the condition rules out
    unfold FindsRoom at hguard
    dsimp only at hguard
    rw [hcall] at hguard
    have hroom := hguard hlisted
    rw [hfull] at hroom
    cases hroom
  | entered hcall hsends ho => exact hinv.of_call rfl rfl nofun
  | created hcall hphase => exact hinv.of_call hlock rfl nofun
  | cancelledOne hcall hmem => exact hinv.of_call hlock rfl nofun
  | task hstep => exact hinv.of_task rfl rfl
  | removed hphase => exact hinv.of_task rfl rfl
  | cleaned hphase => exact hinv.of_task rfl rfl
  | dropped => exact hinv.of_task rfl rfl

theorem unlocked_run {h : List RdpObs} (hreach : Reaches rdpStep FindsRoom .initial h s) : Unlocked s := by
  have hstart : Unlocked .initial := ⟨rfl, fun _ => nofun⟩
  exact hreach.invariant (I := fun _ s => Unlocked s) hstart
    fun hinv hguard hstep => hinv.step hguard (taken_of_step hstep)

/-- The disconnect takes its next step, or the task of the session stops as it was told. -/
def Disconnects (c : Nat) (id : String) (_ : RdpManager) : RdpEvent → Prop
  | .advance c' => c' = c
  | .task id' .stop => id' = id
  | _ => False

/-- The disconnect can get to its end. -/
def Returns (s : RdpManager) (c : Nat) (id : String) : Prop :=
  ∃ h s', Reaches rdpStep (Disconnects c id) s h s' ∧ s'.calls c = .returned

theorem Returns.after (hreturns : Returns s' c id) (hguard : Disconnects c id s event)
    (hstep : rdpStep s event = some (s', o)) : Returns s c id := by
  obtain ⟨h, s2, hreach, hreturned⟩ := hreturns
  exact ⟨_, s2, (Reaches.start.next hguard hstep).trans hreach, hreturned⟩

theorem returns_of_unindexing (hcall : s.calls c = .unindexing id) : Returns s c id := by
  have hstep : rdpStep s (.advance c) = some (((s.setIndex (s.profileOf id) none).setSession id
      { s.sessions id with handle := .dropped }).setCall c .returned, []) := by
    simp [rdpStep, advance, hcall]
  have hguard : Disconnects c id s (.advance c) := rfl
  exact ⟨_, _, Reaches.start.next hguard hstep, setCall_self ..⟩

theorem returns_of_sent (hcall : s.calls c = .closing id) {r : RdpSession × Bool}
    (hsend : send (s.sessions id) .disconnect = some r) : Returns s c id := by
  have hstep : rdpStep s (.advance c) = some ((s.setSession id r.1).setCall c (.unindexing id), []) := by
    simp [rdpStep, advance, hcall, hsend]
  have hguard : Disconnects c id s (.advance c) := rfl
  exact (returns_of_unindexing (setCall_self ..)).after hguard hstep

theorem returns_of_closing (hcall : s.calls c = .closing id)
    (hcancelled : (s.sessions id).cancelled = true) : Returns s c id := by
  cases hsend : send (s.sessions id) .disconnect with
  | some r => exact returns_of_sent hcall hsend
  | none =>
    have hopen : (s.sessions id).isClosed = false := by
      by_contra hclosed
      rw [Bool.not_eq_false] at hclosed
      simp [send, hclosed] at hsend
    have hphase : ∃ phase, (s.sessions id).phase = .inRuntime phase := by
      cases hp : (s.sessions id).phase with
      | inRuntime phase => exact ⟨phase, rfl⟩
      | _ => simp [RdpSession.isClosed, hp, RdpTaskPhase.isOpen] at hopen
    obtain ⟨phase, hphase⟩ := hphase
    have hstep : rdpStep s (.task id .stop) = some (s.setSession id ((s.sessions id).finish (.ok ())), []) := by
      simp [rdpStep, task, RdpSession.taskStep, hphase, hcancelled]
    have hguard : Disconnects c id s (.task id .stop) := rfl
    have hclosed : send ((s.setSession id ((s.sessions id).finish (.ok ()))).sessions id)
        .disconnect = some ((s.sessions id).finish (.ok ()), false) := by
      rw [setSession_self]
      rfl
    have hcall' : (s.setSession id ((s.sessions id).finish (.ok ()))).calls c = .closing id := hcall
    exact (returns_of_sent hcall' hclosed).after hguard hstep

theorem returns_of_taken (hcall : s.calls c = .taken id) : Returns s c id := by
  have hstep : rdpStep s (.advance c) =
      some ((s.setSession id (s.sessions id).cancel).setCall c (.closing id), []) := by
    simp [rdpStep, advance, hcall]
  have hguard : Disconnects c id s (.advance c) := rfl
  have hcancelled : (((s.setSession id (s.sessions id).cancel).setCall c (.closing id)).sessions id).cancelled = true :=
    congrArg RdpSession.cancelled (setSession_self (s.sessions id).cancel)
  exact (returns_of_closing (setCall_self ..) hcancelled).after hguard hstep

theorem returns_of_disconnecting (hlock : s.lock = none) (hcall : s.calls c = .disconnecting id) : Returns s c id := by
  have hguard : Disconnects c id s (.advance c) := rfl
  by_cases hlisted : (s.sessions id).handle = .listed
  · have hstep : rdpStep s (.advance c) =
        some ((s.setSession id (take (s.sessions id))).setCall c (.taken id), []) := by
      simp [rdpStep, advance, hcall, hlock, hlisted]
    exact (returns_of_taken (setCall_self ..)).after hguard hstep
  · have hstep : rdpStep s (.advance c) = some (s.setCall c .returned, []) := by
      simp [rdpStep, advance, hcall, hlock, hlisted]
    exact ⟨_, _, Reaches.start.next hguard hstep, setCall_self ..⟩

theorem input_of_unlocked (hlock : s.lock = none) {command : RdpCommand} (hcall : s.calls c = .inputting id command)
    (hroom : (s.sessions id).handle = .listed → (send (s.sessions id) command).isSome = true) :
    (s.advance c).isSome = true := by
  unfold advance
  rw [hcall]
  dsimp only
  rw [hlock, if_neg (not_not_intro rfl)]
  by_cases hlisted : (s.sessions id).handle = .listed
  · rw [if_neg (not_not_intro hlisted)]
    obtain ⟨r, hsend⟩ := Option.isSome_iff_exists.mp (hroom hlisted)
    rw [hsend]
    rfl
  · rw [if_pos hlisted]
    rfl

end RdpManager

open RdpManager

/-- Where no input locks the session map to wait for room, the map is free in every state, a
disconnect can get to its end without anyone reading commands, and an input to a session with room in
its queue can take its next step. -/
theorem sessions_do_not_block (h : List RdpObs) (s : RdpManager)
    (hreach : Reaches rdpStep FindsRoom .initial h s) :
    (s.lock = none ∧ ∀ c id command, s.calls c ≠ .sending id command) ∧
    (∀ c id, s.calls c = .disconnecting id ∨ s.calls c = .taken id ∨ s.calls c = .closing id ∨
      s.calls c = .unindexing id → s.Returns c id) ∧
    ∀ c id command, s.calls c = .inputting id command → s.FindsRoom (.advance c) →
      (s.advance c).isSome = true := by
  have hunlocked := unlocked_run hreach
  have hcoherent := coherent_run hreach
  refine ⟨⟨hunlocked.lock, hunlocked.sending⟩, fun c id hcall => ?_,
    fun c id command hcall hroom => ?_⟩
  · rcases hcall with hcall | hcall | hcall | hcall
    · exact returns_of_disconnecting hunlocked.lock hcall
    · exact returns_of_taken hcall
    · exact returns_of_closing hcall (hcoherent.cancelled c id (by rw [hcall]; rfl))
    · exact returns_of_unindexing hcall
  · unfold FindsRoom at hroom
    dsimp only at hroom
    rw [hcall] at hroom
    exact input_of_unlocked hunlocked.lock hcall hroom

/-- Two sessions are made, and `n` inputs sent to the first while it still connects. -/
def inputsWhileConnecting (n : Nat) : List RdpEvent :=
  [.begin (.connect deskProfile), .advance 0, .create 0 "a", .advance 0, .advance 0,
    .begin (.connect { deskProfile with id := "q" }), .advance 1, .create 1 "b", .advance 1,
    .advance 1] ++
  (List.range n).flatMap fun i => [.begin (sendMouseMove "a" 0 0), .advance (i + 2)]

def roomCheck (s : RdpManager) : RdpEvent → Bool
  | .advance c => match s.calls c with
    | .inputting id command =>
      (s.sessions id).handle ≠ .listed || (send (s.sessions id) command).isSome
    | _ => true
  | _ => true

theorem room_of_check (s : RdpManager) (event : RdpEvent) (hcheck : roomCheck s event = true) : s.FindsRoom event := by
  unfold FindsRoom
  split
  case h_1 c =>
    split
    case h_1 id command hcall =>
      intro hlisted
      simpa [roomCheck, hcall, hlisted] using hcheck
    case h_2 => trivial
  case h_2 => trivial

/-- A session whose queue is full and that is still connecting can be disconnected. -/
theorem sessions_do_not_block_full : ∃ h s, Reaches rdpStep FindsRoom .initial h s ∧
    (s.sessions "a").queue.length = rdpCommandCapacity ∧ s.calls 34 = .disconnecting "a" ∧
    s.Returns 34 "a" := by
  obtain ⟨h, s, hreach, hlength, hcall⟩ := Reaches.exists_of_checkedEvents rdpStep .initial
    (P := fun s : RdpManager => (s.sessions "a").queue.length = rdpCommandCapacity ∧
      s.calls 34 = .disconnecting "a") roomCheck room_of_check
    (inputsWhileConnecting 32 ++ [.begin (.disconnect "a")]) (by decide +kernel)
  exact ⟨h, s, hreach, hlength, hcall,
    (sessions_do_not_block h s hreach).2.1 34 "a" (Or.inl hcall)⟩

/-- The input after those that fill the queue of a session keeps the map locked, and no other session
can be disconnected. -/
theorem full_queue_blocks : ¬ ∀ h s, Reaches rdpStep (fun _ _ => True) .initial h s →
    (∀ c id command, s.calls c = .sending id command → s.lock ≠ some c) ∧
    ∀ c id, s.calls c = .disconnecting id → (s.advance c).isSome = true := by
  intro hclaim
  obtain ⟨h, s, hreach, hcall, hnone⟩ := Reaches.exists_of_events rdpStep .initial
    (P := fun s : RdpManager => s.calls 35 = .disconnecting "b" ∧ (s.advance 35).isNone = true)
    (inputsWhileConnecting 33 ++ [.begin (.disconnect "b")]) (by decide +kernel)
  have hsome := (hclaim _ _ hreach).2 35 "b" hcall
  rw [Option.isNone_iff_eq_none.mp hnone] at hsome
  cases hsome

end Portix.Rdp
