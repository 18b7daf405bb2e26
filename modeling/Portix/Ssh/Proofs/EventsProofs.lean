import Portix.Ssh.Events

/-!
# Proofs: events of the sessions

Every step but the turn of the forwarding task leaves what it has been through as it is, and the
turn moves it on by one event, or past those that were overwritten. So in a run of any length each
event sent is added to the sink, lost by being overwritten, or still in the channel.
-/

namespace Portix.Ssh

open Lib Domain

section

variable {k : EventKind} {h h' : List EventObs} {id : String}

theorem sentTo_append : sentTo k (h ++ h') = sentTo k h ++ sentTo k h' := List.filterMap_append

theorem arrivedIn_append : arrivedIn id (h ++ h') = arrivedIn id h ++ arrivedIn id h' := List.filterMap_append

theorem outputOf_append {events events' : List TerminalOutputEvent} :
    outputOf id (events ++ events') = outputOf id events ++ outputOf id events' := by
  rw [outputOf, List.filter_append, List.flatMap_append]
  rfl

theorem arrivedIn_ofEvent (events : List (Σ k, EventKind.Event k)) : arrivedIn id (events.map .ofEvent) = [] := by
  rw [arrivedIn, List.filterMap_map]
  exact List.filterMap_eq_nil_iff.mpr fun _ _ => rfl

theorem sentTo_ofEvent_self (event : k.Event) : sentTo k [.ofEvent ⟨k, event⟩] = [event] := by
  simp [sentTo, EventObs.ofEvent, EventObs.event?]

theorem sentTo_ofEvent_of_ne {event : Σ k, EventKind.Event k} (hne : event.1 ≠ k) : sentTo k [.ofEvent event] = [] := by
  simp [sentTo, EventObs.ofEvent, EventObs.event?, hne]

end

section

variable {id : String} {phase phase' : SessionPhase} {event : SessionEvent}
  {emitted : Option (Σ k, EventKind.Event k)}

theorem sessionStep_cases (hstep : sessionStep id phase event = some (phase', emitted)) :
    (∃ msg output, event = .message msg ∧ runtimeMessage msg = (true, output) ∧
      phase' = .running ∧ emitted = output.map fun data => ⟨.output, ⟨id, data⟩⟩) ∨
    (∃ msg output, event = .message msg ∧ runtimeMessage msg = (false, output) ∧
      phase' = .ending (.ok ()) ∧ emitted = none) ∨
    ((∀ msg, event ≠ .message msg) ∧ phase' ≠ .ended ∧ ∀ e, emitted = some e → e.1 ≠ .output) ∨
    ∃ result, event = .finish ∧ phase' = .ended ∧ emitted = some ⟨.status, finalEvent id result⟩ := by
  unfold sessionStep at hstep
  split at hstep
  case h_3 msg =>
    split at hstep <;> rename_i output hmsg <;>
      cases hstep
    · exact Or.inl ⟨msg, output, rfl, hmsg, rfl, rfl⟩
    · exact Or.inr (Or.inl ⟨msg, output, rfl, hmsg, rfl, rfl⟩)
  case h_8 result =>
    cases hstep
    exact Or.inr (Or.inr (Or.inr ⟨result, rfl, rfl, rfl⟩))
  case h_9 => cases hstep
  all_goals
    cases hstep
    exact Or.inr (Or.inr (Or.inl ⟨by simp, by simp, by simp⟩))

/-- What the loop outputs for a message is what the message carries, and it stops only at messages
that carry nothing. -/
theorem runtimeMessage_output (msg : Option ChannelMsg) :
    ((runtimeMessage msg).2.getD []) = (msg.map ChannelMsg.bytes).getD [] := by
  cases msg with
  | none => rfl
  | some m => cases m <;> rfl

theorem runtimeMessage_stop {msg : Option ChannelMsg} {output : Option (List UInt8)}
    (hmsg : runtimeMessage msg = (false, output)) : output = none := by
  cases msg with
  | none => exact (Prod.mk.inj hmsg).2.symm
  | some m => cases m <;> simp_all [runtimeMessage]

theorem runtimeMessage_on {msg : ChannelMsg} {output : Option (List UInt8)}
    (hmsg : runtimeMessage (some msg) = (true, output)) : msg.isEnd = false ∧ msg.status? = none := by
  cases msg <;> first | exact ⟨rfl, rfl⟩ | cases hmsg

/-- What a session outputs is what the message carries that it takes. -/
theorem outputOf_sessionStep (hstep : sessionStep id phase event = some (phase', emitted)) (id' : String) :
    outputOf id' (sentTo .output (emitted.toList.map .ofEvent)) =
      match event with
      | .message (some msg) => if id = id' then msg.bytes else []
      | _ => [] := by
  rcases sessionStep_cases hstep with ⟨msg, output, rfl, hmsg, -, rfl⟩ |
    ⟨msg, output, rfl, hmsg, -, rfl⟩ | ⟨hnone, -, hother⟩ | ⟨result, rfl, -, rfl⟩
  · have hbytes := runtimeMessage_output msg
    rw [hmsg] at hbytes
    cases msg with
    | none => cases hmsg
    | some msg =>
      dsimp only at hbytes ⊢
      rw [Option.map_some, Option.getD_some] at hbytes
      rw [← hbytes]
      cases output with
      | none => simp [outputOf, sentTo]
      | some data =>
        rw [Option.map_some, Option.toList_some, List.map_singleton, sentTo_ofEvent_self]
        by_cases hid : id = id' <;> simp [outputOf, hid]
  · have hbytes := runtimeMessage_output msg
    rw [hmsg, runtimeMessage_stop hmsg] at hbytes
    cases msg with
    | none => rfl
    | some msg =>
      dsimp only at hbytes ⊢
      rw [Option.map_some, Option.getD_some] at hbytes
      rw [← hbytes]
      simp [outputOf, sentTo]
  · have hnil : outputOf id' (sentTo .output (emitted.toList.map .ofEvent)) = [] := by
      cases emitted with
      | none => rfl
      | some e =>
        rw [Option.toList_some, List.map_singleton, sentTo_ofEvent_of_ne (hother e rfl)]
        rfl
    rw [hnil]
    cases event with
    | message msg => exact absurd rfl (hnone msg)
    | _ => rfl
  · rw [Option.toList_some, List.map_singleton, sentTo_ofEvent_of_ne (by simp)]
    rfl

end

section

variable {S R : EventKind → Type} {B : (k : EventKind) → Broadcast k.Event (S k) (R k)}
  {toJson : (k : EventKind) → k.Event → Option String} {k : EventKind}
  {s s' : EventState S R} {happening : Happening} {o : List EventObs}

@[simp] theorem setStream_self (stream : EventStream (S k) (R k)) :
    (s.setStream k stream).streams k = stream := Function.update_self ..

theorem setStream_of_ne {k' : EventKind} (hne : k ≠ k') (stream : EventStream (S k') (R k')) :
    (s.setStream k' stream).streams k = s.streams k := Function.update_of_ne hne ..

theorem eventStep_session {id : String} {event : SessionEvent}
    (hstep : eventStep B toJson s (.session id event) = some (s', o)) :
    ∃ phase emitted left, sessionStep id (s.phase id) event = some (phase, emitted) ∧
      takeMessage (s.inbox id) event = some left ∧ s'.phase = Function.update s.phase id phase ∧
      s'.inbox = Function.update s.inbox id left ∧ s'.streams = (emitted.elim s (s.send B)).streams ∧
      o = emitted.toList.map .ofEvent := by
  rw [eventStep] at hstep
  split at hstep
  case h_2 => cases hstep
  case h_1 phase emitted left hsession hleft =>
    cases hstep
    refine ⟨phase, emitted, left, hsession, hleft, ?_, ?_, ?_, rfl⟩ <;> cases emitted <;> rfl

/-- What a step can do to the stream of one kind: nothing the forwarding task sees, send it an
event, or give its task a turn. -/
theorem eventStep_stream (k : EventKind) (hstep : eventStep B toJson s happening = some (s', o)) :
    ((s'.streams k).channel = (s.streams k).channel ∧ (s'.streams k).rx = (s.streams k).rx ∧
      (s'.streams k).sink = (s.streams k).sink ∧
      (s'.streams k).forwarding = (s.streams k).forwarding ∧ sentTo k o = []) ∨
    (∃ e, s'.streams k = { s.streams k with channel := (B k).send (s.streams k).channel e } ∧ sentTo k o = [e]) ∨
    (happening = .poll k ∧ (s.streams k).forwarding = true ∧
      s'.streams k = (s.streams k).poll (B k) (toJson k) ∧ o = []) := by
  cases happening with
  | arrive id msg =>
    cases hstep
    exact Or.inl ⟨rfl, rfl, rfl, rfl, rfl⟩
  | session id event =>
    obtain ⟨phase, emitted, left, -, -, -, -, hstreams, rfl⟩ := eventStep_session hstep
    rw [hstreams]
    cases emitted with
    | none => exact Or.inl ⟨rfl, rfl, rfl, rfl, rfl⟩
    | some e =>
      obtain ⟨k', e⟩ := e
      by_cases hk : k' = k
      · subst hk
        exact Or.inr (Or.inl ⟨e, setStream_self _, sentTo_ofEvent_self e⟩)
      · have hsame : (s.send B ⟨k', e⟩).streams k = s.streams k :=
          setStream_of_ne (Ne.symm hk) _
        refine Or.inl ?_
        rw [Option.elim_some, hsame]
        exact ⟨rfl, rfl, rfl, rfl, sentTo_ofEvent_of_ne hk⟩
  | poll k' =>
    rw [eventStep] at hstep
    split at hstep
    case isFalse => cases hstep
    case isTrue hforwarding =>
      cases hstep
      by_cases hk : k' = k
      · subst hk
        exact Or.inr (Or.inr ⟨rfl, hforwarding, setStream_self _, rfl⟩)
      · rw [setStream_of_ne (Ne.symm hk)]
        exact Or.inl ⟨rfl, rfl, rfl, rfl, rfl⟩
  | closeSink k' =>
    cases hstep
    refine Or.inl ?_
    by_cases hk : k' = k
    · subst hk
      rw [setStream_self]
      exact ⟨rfl, rfl, rfl, rfl, rfl⟩
    · rw [setStream_of_ne (Ne.symm hk)]
      exact ⟨rfl, rfl, rfl, rfl, rfl⟩

section Poll

variable {E S R : Type} {B : Broadcast E S R} {toJson : E → Option String} {stream : EventStream S R}
  {r' : R}

theorem poll_of_empty (hrecv : B.recv stream.channel stream.rx = (.empty, r')) :
    stream.poll B toJson = { stream with rx := r', forwarding := true } := by
  simp [EventStream.poll, hrecv, forwardTurn]

theorem poll_of_lagged {missed : Nat} (hrecv : B.recv stream.channel stream.rx = (.lagged missed, r')) :
    stream.poll B toJson = { stream with rx := r', forwarding := true } := by
  simp [EventStream.poll, hrecv, forwardTurn]

theorem poll_of_ok {e : E} {json : String} (hjson : toJson e = some json)
    (hrecv : B.recv stream.channel stream.rx = (.ok e, r')) (haccepts : stream.accepts = true) :
    stream.poll B toJson = { stream with rx := r', sink := stream.sink ++ [json], forwarding := true } := by
  simp [EventStream.poll, hrecv, forwardTurn, hjson, haccepts]

theorem accepts_of_poll {e : E} {json : String} (hjson : toJson e = some json)
    (hrecv : B.recv stream.channel stream.rx = (.ok e, r'))
    (hforwarding : (stream.poll B toJson).forwarding = true) : stream.accepts = true := by
  by_contra hrefuses
  simp [EventStream.poll, hrecv, forwardTurn, hjson, hrefuses] at hforwarding

end Poll

theorem getElem?_append_cases {α : Type} {l l' : List α} {i : Nat} {a : α} (hget : (l ++ l')[i]? = some a) :
    l[i]? = some a ∨ (a ∈ l' ∧ i < l.length + l'.length) := by
  rw [List.getElem?_append] at hget
  split at hget
  · exact Or.inl hget
  · have hlt := (List.getElem?_eq_some_iff.mp hget).1
    exact Or.inr ⟨List.mem_of_getElem? hget, by omega⟩

structure ForwardInv (toJson : (k : EventKind) → k.Event → Option String)
    (Holds : (k : EventKind) → S k → List k.Event → Prop) (pos : (k : EventKind) → R k → Nat)
    (k : EventKind) (log : List k.Event) (h : List EventObs) (s : EventState S R)
    (taken : List (k.Event × Bool)) (outstanding : List k.Event) : Prop
    extends Forwarded toJson k h (s.streams k).sink taken outstanding where
  place : Broadcast.At (Holds k) (pos k) (s.streams k).channel (s.streams k).rx
    (log ++ taken.map Prod.fst) outstanding
  late : ∀ i event, taken[i]? = some (event, false) → i + k.capacity < (sentTo k h).length

variable {Holds : (k : EventKind) → S k → List k.Event → Prop} {pos : (k : EventKind) → R k → Nat}
  {log : List k.Event} {h : List EventObs} {taken : List (k.Event × Bool)}
  {outstanding : List k.Event}

namespace ForwardInv

theorem of_same (hinv : ForwardInv toJson Holds pos k log h s taken outstanding)
    (hchannel : (s'.streams k).channel = (s.streams k).channel)
    (hrx : (s'.streams k).rx = (s.streams k).rx) (hsink : (s'.streams k).sink = (s.streams k).sink)
    (hnone : sentTo k o = []) :
    ForwardInv toJson Holds pos k log (h ++ o) s' taken outstanding := by
  have hsent : sentTo k (h ++ o) = sentTo k h := by rw [sentTo_append, hnone, List.append_nil]
  refine ⟨⟨?_, ?_⟩, ?_, ?_⟩
  · rw [hsent]; exact hinv.sent
  · rw [hsink]; exact hinv.sink
  · rw [hchannel, hrx]; exact hinv.place
  · rw [hsent]; exact hinv.late

theorem of_send (hlaw : (B k).Lawful k.capacity (Holds k) (pos k))
    (hinv : ForwardInv toJson Holds pos k log h s taken outstanding) {e : k.Event}
    (hstream : s'.streams k = { s.streams k with channel := (B k).send (s.streams k).channel e })
    (hone : sentTo k o = [e]) :
    ForwardInv toJson Holds pos k log (h ++ o) s' taken (outstanding ++ [e]) := by
  have hsent : sentTo k (h ++ o) = sentTo k h ++ [e] := by rw [sentTo_append, hone]
  refine ⟨⟨?_, ?_⟩, ?_, ?_⟩
  · rw [hsent, ← hinv.sent, List.append_assoc]
  · rw [hstream]; exact hinv.sink
  · rw [hstream]; exact hlaw.at_send e hinv.place
  · intro i event hlost
    have hbefore := hinv.late i event hlost
    rw [hsent, List.length_append]
    omega

theorem of_kept {e : k.Event} {rest : List k.Event} {json : String} {r' : R k}
    (hinv : ForwardInv toJson Holds pos k log h s taken (e :: rest))
    (hjson : toJson k e = some json)
    (hstream : s'.streams k = { s.streams k with rx := r', sink := (s.streams k).sink ++ [json], forwarding := true })
    (hplace : Broadcast.At (Holds k) (pos k) (s.streams k).channel r'
      (log ++ taken.map Prod.fst ++ [e]) rest) :
    ForwardInv toJson Holds pos k log h s' (taken ++ [(e, true)]) rest := by
  refine ⟨⟨?_, ?_⟩, ?_, ?_⟩
  · rw [← hinv.sent, List.map_append, List.append_assoc]
    rfl
  · rw [hstream, List.map_append, hinv.sink, List.filter_append, List.map_append, List.map_singleton, ← hjson]
    rfl
  · rw [hstream, List.map_append, ← List.append_assoc]
    exact hplace
  · intro i event hlost
    rcases getElem?_append_cases hlost with hold | ⟨hnew, -⟩
    · exact hinv.late i event hold
    · simp at hnew

theorem of_missed {missed : Nat} {r' : R k} (hinv : ForwardInv toJson Holds pos k log h s taken outstanding)
    (hbehind : outstanding.length = missed + k.capacity)
    (hstream : s'.streams k = { s.streams k with rx := r', forwarding := true })
    (hplace : Broadcast.At (Holds k) (pos k) (s.streams k).channel r'
      (log ++ taken.map Prod.fst ++ outstanding.take missed) (outstanding.drop missed)) :
    ForwardInv toJson Holds pos k log h s'
      (taken ++ (outstanding.take missed).map fun event => (event, false))
      (outstanding.drop missed) := by
  have hnone : ((outstanding.take missed).map fun event => (event, false)).filter Prod.snd =
      ([] : List (k.Event × Bool)) := by
    rw [List.filter_map]
    simp
  have hfst : ((outstanding.take missed).map fun event => (event, false)).map Prod.fst = outstanding.take missed := by
    rw [List.map_map]
    exact List.map_id _
  refine ⟨⟨?_, ?_⟩, ?_, ?_⟩
  · rw [List.map_append, hfst, List.append_assoc, List.take_append_drop, hinv.sent]
  · rw [hstream, List.filter_append, hnone, List.append_nil]
    exact hinv.sink
  · rw [hstream, List.map_append, hfst, ← List.append_assoc]
    exact hplace
  · intro i event hlost
    have hsent := congrArg List.length hinv.sent
    rw [List.length_append, List.length_map] at hsent
    rcases getElem?_append_cases hlost with hold | ⟨-, hlength⟩
    · exact hinv.late i event hold
    · rw [List.length_map, List.length_take] at hlength
      omega

theorem step (hlaw : (B k).Lawful k.capacity (Holds k) (pos k)) (hjson : ∀ e, ∃ json, toJson k e = some json)
    (hinv : ForwardInv toJson Holds pos k log h s taken outstanding)
    (hstep : eventStep B toJson s happening = some (s', o))
    (hforwarding : (s'.streams k).forwarding = true) :
    ∃ taken' outstanding', ForwardInv toJson Holds pos k log (h ++ o) s' taken' outstanding' ∧
      ((∀ event ∈ taken', event ∈ taken ∨ event.2 = true) ∨
        (happening = .poll k ∧ k.capacity < outstanding.length)) := by
  rcases eventStep_stream k hstep with ⟨hchannel, hrx, hsink, -, hnone⟩ | ⟨e, hstream, hone⟩ | ⟨rfl, -, hstream, rfl⟩
  · exact ⟨_, _, hinv.of_same hchannel hrx hsink hnone, Or.inl fun _ => Or.inl⟩
  · exact ⟨_, _, hinv.of_send hlaw hstream hone, Or.inl fun _ => Or.inl⟩
  · rw [List.append_nil]
    rw [hstream] at hforwarding
    rcases hlaw.recv_cases hinv.place with ⟨-, hrecv⟩ |
      ⟨e, rest, r', rfl, -, hrecv, hplace⟩ | ⟨missed, r', hbehind, hmissed, hrecv, hplace⟩
    · rw [poll_of_empty hrecv] at hstream
      have hsame : ForwardInv toJson Holds pos k log (h ++ []) s' taken outstanding :=
        hinv.of_same (by rw [hstream]) (by rw [hstream]) (by rw [hstream]) rfl
      rw [List.append_nil] at hsame
      exact ⟨_, _, hsame, Or.inl fun _ => Or.inl⟩
    · obtain ⟨json, hjson⟩ := hjson e
      rw [poll_of_ok hjson hrecv (accepts_of_poll hjson hrecv hforwarding)] at hstream
      refine ⟨_, _, hinv.of_kept hjson hstream hplace, Or.inl fun event hevent => ?_⟩
      rcases List.mem_append.mp hevent with hold | hnew
      · exact Or.inl hold
      · exact Or.inr (by rw [List.mem_singleton.mp hnew])
    · rw [poll_of_lagged hrecv] at hstream
      exact ⟨_, _, hinv.of_missed hbehind hstream hplace, Or.inr ⟨rfl, by omega⟩⟩

end ForwardInv

theorem forwarding_of_step (hstep : eventStep B toJson s happening = some (s', o))
    (hforwarding : (s'.streams k).forwarding = true) : (s.streams k).forwarding = true := by
  rcases eventStep_stream k hstep with ⟨-, -, -, hsame, -⟩ | ⟨e, hstream, -⟩ | ⟨-, hbefore, -, -⟩
  · rwa [hsame] at hforwarding
  · rwa [hstream] at hforwarding
  · exact hbefore

variable {s0 : EventState S R}

theorem ForwardInv.start (toJson : (k : EventKind) → k.Event → Option String)
    (hlaw : (B k).Lawful k.capacity (Holds k) (pos k))
    (hsub : Subscribed B Holds k s0) :
    ∃ log, ForwardInv toJson Holds pos k log [] s0 [] [] := by
  obtain ⟨log, hholds⟩ := hsub.holds
  refine ⟨log, ⟨⟨rfl, by rw [hsub.sink]; rfl⟩, ?_, ?_⟩⟩
  · rw [hsub.rx, List.map_nil, List.append_nil]
    exact hlaw.at_subscribe hholds
  · intro i event hlost
    simp at hlost

/-- The loop of a session does not run any more. -/
def SessionPhase.isOver : SessionPhase → Bool
  | .failed _ => true
  | .ending _ => true
  | .ended => true
  | _ => false

theorem isOver_of_sessionStep {id : String} {phase phase' : SessionPhase} {event : SessionEvent}
    {emitted : Option (Σ k, EventKind.Event k)} (hstep : sessionStep id phase event = some (phase', emitted))
    (hover : phase.isOver = true) : phase'.isOver = true ∧ ∀ msg, event ≠ .message msg := by
  unfold sessionStep at hstep
  split at hstep <;> first | cases hover | skip
  case h_9 => cases hstep
  all_goals
    cases hstep
    exact ⟨rfl, by simp⟩

/-- Of the messages taken the last can be one after which the loop of the session is over. -/
structure MessagesTaken (s0 : EventState S R) (id : String) (h : List EventObs) (s : EventState S R)
    (taken : List ChannelMsg) : Prop where
  split : s0.inbox id ++ arrivedIn id h = taken ++ s.inbox id
  output : outputOf id (sentTo .output h) = taken.flatMap ChannelMsg.bytes
  on : ∀ msg ∈ taken.dropLast, msg.isEnd = false ∧ msg.status? = none
  last : (s.phase id).isOver = false → ∀ msg ∈ taken, msg.isEnd = false ∧ msg.status? = none

theorem MessagesTaken.quiet {id : String} {taken : List ChannelMsg} (hinv : MessagesTaken s0 id h s taken)
    (hoff : (s.phase id).isOver = true → (s'.phase id).isOver = true)
    (hinbox : s'.inbox id = s.inbox id ++ arrivedIn id o) (hnone : outputOf id (sentTo .output o) = []) :
    MessagesTaken s0 id (h ++ o) s' taken where
  split := by rw [arrivedIn_append, ← List.append_assoc, hinv.split, List.append_assoc, hinbox]
  output := by rw [sentTo_append, outputOf_append, hnone, List.append_nil, hinv.output]
  on := hinv.on
  last hrunning := hinv.last (by
    cases hover : (s.phase id).isOver with
    | false => rfl
    | true => exact hrunning.symm.trans (hoff hover) |>.symm)

theorem MessagesTaken.session {id : String} {taken left : List ChannelMsg} {event : SessionEvent} {phase : SessionPhase}
    {emitted : Option (Σ k, EventKind.Event k)} (hinv : MessagesTaken s0 id h s taken)
    (hsession : sessionStep id (s.phase id) event = some (phase, emitted))
    (hleft : takeMessage (s.inbox id) event = some left) (hphase : s'.phase id = phase) (hinbox : s'.inbox id = left) :
    ∃ taken', MessagesTaken s0 id (h ++ emitted.toList.map .ofEvent) s' taken' := by
  have houtput := outputOf_sessionStep hsession id
  have hover : (s.phase id).isOver = true → (s'.phase id).isOver = true := fun hover =>
    hphase ▸ (isOver_of_sessionStep hsession hover).1
  by_cases hmessage : ∃ msg, event = .message (some msg)
  · obtain ⟨msg, rfl⟩ := hmessage
    simp only [takeMessage, Option.ite_none_right_eq_some, Option.some.injEq] at hleft
    obtain ⟨hhead, rfl⟩ := hleft
    have hinbox' : s.inbox id = msg :: s'.inbox id := by
      rw [hinbox]
      exact (List.cons_head?_tail hhead).symm
    have hrunning : (s.phase id).isOver = false := by
      by_contra hnot
      exact (isOver_of_sessionStep hsession (by simpa using hnot)).2 _ rfl
    refine ⟨taken ++ [msg], ?_, ?_, ?_, ?_⟩
    · rw [arrivedIn_append, arrivedIn_ofEvent, List.append_nil, hinv.split, hinbox', List.append_assoc]
      rfl
    · rw [sentTo_append, outputOf_append, houtput, hinv.output, List.flatMap_append]
      simp
    · rw [List.dropLast_concat]
      exact hinv.last hrunning
    · intro hon m hm
      rcases List.mem_append.mp hm with hm | hm
      · exact hinv.last hrunning m hm
      obtain rfl := List.mem_singleton.mp hm
      rcases sessionStep_cases hsession with ⟨msg, output, heq, hmsg, -, -⟩ | ⟨msg, output, heq, -, hending, -⟩ |
        ⟨hnone, -⟩ | ⟨result, heq, -⟩
      · cases heq
        exact runtimeMessage_on hmsg
      · rw [hphase, hending] at hon
        cases hon
      · exact absurd rfl (hnone _)
      · cases heq
  · have hnone : outputOf id (sentTo .output (emitted.toList.map .ofEvent)) = [] := by
      rw [houtput]
      cases event with
      | message msg =>
        cases msg with
        | some msg => exact absurd ⟨msg, rfl⟩ hmessage
        | none => rfl
      | _ => rfl
    have hsame : left = s.inbox id := by
      cases event with
      | message msg =>
        cases msg with
        | some msg => exact absurd ⟨msg, rfl⟩ hmessage
        | none =>
          simp only [takeMessage, Option.ite_none_right_eq_some, Option.some.injEq] at hleft
          rw [hleft.1, hleft.2]
      | _ => exact (Option.some.inj hleft).symm
    refine ⟨taken, hinv.quiet hover ?_ hnone⟩
    rw [arrivedIn_ofEvent, List.append_nil, hinbox, hsame]

theorem MessagesTaken.step {id : String} {taken : List ChannelMsg} (hinv : MessagesTaken s0 id h s taken)
    (hstep : eventStep B toJson s happening = some (s', o)) : ∃ taken', MessagesTaken s0 id (h ++ o) s' taken' := by
  cases happening with
  | arrive id' msg =>
    cases hstep
    refine ⟨taken, hinv.quiet (fun hover => hover) ?_ rfl⟩
    by_cases hid : id' = id
    · subst hid
      simp [arrivedIn, EventObs.message?]
    · simp [arrivedIn, EventObs.message?, hid, Function.update_of_ne (Ne.symm hid)]
  | session id' event =>
    obtain ⟨phase, emitted, left, hsession, hleft, hphase, hinbox, -, rfl⟩ := eventStep_session hstep
    by_cases hid : id' = id
    · subst hid
      exact hinv.session hsession hleft (by rw [hphase, Function.update_self]) (by rw [hinbox, Function.update_self])
    · refine ⟨taken, hinv.quiet (by simp [hphase, Function.update_of_ne (Ne.symm hid)]) ?_ ?_⟩
      · rw [arrivedIn_ofEvent, List.append_nil, hinbox, Function.update_of_ne (Ne.symm hid)]
      · rw [outputOf_sessionStep hsession]
        split
        next => rw [if_neg hid]
        next => rfl
  | poll k' =>
    rw [eventStep] at hstep
    split at hstep
    · cases hstep
      exact ⟨taken, hinv.quiet (fun hover => hover) (List.append_nil _).symm rfl⟩
    · cases hstep
  | closeSink k' =>
    cases hstep
    exact ⟨taken, hinv.quiet (fun hover => hover) (List.append_nil _).symm rfl⟩

theorem final_of_eventStep (hstep : eventStep B toJson s happening = some (s', o)) {id : String}
    (hended : s'.phase id = .ended) :
    s.phase id = .ended ∨ ∃ result, finalEvent id result ∈ sentTo .status o := by
  cases happening with
  | arrive id' msg =>
    cases hstep
    exact Or.inl hended
  | session id' event =>
    obtain ⟨phase, emitted, left, hsession, -, hphase, -, -, rfl⟩ := eventStep_session hstep
    rw [hphase] at hended
    by_cases hid : id = id'
    · subst hid
      rw [Function.update_self] at hended
      subst hended
      rcases sessionStep_cases hsession with ⟨-, -, -, -, hrunning, -⟩ | ⟨-, -, -, -, hending, -⟩ |
        ⟨-, hnot, -⟩ | ⟨result, -, -, rfl⟩
      · cases hrunning
      · cases hending
      · exact absurd rfl hnot
      · refine Or.inr ⟨result, ?_⟩
        rw [Option.toList_some, List.map_singleton, sentTo_ofEvent_self]
        exact List.mem_cons_self
    · rw [Function.update_of_ne hid] at hended
      exact Or.inl hended
  | poll k' =>
    rw [eventStep] at hstep
    split at hstep
    · cases hstep
      exact Or.inl hended
    · cases hstep
  | closeSink k' =>
    cases hstep
    exact Or.inl hended

/-- On a run, what a session has output is what it took, and a session that has ended has sent its final status. -/
theorem sessions_run {G : EventState S R → Happening → Prop} (hreach : Reaches (eventStep B toJson) G s0 h s)
    (id : String) : OutputTaken id h (s0.inbox id) (s.inbox id) ∧
      (s.phase id = .ended → s0.phase id = .ended ∨ ∃ result, finalEvent id result ∈ sentTo .status h) := by
  have hinv : (∃ taken, MessagesTaken s0 id h s taken) ∧ (s.phase id = .ended →
      s0.phase id = .ended ∨ ∃ result, finalEvent id result ∈ sentTo .status h) := by
    refine hreach.invariant (I := fun h s => (∃ taken, MessagesTaken s0 id h s taken) ∧ (s.phase id = .ended →
        s0.phase id = .ended ∨ ∃ result, finalEvent id result ∈ sentTo .status h))
      ⟨⟨[], ⟨by simp [arrivedIn], rfl, by simp, by simp⟩⟩, Or.inl⟩ ?_
    intro h s happening s' o ⟨⟨taken, htaken⟩, hfinal⟩ _ hstep
    refine ⟨htaken.step hstep, fun hended => ?_⟩
    rw [sentTo_append]
    rcases final_of_eventStep hstep hended with hbefore | ⟨result, hresult⟩
    · rcases hfinal hbefore with hstart | ⟨result, hresult⟩
      · exact Or.inl hstart
      · exact Or.inr ⟨result, List.mem_append_left _ hresult⟩
    · exact Or.inr ⟨result, List.mem_append_right _ hresult⟩
  obtain ⟨⟨taken, htaken⟩, hfinal⟩ := hinv
  exact ⟨⟨taken, htaken.split, htaken.output, htaken.on⟩, hfinal⟩

theorem ForwardInv.run {G : EventState S R → Happening → Prop} (hlaw : (B k).Lawful k.capacity (Holds k) (pos k))
    (hjson : ∀ e, ∃ json, toJson k e = some json) (hsub : Subscribed B Holds k s0)
    (hreach : Reaches (eventStep B toJson) G s0 h s)
    (hforwarding : (s.streams k).forwarding = true) :
    ∃ log taken outstanding, ForwardInv toJson Holds pos k log h s taken outstanding ∧
      ((∀ s happening, G s happening → KeepsUp Holds pos k s happening) → ∀ event ∈ taken, event.2 = true) := by
  obtain ⟨log, hstart⟩ := ForwardInv.start toJson hlaw hsub
  refine hreach.invariant (I := fun h s => (s.streams k).forwarding = true →
    ∃ log taken outstanding, ForwardInv toJson Holds pos k log h s taken outstanding ∧
      ((∀ s happening, G s happening → KeepsUp Holds pos k s happening) →
        ∀ event ∈ taken, event.2 = true)) ?_ ?_ hforwarding
  · exact fun _ => ⟨log, [], [], hstart, fun _ event hevent => absurd hevent List.not_mem_nil⟩
  · intro h s happening s' o hI hguard hstep hforwarding'
    obtain ⟨log, taken, outstanding, hinv, hkept⟩ := hI (forwarding_of_step hstep hforwarding')
    obtain ⟨taken', outstanding', hinv', hlose⟩ := hinv.step hlaw hjson hstep hforwarding'
    refine ⟨log, taken', outstanding', hinv', fun hkeepsUp event hevent => ?_⟩
    rcases hlose with hsame | ⟨rfl, hbehind⟩
    · rcases hsame event hevent with hold | htrue
      · exact hkept hkeepsUp event hold
      · exact htrue
    · have := hkeepsUp s _ hguard rfl _ _ hinv.place
      omega

theorem output_run {id : String} {capacity : Nat}
    {HoldsOutput : S .output → List TerminalOutputEvent → Prop} {posOutput : R .output → Nat}
    (hlaw : (B .output).Lawful capacity HoldsOutput posOutput) (datas : List (List UInt8))
    {front outstanding : List TerminalOutputEvent}
    {rx : R .output} {sink : List String} {accepts forwarding : Bool} :
    ∀ {h s channel}, Reaches (eventStep B toJson) (fun _ _ => True) s0 h s →
      s.phase id = .running → s.inbox id = [] → s.streams .output = ⟨channel, rx, sink, accepts, forwarding⟩ →
      Broadcast.At HoldsOutput posOutput channel rx front outstanding →
      ∃ h' s' channel', Reaches (eventStep B toJson) (fun _ _ => True) s0 (h ++ h') s' ∧
        s'.streams .output = ⟨channel', rx, sink, accepts, forwarding⟩ ∧
        sentTo .output h' = datas.map (⟨id, ·⟩) ∧
        Broadcast.At HoldsOutput posOutput channel' rx front
          (outstanding ++ datas.map (⟨id, ·⟩)) := by
  induction datas generalizing outstanding with
  | nil =>
    intro h s channel hreach hphase hinbox hstream hat
    exact ⟨[], s, channel, by rwa [List.append_nil], hstream, rfl, by simpa using hat⟩
  | cons data rest ih =>
    intro h s channel hreach hphase hinbox hstream hat
    let s1 : EventState S R := { s with inbox := Function.update s.inbox id (s.inbox id ++ [.data data]) }
    have harrive : eventStep B toJson s (.arrive id (.data data)) = some (s1, [.arrived id (.data data)]) := rfl
    have htake : takeMessage (s1.inbox id) (.message (some (.data data))) = some [] := by
      simp [s1, takeMessage, hinbox]
    have hstep : eventStep B toJson s1 (.session id (.message (some (.data data)))) = some
        (EventState.send B { s1 with
            phase := Function.update s1.phase id .running
            inbox := Function.update s1.inbox id [] } ⟨.output, ⟨id, data⟩⟩,
          [.sent .output ⟨id, data⟩]) := by
      rw [eventStep, htake, show s1.phase id = .running from hphase]
      rfl
    obtain ⟨h', s', channel', hreach', hstream', hsent, hat'⟩ :=
      ih ((hreach.next trivial harrive).next trivial hstep) (Function.update_self ..) (Function.update_self ..) (by
        rw [EventState.send, setStream_self]
        simp only [s1, hstream]) (hlaw.at_send ⟨id, data⟩ hat)
    rw [List.append_assoc, List.append_assoc] at hreach'
    rw [List.append_assoc] at hat'
    refine ⟨_, s', channel', hreach', hstream', ?_, hat'⟩
    rw [sentTo_append, sentTo_append, hsent]
    rfl

theorem poll_run (hreach : Reaches (eventStep B toJson) (fun _ _ => True) s0 h s)
    (hforwarding : (s.streams k).forwarding = true) :
    Reaches (eventStep B toJson) (fun _ _ => True) s0 h
      (s.setStream k ((s.streams k).poll (B k) (toJson k))) := by
  have hstep : eventStep B toJson s (.poll k) =
      some (s.setStream k ((s.streams k).poll (B k) (toJson k)), []) := if_pos hforwarding
  have hnext := hreach.next trivial hstep
  rwa [List.append_nil] at hnext

end

def jsonOption : Option String → String
  | some text => s!"\"{text}\""
  | none => "null"

def jsonText : (k : EventKind) → k.Event → Option String
  | .output, event => some
    s!"\x7b\"session_id\":\"{event.sessionId}\",\"data\":{event.data}\x7d"
  | .status, event => some (s!"\x7b\"session_id\":\"{event.sessionId}\",\"status\":" ++
      (match event.status with
        | .disconnected => "\"Disconnected\""
        | .connecting => "\"Connecting\""
        | .connected => "\"Connected\""
        | .error => "\"Error\"") ++
      s!",\"message\":{jsonOption event.message}\x7d")
  | .error, event => some (s!"\x7b\"session_id\":{jsonOption event.sessionId}," ++
      s!"\"message\":\"{event.message}\"\x7d")

def rings (k : EventKind) : Broadcast k.Event (Broadcast.Ring k.Event) Nat :=
  Broadcast.ring k.Event k.capacity

abbrev RingState := EventState (fun k => Broadcast.Ring k.Event) fun _ => Nat

/-- The session `s` is running, and forwarding tasks have subscribed to new channels. -/
def freshState : RingState where
  phase := Function.update (fun _ => .absent) "s" .running
  inbox _ := []
  streams _ := { channel := ⟨0, []⟩, rx := 0, sink := [], accepts := true, forwarding := true }

theorem freshState_subscribed (k : EventKind) :
    Subscribed rings (fun k => Broadcast.Ring.Holds k.capacity) k freshState where
  holds := ⟨[], rfl, List.drop_nil.symm⟩
  rx := rfl
  sink := rfl
  forwarding := rfl

theorem jsonText_isSome (k : EventKind) (event : k.Event) : ∃ json, jsonText k event = some json := by
  cases k <;> exact ⟨_, rfl⟩

end Portix.Ssh
