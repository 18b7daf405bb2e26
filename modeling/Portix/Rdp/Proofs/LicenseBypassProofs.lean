import Portix.Rdp.LicenseBypass

/-!
# Proofs: finishing a connection

Repairing a PDU and then stepping is stepping on the repaired PDU, so the two loops differ only in
what inspecting the state leaves. That is the `Consumed` state, so they part after the first step
that neither ends the loop nor leaves `Consumed` itself.
-/

namespace Portix.Rdp

open Lib

namespace Ironrdp

variable {O R X Hint : Type} {M : Ironrdp O R X Hint} {framed repaired : Framed Hint}
  {s s' : LoopState O R X}

variable {state : ClientConnectorState O R} {pdu pdu' : List UInt8} {sdi : SendDataIndication}

theorem not_garbled_of_decodes (hdecodes : M.Decodes pdu) : ¬M.Garbled state pdu sdi := by
  rintro ⟨-, hsdi, hlicense⟩
  obtain ⟨other, hother, hgood⟩ := hdecodes
  cases hsdi.symm.trans hother
  exact Bool.false_ne_true (hlicense.symm.trans hgood)

theorem bypassInput_of_garbled (hgarbled : M.Garbled state pdu sdi)
    (hvalid : M.ValidClient sdi.initiatorId sdi.channelId pdu') : M.bypassInput state pdu = .ok pdu' := by
  obtain ⟨⟨exchange, rfl⟩, hsdi, hlicense⟩ := hgarbled
  obtain ⟨license, hvalid, hencode⟩ := hvalid
  simp [bypassInput, repairLicense, hsdi, hlicense, hvalid, hencode]

theorem bypassInput_of_not_garbled (hgood : ∀ sdi, ¬M.Garbled state pdu sdi) : M.bypassInput state pdu = .ok pdu := by
  unfold bypassInput
  split
  next exchange =>
    unfold repairLicense
    split
    next sdi hsdi =>
      have hlicense : M.decodesAsLicense sdi.userData = true :=
        eq_true_of_ne_false fun hfalse => hgood sdi ⟨⟨exchange, rfl⟩, hsdi, hfalse⟩
      rw [if_pos hlicense]
    next => rfl
  next => rfl

theorem repaired_self (hdecodes : ∀ n s' hint pdu exchange,
      afterTurns (M.finalizeTurn framed) n s = .next s' → M.nextPduHint s'.connector = some hint →
      s'.connector.state = .licensingExchange exchange →
      framed.read s'.reads hint = some (.ok pdu) → M.Decodes pdu) :
    M.Repaired framed framed s := by
  refine ⟨fun n s' hint hafter hhint => ?_, rfl⟩
  unfold Repairs
  split
  case h_1 pdu hread =>
    refine ⟨pdu, hread, .inr ⟨fun sdi hgarbled => ?_, rfl⟩⟩
    obtain ⟨exchange, hstate⟩ := hgarbled.1
    exact not_garbled_of_decodes (hdecodes n s' hint pdu exchange hafter hhint hstate hread) hgarbled
  case h_2 => rfl

theorem writeResponse_congr (hwrite : repaired.write = framed.write)
    (result : Except ConnectorError (ClientConnector O R X × List UInt8)) :
    writeResponse framed s result = writeResponse repaired s result := by
  cases result with
  | error e => rfl
  | ok step => simp only [writeResponse, hwrite]

theorem sequenceStep_repaired (hwrite : repaired.write = framed.write)
    (hread : ∀ hint, M.nextPduHint s.connector = some hint →
      M.Repairs s.connector.state (framed.read s.reads hint) (repaired.read s.reads hint)) :
    M.sequenceStep M.bypassInput framed s = M.sequenceStep (fun _ pdu => .ok pdu) repaired s := by
  rw [sequenceStep, sequenceStep]
  cases hhint : M.nextPduHint s.connector with
  | none => exact writeResponse_congr hwrite _
  | some hint =>
    have hrepairs := hread hint hhint
    cases hfound : framed.read s.reads hint with
    | none =>
      rw [hfound] at hrepairs
      simp only [hfound, show repaired.read s.reads hint = none from hrepairs]
    | some found =>
      cases found with
      | error e =>
        rw [hfound] at hrepairs
        simp only [hfound, show repaired.read s.reads hint = some (.error e) from hrepairs]
      | ok pdu =>
        rw [hfound] at hrepairs
        obtain ⟨pdu', hread', hpdu⟩ := hrepairs
        have hinput : M.bypassInput s.connector.state pdu = .ok pdu' := by
          rcases hpdu with ⟨sdi, hgarbled, hvalid⟩ | ⟨hgood, rfl⟩
          · exact bypassInput_of_garbled hgarbled hvalid
          · exact bypassInput_of_not_garbled hgood
        simp only [hfound, hinput, hread']
        exact writeResponse_congr hwrite _

theorem sequenceStep_consumed (hconsumed : M.ConsumedFails) (hstate : s.connector.state = .consumed) :
    ∀ s', M.sequenceStep (fun _ pdu => .ok pdu) framed s ≠ .next s' := by
  obtain ⟨⟨state, rest⟩, reads, sent⟩ := s
  obtain rfl : state = .consumed := hstate
  intro s' hnext
  rw [sequenceStep] at hnext
  cases hhint : M.nextPduHint ⟨.consumed, rest⟩ with
  | none =>
    obtain ⟨e, hfails⟩ := hconsumed.stepNoInput rest
    simp [hhint, hfails, writeResponse] at hnext
  | some hint =>
    cases hfound : framed.read reads hint with
    | none => simp [hhint, hfound] at hnext
    | some found =>
      cases found with
      | error e => simp [hhint, hfound] at hnext
      | ok pdu =>
        obtain ⟨e, hfails⟩ := hconsumed.step rest pdu
        simp [hhint, hfound, hfails, writeResponse] at hnext

theorem finalizeTurn_next (hturn : M.finalizeTurn framed s = .next s') :
    M.sequenceStep (fun _ pdu => .ok pdu) framed s = .next s' := by
  rw [finalizeTurn] at hturn
  cases hstep : M.sequenceStep (fun _ pdu => .ok pdu) framed s with
  | next s1 =>
    rw [hstep, Turn.andThen] at hturn
    split at hturn
    · cases hturn
    · exact hturn
  | done r => simp [hstep, Turn.andThen] at hturn
  | waits => simp [hstep, Turn.andThen] at hturn

theorem bypassTurn_eq
    (hstep : M.sequenceStep M.bypassInput framed s = M.sequenceStep (fun _ pdu => .ok pdu) repaired s) :
    M.bypassTurn framed s =
      (M.finalizeTurn repaired s).andThen fun s' => .next s'.take := by
  rw [bypassTurn, finalizeTurn, hstep]
  cases M.sequenceStep (fun _ pdu => .ok pdu) repaired s with
  | next s1 =>
    rw [Turn.andThen, Turn.andThen]
    cases s1.connector.state <;> rfl
  | done r => rfl
  | waits => rfl

theorem take_eq_self_iff : s.take = s ↔ s.connector.state = .consumed := by
  obtain ⟨⟨state, rest⟩, reads, sent⟩ := s
  simp [LoopState.take, eq_comm]

theorem andThen_take_eq {turn : Turn (LoopState O R X) (Except ConnectorError R)}
    (hleft : ∀ s', turn = .next s' → s'.connector.state = .consumed) :
    (turn.andThen fun s' => .next s'.take) = turn := by
  cases turn with
  | next s' => exact congrArg Turn.next (take_eq_self_iff.mpr (hleft s' rfl))
  | done r => rfl
  | waits => rfl

theorem finalizeTurn_consumed (hconsumed : M.ConsumedFails)
    (hstate : s.connector.state = .consumed) : M.finalizeTurn framed s ≠ .next s' := fun hnext =>
  sequenceStep_consumed hconsumed hstate s' (finalizeTurn_next hnext)

theorem OneStepSettles.reached (hconsumed : M.ConsumedFails) (hsettles : M.OneStepSettles framed s)
    (n : Nat) : ∀ {s'}, afterTurns (M.finalizeTurn framed) n s = .next s' →
      s' = s ∨ s'.connector.state = .consumed := by
  induction n with
  | zero => intro s' hafter; exact Or.inl (Turn.next.inj hafter).symm
  | succ n ih =>
    intro s' hafter
    rw [afterTurns_succ] at hafter
    cases hbefore : afterTurns (M.finalizeTurn framed) n s with
    | next s1 =>
      rw [hbefore, Turn.andThen] at hafter
      rcases ih hbefore with rfl | hstate
      · rw [OneStepSettles, hafter] at hsettles
        exact Or.inr hsettles
      · exact absurd hafter (finalizeTurn_consumed hconsumed hstate)
    | done r => simp [hbefore, Turn.andThen] at hafter
    | waits => simp [hbefore, Turn.andThen] at hafter

/-- The bypass goes through the same states as the plain loop on the repaired PDUs, and has its
result, exactly when one step settles the connection. -/
theorem bypass_agrees_iff (hconsumed : M.ConsumedFails) (hrepaired : M.Repaired framed repaired s) :
    (∀ n, afterTurns (M.bypassTurn framed) n s = afterTurns (M.finalizeTurn repaired) n s) ↔
      M.OneStepSettles repaired s := by
  have hturn : ∀ n s', afterTurns (M.finalizeTurn repaired) n s = .next s' →
      M.bypassTurn framed s' = (M.finalizeTurn repaired s').andThen fun s' => .next s'.take :=
    fun n s' hafter =>
      bypassTurn_eq (sequenceStep_repaired hrepaired.write fun hint => hrepaired.read n s' hint hafter)
  constructor
  · intro hagree
    have hone := hagree 1
    rw [afterTurns_one, afterTurns_one, hturn 0 s rfl] at hone
    rw [OneStepSettles]
    split
    case h_1 s' hnext =>
      rw [hnext, Turn.andThen, Turn.next.injEq] at hone
      exact take_eq_self_iff.mp hone
    case h_2 => trivial
  · intro hsettles n
    refine (afterTurns_congr (fun n s' hafter => ?_) n).symm
    rw [hturn n s' hafter, andThen_take_eq]
    intro s1 hnext
    rcases hsettles.reached hconsumed n hafter with rfl | hstate
    · rw [OneStepSettles, hnext] at hsettles
      exact hsettles
    · exact absurd hnext (finalizeTurn_consumed hconsumed hstate)

/-- It sends a request, and is connected once it has read a license PDU, of which the first two
bytes are the ids and the third is 255. -/
def twoSteps : Ironrdp Unit Nat Unit Unit where
  nextPduHint connector :=
    match connector.state with
    | .licensingExchange _ => some ()
    | _ => none
  step connector input :=
    match connector.state with
    | .licensingExchange _ =>
      if input.drop 2 = [255] then .ok (⟨.connected 7, ()⟩, []) else .error (.step "license")
    | _ => .error (.step "consumed")
  stepNoInput connector :=
    match connector.state with
    | .other _ => .ok (⟨.licensingExchange (), ()⟩, [1])
    | _ => .error (.step "consumed")
  decodeSendDataIndication pdu :=
    match pdu with
    | initiator :: channel :: data => some ⟨initiator.toUInt16, channel.toUInt16, data⟩
    | _ => none
  decodesAsLicense data := data = [255]
  validClient := .ok [255]
  encodeSendDataIndication sdi :=
    .ok (sdi.initiatorId.toUInt8 :: sdi.channelId.toUInt8 :: sdi.userData)

def sending (pdu : List UInt8) : Framed Unit where
  read _ _ := some (.ok pdu)
  write _ := .ok ()

def startingIn (state : ClientConnectorState Unit Nat) : LoopState Unit Nat Unit := ⟨⟨state, ()⟩, 0, []⟩

theorem twoSteps_consumedFails : twoSteps.ConsumedFails :=
  ⟨fun _ _ => ⟨_, rfl⟩, fun _ => ⟨_, rfl⟩⟩

theorem twoSteps_repaired : twoSteps.Repaired (sending [3, 4, 0]) (sending [3, 4, 255])
      (startingIn (.licensingExchange ())) := by
  refine ⟨fun n s' hint hafter _ => ?_, rfl⟩
  cases n with
  | zero =>
    cases hafter
    exact ⟨[3, 4, 255], rfl, .inl ⟨⟨3, 4, [0]⟩, ⟨⟨(), rfl⟩, rfl, rfl⟩, [255], rfl, rfl⟩⟩
  | succ n => cases hafter

/-- In the licensing exchange, a PDU that does not decode is as good as the message for a valid
client. -/
theorem bypass_agrees_iff_repaired :
    afterTurns (twoSteps.bypassTurn (sending [3, 4, 0])) 1 (startingIn (.licensingExchange ())) =
      afterTurns (twoSteps.finalizeTurn (sending [3, 4, 255])) 1
        (startingIn (.licensingExchange ())) ∧
    afterTurns (twoSteps.finalizeTurn (sending [3, 4, 255])) 1
      (startingIn (.licensingExchange ())) = .done (.ok 7) :=
  ⟨(bypass_agrees_iff twoSteps_consumedFails twoSteps_repaired).mpr trivial 1, rfl⟩

/-- A connector that needs one step more never gets it: its PDUs all decode, the plain loop
connects, and the bypass fails on the state that its own inspection left. -/
theorem bypass_consumes_state :
    twoSteps.ConsumedFails ∧
      twoSteps.Repaired (sending [3, 4, 255]) (sending [3, 4, 255]) (startingIn (.other ())) ∧
      afterTurns (twoSteps.finalizeTurn (sending [3, 4, 255])) 2 (startingIn (.other ())) =
        .done (.ok 7) ∧
      afterTurns (twoSteps.bypassTurn (sending [3, 4, 255])) 2 (startingIn (.other ())) =
        .done (.error (.step "consumed")) := by
  refine ⟨twoSteps_consumedFails, repaired_self fun n s' hint pdu exchange _ _ _ hread => ?_,
    rfl, rfl⟩
  cases Option.some.inj hread
  exact ⟨⟨3, 4, [255]⟩, rfl, rfl⟩

end Ironrdp

end Portix.Rdp
