import Portix.Lib.Loop

/-!
# Finishing a connection

`connect_finalize_with_license_bypass` of `infrastructure/rdp_client.rs`, over any connector of
ironrdp, and the loop it replaces: ironrdp's own `connect_finalize` without CredSSP. Both step the
connector, on a PDU of the server where it asks for one, until its state is `Connected`.
-/

namespace Portix.Rdp

open Lib

inductive ConnectorError where
  | readFrameByHint (source : String)
  | writeAll (source : String)
  | encode (source : String)
  | step (source : String)

/-- `ClientConnectorState`, whose default is `Consumed`. The states the loops do not tell apart are
`other`; a state carries an `O`, and the connection's result once there is one. -/
inductive ClientConnectorState (O R : Type) where
  | consumed
  | licensingExchange (exchange : O)
  | connected (result : R)
  | other (state : O)

structure ClientConnector (O R X : Type) where
  state : ClientConnectorState O R
  rest : X

structure SendDataIndication where
  initiatorId : UInt16
  channelId : UInt16
  userData : List UInt8

/-- What the loops use of ironrdp. A step gives the connector it leaves and the response to send. -/
structure Ironrdp (O R X Hint : Type) where
  nextPduHint : ClientConnector O R X → Option Hint
  step : ClientConnector O R X → List UInt8 →
    Except ConnectorError (ClientConnector O R X × List UInt8)
  stepNoInput : ClientConnector O R X →
    Except ConnectorError (ClientConnector O R X × List UInt8)
  decodeSendDataIndication : List UInt8 → Option SendDataIndication
  decodesAsLicense : List UInt8 → Bool
  validClient : Except ConnectorError (List UInt8)
  encodeSendDataIndication : SendDataIndication → Except ConnectorError (List UInt8)

/-- The connection: what the n-th read finds, if anything ever comes, and how the n-th write goes. -/
structure Framed (Hint : Type) where
  read : Nat → Hint → Option (Except String (List UInt8))
  write : Nat → Except String Unit

structure LoopState (O R X : Type) where
  connector : ClientConnector O R X
  reads : Nat
  sent : List (List UInt8)

section

variable {O R X Hint : Type}

def LoopState.take (s : LoopState O R X) : LoopState O R X :=
  { s with connector := { s.connector with state := .consumed } }

def writeResponse (framed : Framed Hint) (s : LoopState O R X) :
    Except ConnectorError (ClientConnector O R X × List UInt8) →
      Turn (LoopState O R X) (Except ConnectorError R)
  | .error e => .done (.error e)
  | .ok (connector, response) =>
    if response = [] then .next { s with connector := connector }
    else
      match framed.write s.sent.length with
      | .error e => .done (.error (.writeAll e))
      | .ok () => .next { s with connector := connector, sent := s.sent ++ [response] }

namespace Ironrdp

variable (M : Ironrdp O R X Hint)

/-- What becomes of a PDU read in the licensing exchange: one that does not decode is replaced. -/
def repairLicense (pdu : List UInt8) : Except ConnectorError (List UInt8) :=
  match M.decodeSendDataIndication pdu with
  | some sdi =>
    if M.decodesAsLicense sdi.userData then .ok pdu
    else
      match M.validClient with
      | .error e => .error e
      | .ok license => M.encodeSendDataIndication
        { initiatorId := sdi.initiatorId, channelId := sdi.channelId, userData := license }
  | none => .ok pdu

def bypassInput (state : ClientConnectorState O R) (pdu : List UInt8) :
    Except ConnectorError (List UInt8) :=
  match state with
  | .licensingExchange _ => M.repairLicense pdu
  | _ => .ok pdu

def sequenceStep (input : ClientConnectorState O R → List UInt8 → Except ConnectorError (List UInt8))
    (framed : Framed Hint) (s : LoopState O R X) :
    Turn (LoopState O R X) (Except ConnectorError R) :=
  match M.nextPduHint s.connector with
  | some hint =>
    match framed.read s.reads hint with
    | none => .waits
    | some (.error e) => .done (.error (.readFrameByHint e))
    | some (.ok pdu) =>
      match input s.connector.state pdu with
      | .error e => .done (.error e)
      | .ok input =>
        writeResponse framed { s with reads := s.reads + 1 } (M.step s.connector input)
  | none => writeResponse framed s (M.stepNoInput s.connector)

variable (framed : Framed Hint)

def bypassTurn (s : LoopState O R X) :
    Turn (LoopState O R X) (Except ConnectorError R) :=
  (M.sequenceStep M.bypassInput framed s).andThen fun s =>
    match s.connector.state with
    | .connected result => .done (.ok result)
    | _ => .next s.take

/-- One turn of the loop of ironrdp's `connect_finalize`, without CredSSP. -/
def finalizeTurn (s : LoopState O R X) :
    Turn (LoopState O R X) (Except ConnectorError R) :=
  (M.sequenceStep (fun _ pdu => .ok pdu) framed s).andThen fun s =>
    match s.connector.state with
    | .connected result => .done (.ok result)
    | _ => .next s

/-- A connector in the `Consumed` state fails when it is stepped. -/
structure ConsumedFails : Prop where
  step : ∀ (rest : X) input, ∃ e, M.step ⟨.consumed, rest⟩ input = .error e
  stepNoInput : ∀ rest : X, ∃ e, M.stepNoInput ⟨.consumed, rest⟩ = .error e

/-- A PDU of the licensing exchange decodes. -/
def Decodes (pdu : List UInt8) : Prop :=
  ∃ sdi, M.decodeSendDataIndication pdu = some sdi ∧ M.decodesAsLicense sdi.userData = true

/-- A PDU of the licensing exchange that does not decode, with the ids it was sent on. -/
def Garbled (state : ClientConnectorState O R) (pdu : List UInt8) (sdi : SendDataIndication) : Prop :=
  (∃ exchange, state = .licensingExchange exchange) ∧ M.decodeSendDataIndication pdu = some sdi ∧
    M.decodesAsLicense sdi.userData = false

/-- The message that the license of the client is valid, sent on two ids. -/
def ValidClient (initiatorId channelId : UInt16) (pdu : List UInt8) : Prop :=
  ∃ license, M.validClient = .ok license ∧
    M.encodeSendDataIndication { initiatorId := initiatorId, channelId := channelId, userData := license } = .ok pdu

/-- `read'` is what is read, but with a valid-client message on the same ids for a PDU that does not decode. -/
def Repairs (state : ClientConnectorState O R) (read read' : Option (Except String (List UInt8))) :
    Prop :=
  match read with
  | some (.ok pdu) => ∃ pdu', read' = some (.ok pdu') ∧
      ((∃ sdi, M.Garbled state pdu sdi ∧ M.ValidClient sdi.initiatorId sdi.channelId pdu') ∨
        ((∀ sdi, ¬M.Garbled state pdu sdi) ∧ pdu' = pdu))
  | other => read' = other

/-- The server of `repaired` sends what the one of `framed` does, but for a valid-client message on
the same channel in place of each PDU of the licensing exchange that does not decode. -/
structure Repaired (framed repaired : Framed Hint) (s : LoopState O R X) : Prop where
  read : ∀ n s' hint, afterTurns (M.finalizeTurn repaired) n s = .next s' →
    M.nextPduHint s'.connector = some hint →
    M.Repairs s'.connector.state (framed.read s'.reads hint) (repaired.read s'.reads hint)
  write : repaired.write = framed.write

/-- The loop needs no more than one step, or that step leaves the `Consumed` state itself. -/
def OneStepSettles (s : LoopState O R X) : Prop :=
  match M.finalizeTurn framed s with
  | .next s' => s'.connector.state = .consumed
  | _ => True

end Ironrdp

end

end Portix.Rdp
