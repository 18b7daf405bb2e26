import Mathlib.Data.List.DropRight
import Portix.Lib.Machine

/-!
# The clipboard

`ClipboardSync` of `infrastructure/clipboard.rs` with the branches of the session loop that drive
it (`RdpRuntime::run` and `apply_clipboard_action` of `infrastructure/rdp_client.rs`), between the
clipboard here and the one on the server. The PDUs of the clipboard channel keep their order, each
way; the users copy and paste on either side whenever they like.
-/

namespace Portix.Rdp

open Lib

def cfUnicodeText : UInt32 := 13

def nul : Char := Char.ofNat 0

inductive RemoteClipboardEvent where
  | formatListRequested
  | copied (hasText : Bool)
  | dataRequested (format : UInt32)
  | text (text : String)

inductive ClipboardAction where
  | announce (hasText : Bool)
  | requestText
  | sendText (text : Option String)
  | writeLocal (text : String)

/-- What is remembered between the polls: the text last seen. -/
structure ClipboardSync where
  lastText : Option String

def nonEmpty (text : Option String) : Option String := text.filter (· ≠ "")

def trimNuls (text : String) : String := String.ofList (text.toList.rdropWhile (· == nul))

namespace ClipboardSync

def onLocalText (sync : ClipboardSync) (text : Option String) :
    ClipboardSync × Option ClipboardAction :=
  match nonEmpty text with
  | none => (sync, none)
  | some text =>
    if sync.lastText = some text then (sync, none) else (⟨some text⟩, some (.announce true))

def onRemoteEvent (sync : ClipboardSync) (localText : Option String) :
    RemoteClipboardEvent → ClipboardSync × Option ClipboardAction
  | .formatListRequested =>
    let text := nonEmpty localText
    (⟨text⟩, some (.announce text.isSome))
  | .copied hasText => (sync, if hasText then some .requestText else none)
  | .dataRequested format =>
    (sync, some (.sendText (if format = cfUnicodeText then localText else none)))
  | .text text =>
    let text := trimNuls text
    if sync.lastText = some text then (sync, none) else (⟨some text⟩, some (.writeLocal text))

end ClipboardSync

inductive Content where
  | text (text : String)
  | other

def Content.text? : Content → Option String
  | .text t => some t
  | .other => none

def Content.formats : Content → List UInt32
  | .text _ => [cfUnicodeText]
  | .other => []

/-- The clipboard of the server: what its user copied, or the clipboard here as it was announced
last. -/
inductive RemoteContent where
  | own (content : Content)
  | announced (hasText : Bool)

def RemoteContent.text? : RemoteContent → Option String
  | .own content => content.text?
  | .announced _ => none

inductive ToServer where
  | formatList (hasText : Bool)
  | formatDataRequest
  | formatDataResponse (text : Option String)
  deriving DecidableEq

inductive ToClient where
  | monitorReady
  | formatList (formats : List UInt32)
  | formatDataRequest (format : UInt32)
  | formatDataResponse (text : Option String)

def backendEvent : ToClient → Option RemoteClipboardEvent
  | .monitorReady => some .formatListRequested
  | .formatList formats => some (.copied (formats.any (· = cfUnicodeText)))
  | .formatDataRequest format => some (.dataRequested format)
  | .formatDataResponse text => text.map .text

inductive Side where
  | here
  | there

/-- The clipboards of both sides, and the messages between them. -/
structure Clipboards where
  sync : ClipboardSync
  here : Content
  there : RemoteContent
  toServer : List ToServer
  toClient : List ToClient
  polled : Bool
  newest : Option (Side × Content)

def Clipboards.initial (here there : Content) : Clipboards where
  sync := ⟨none⟩
  here := here
  there := .own there
  toServer := []
  toClient := []
  polled := true
  newest := none

/-- A copy or paste on either side, a poll, and the messages that arrive. -/
inductive ClipboardEvent where
  | copyHere (content : Content)
  | copyThere (content : Content)
  | pasteThere (format : UInt32)
  | ready
  | poll (readable : Bool)
  | deliverToServer
  | deliverToClient (readable writable : Bool)

inductive ClipboardObs where
  | copiedHere
  | copiedThere
  | pollAnnounced
  | wroteLocal (text : String) (done : Bool)
  | unreadList
  deriving DecidableEq

namespace Clipboards

def perform (s : Clipboards) (writable : Bool) : ClipboardAction → Clipboards
  | .writeLocal text => if writable then { s with here := .text text } else s
  | .announce hasText => { s with toServer := s.toServer ++ [.formatList hasText] }
  | .requestText => { s with toServer := s.toServer ++ [.formatDataRequest] }
  | .sendText text => { s with toServer := s.toServer ++ [.formatDataResponse text] }

def localText (s : Clipboards) (readable : Bool) : Option String :=
  if readable then s.here.text? else none

def onPoll (s : Clipboards) (readable : Bool) : Clipboards × List ClipboardObs :=
  let s := { s with polled := s.polled || readable }
  match s.sync.onLocalText (s.localText readable) with
  | (sync, none) => ({ s with sync := sync }, [])
  | (sync, some action) => (({ s with sync := sync }).perform true action, [.pollAnnounced])

def eventObs (readable writable : Bool) :
    RemoteClipboardEvent → Option ClipboardAction → List ClipboardObs
  | _, some (.writeLocal text) => [.wroteLocal text writable]
  | .formatListRequested, _ => if readable then [] else [.unreadList]
  | _, _ => []

def onServerPdu (s : Clipboards) (readable writable : Bool) (pdu : ToClient) :
    Clipboards × List ClipboardObs :=
  match backendEvent pdu with
  | none => (s, [])
  | some event =>
    let (sync, action) := s.sync.onRemoteEvent (s.localText readable) event
    let s := { s with sync := sync }
    (action.elim s (s.perform writable), eventObs readable writable event action)

def onClientPdu (s : Clipboards) : ToServer → Clipboards
  | .formatList hasText => { s with there := .announced hasText }
  | .formatDataRequest => { s with
      toClient := s.toClient ++ [.formatDataResponse (s.there.text?.map fun text => text.push nul)] }
  | .formatDataResponse _ => s

end Clipboards

open Clipboards in
def clipboardStep (s : Clipboards) : ClipboardEvent → Option (Clipboards × List ClipboardObs)
  | .copyHere content =>
    some ({ s with here := content, polled := false, newest := some (.here, content) }, [.copiedHere])
  | .copyThere content => some ({ s with
      there := .own content
      toClient := s.toClient ++ [.formatList content.formats]
      newest := some (.there, content) }, [.copiedThere])
  | .pasteThere format =>
    some ({ s with toClient := s.toClient ++ [.formatDataRequest format] }, [])
  | .ready => some ({ s with toClient := s.toClient ++ [.monitorReady] }, [])
  | .poll readable => some (s.onPoll readable)
  | .deliverToServer =>
    match s.toServer with
    | [] => none
    | pdu :: rest => some (({ s with toServer := rest }).onClientPdu pdu, [])
  | .deliverToClient readable writable =>
    match s.toClient with
    | [] => none
    | pdu :: rest => some (({ s with toClient := rest }).onServerPdu readable writable pdu)

namespace Clipboards

variable (s : Clipboards)

/-- No PDU is in flight, and the poll has seen the last copy here. -/
def Quiescent : Prop := s.toServer = [] ∧ s.toClient = [] ∧ s.polled = true

def pasteHere : Option String := s.here.text?

/-- What a paste on the server yields; what was announced is fetched from here. -/
def pasteThere : Option String :=
  match s.there with
  | .own content => content.text?
  | .announced false => none
  | .announced true =>
    match (s.sync.onRemoteEvent (s.localText true) (.dataRequested cfUnicodeText)).2 with
    | some (.sendText text) => text
    | _ => none

/-- At rest, both sides paste the text that was copied last. -/
def Converged : Prop := s.Quiescent →
  ∀ side text, s.newest = some (side, .text text) →
    s.pasteHere = some text ∧ s.pasteThere = some text

def announcing : RemoteContent :=
  s.toServer.foldl (fun there pdu =>
    match pdu with
    | .formatList hasText => .announced hasText
    | _ => there) s.there

def landing : Content :=
  s.toClient.foldl (fun here pdu =>
    match pdu with
    | .formatDataResponse (some text) => .text (trimNuls text)
    | _ => here) s.here

/-- The newest copy is a text of the user here, or there. -/
def NewestIs (side : Side) (text : String) : Prop :=
  s.newest = some (side, .text text)

/-- The newest text is not lost in this step. A text copied on the server does not end in NUL. A
text copied here is passed over by the poll only if the server was told of a text, is not replaced
by another text, and is there to be announced when the server asks for the format list. A text
copied on the server gives way to a format list only if the list tells of a text and this one is
here or about to be; and it is taken for known only if it is here, and written otherwise. -/
def KeepsNewest : ClipboardEvent → Prop
  | .copyThere (.text text) => trimNuls text = text
  | .poll readable => readable = true → ∀ text, s.NewestIs .here text →
      text = "" ∨ s.sync.lastText = some text → s.announcing = .announced true
  | .deliverToServer => ∀ hasText rest, s.toServer = .formatList hasText :: rest →
      ∀ text, s.NewestIs .there text → hasText = true ∧ s.landing = .text text
  | .deliverToClient readable writable =>
    (∀ rest, s.toClient = .monitorReady :: rest → ∀ text, s.NewestIs .here text →
      readable = true ∧ text ≠ "") ∧
    ∀ sent rest, s.toClient = .formatDataResponse (some sent) :: rest →
      (∀ text, s.NewestIs .here text →
        text = trimNuls sent ∨ s.sync.lastText = some (trimNuls sent) ∨ writable = false) ∧
      ∀ text, s.NewestIs .there text →
        if s.sync.lastText = some (trimNuls sent) then s.here = .text (trimNuls sent)
        else writable = true
  | _ => True

end Clipboards

/-- The user here changed the clipboard, or it could not be written or read. -/
def ClipboardObs.isChange : ClipboardObs → Bool
  | copiedHere => true
  | wroteLocal _ done => !done
  | unreadList => true
  | _ => false

def ClipboardObs.isWrite : ClipboardObs → Bool
  | wroteLocal _ _ => true
  | _ => false

end Portix.Rdp
