import Portix.Lib.Text

/-!
# The RDP runtime

`RdpRuntime::run` of `infrastructure/rdp_client.rs`: one task for each RDP session, which connects
and then serves the session in a `select!` loop, with the types of `domain/` that it uses. How the
network, the server and the desktop behave comes with the events.
-/

namespace Portix.Rdp

open Lib

inductive RdpError where
  | invalidProfile (message : String)
  | sessionNotFound (id : String)
  | sessionAlreadyExists (id : String)
  | cancelled
  | connectionTimeout
  | authenticationFailed
  | negotiationFailed (message : String)
  | protocol (message : String)
  | disconnected
  | bridge (message : String)
  | io (message : String)
  | anyhow (message : String)
  deriving DecidableEq

def RdpError.text : RdpError → String
  | invalidProfile message => s!"invalid profile: {message}"
  | sessionNotFound id => s!"session not found: {id}"
  | sessionAlreadyExists id => s!"session already exists: {id}"
  | cancelled => "operation cancelled"
  | connectionTimeout => "connection timed out"
  | authenticationFailed => "authentication failed"
  | negotiationFailed message => s!"RDP negotiation failed: {message}"
  | protocol message => s!"RDP protocol error: {message}"
  | disconnected => "disconnected"
  | bridge message => s!"bridge error: {message}"
  | io message => message
  | anyhow message => message

structure RdpProfile where
  id : String
  host : String
  port : UInt16
  username : String
  enableCredSsp : Bool
  redirectDrives : Bool
  localSharePath : Option String
  localShareName : String
  deriving DecidableEq

def RdpProfile.validate (profile : RdpProfile) : Except RdpError Unit :=
  if trim profile.id = "" then .error (.invalidProfile "profile id is required")
  else if trim profile.host = "" then .error (.invalidProfile "host is required")
  else if profile.port = 0 then .error (.invalidProfile "port must be > 0")
  else if trim profile.username = "" then .error (.invalidProfile "username is required")
  else if profile.redirectDrives ∧ trim (profile.localSharePath.getD "") = "" then
    .error (.invalidProfile "local share path is required when drive redirection is enabled")
  else if profile.redirectDrives ∧ trim profile.localShareName = "" then
    .error (.invalidProfile "local share name is required when drive redirection is enabled")
  else .ok ()

inductive RdpConnectionStatus where
  | disconnected
  | connecting
  | connected
  | error
  deriving DecidableEq

structure RdpStatusEvent where
  sessionId : String
  status : RdpConnectionStatus
  message : Option String

structure RdpErrorEvent where
  sessionId : Option String
  message : String
  code : String

structure RdpSessionInfo where
  id : String
  profileId : String
  status : RdpConnectionStatus

/-- What is sent to a session that runs. -/
inductive RdpCommand where
  | mouseMove (x y : UInt16)
  | mouseButton (x y : UInt16) (button : UInt8) (down : Bool)
  | mouseWheel (x y : UInt16) (delta : Int16) (isVertical : Bool)
  | keyboardInput (hidUsage : UInt16) (down : Bool)
  | disconnect
  deriving DecidableEq

def licenseErrorTexts : List String :=
  ["LicenseExchangeState", "SERVER_NEW_LICENSE", "licensing error", "license verification",
    "ClientNewLicenseRequest", "ClientLicenseInfo", "ClientPlatformChallengeResponse"]

def isLicenseError (message : String) : Bool :=
  licenseErrorTexts.any fun text => decide (text.toList <:+: message.toList)

inductive AfterFailure where
  | retry
  | fail (error : RdpError)
  deriving DecidableEq

/-- The arms for a failed `try_connect`. With NLA there is no fallback to TLS alone. -/
def afterFailure (enableCredSsp : Bool) : RdpError → AfterFailure
  | .negotiationFailed message =>
    if isLicenseError message then .retry
    else if enableCredSsp then
      .fail (.negotiationFailed (s!"NLA failed: {message}. If this server does not support NLA, " ++
        "turn off \"Enable CredSSP (NLA)\" in the profile."))
    else .fail (.negotiationFailed message)
  | error => .fail error

/-- Where the runtime of a session is. -/
inductive RuntimePhase where
  | starting
  | trying (again : Bool)
  | connecting (again : Bool)
  | running
  deriving DecidableEq

inductive RuntimeEvent where
  | check
  | connect (result : Except RdpError Unit)
  | cancelled
  | work (result : Except RdpError Bool)
  | command (result : Except RdpError Unit)

/-- How a turn of the runtime ends. -/
inductive RuntimeTurn where
  | goesOn (phase : RuntimePhase) (queue : List RdpCommand)
      (status : Option (RdpConnectionStatus × String))
  | returns (result : Except RdpError Unit)

def RuntimeTurn.unlessFailed (queue : List RdpCommand) : Except RdpError Unit → RuntimeTurn
  | .ok () => .goesOn .running queue none
  | .error e => .returns (.error e)

/-- One step of `run`, given whether the token is cancelled, the queue, and whether it still has a
sender. -/
def runtimeStep (profile : RdpProfile) (isCancelled : Bool) (queue : List RdpCommand)
    (hasSender : Bool) : RuntimePhase → RuntimeEvent → Option RuntimeTurn
  | .starting, .check =>
    if isCancelled then some (.returns (.error .cancelled))
    else some (.goesOn (.trying false) queue none)
  | .trying again, .check =>
    if isCancelled then some (.returns (.error .cancelled))
    else some (.goesOn (.connecting again) queue none)
  | .connecting _, .connect (.ok ()) =>
    some (.goesOn .running queue (some (.connected, "connected")))
  | .connecting false, .connect (.error e) =>
    match afterFailure profile.enableCredSsp e with
    | .retry => some (.goesOn (.trying true) queue
        (some (.connecting, "License exchange failed, retrying with fallback cache")))
    | .fail e => some (.returns (.error e))
  | .connecting true, .connect (.error e) => some (.returns (.error e))
  | .running, .cancelled => if isCancelled then some (.returns (.error .cancelled)) else none
  | .running, .work (.ok true) => some (.goesOn .running queue none)
  | .running, .work (.ok false) => some (.returns (.ok ()))
  | .running, .work (.error e) => some (.returns (.error e))
  | .running, .command result =>
    match queue with
    | .disconnect :: _ => some (.returns result)
    | _ :: rest => some (.unlessFailed rest result)
    | [] => if hasSender then none else some (.returns result)
  | _, _ => none

/-- The event makes `run` fail where it is: its own check or branch finds the token cancelled, or
what it is about fails. -/
def RuntimeEvent.fails (profile : RdpProfile) (isCancelled : Bool) (phase : RuntimePhase) :
    RuntimeEvent → Bool
  | check => isCancelled
  | connect (.error e) =>
    phase ≠ .connecting false ∨ afterFailure profile.enableCredSsp e ≠ .retry
  | cancelled => true
  | work (.error _) => true
  | command (.error _) => true
  | _ => false

end Portix.Rdp
