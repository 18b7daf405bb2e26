import Portix.Lib.Trace
import Portix.Ssh.KeyboardInteractive
import Portix.Ssh.SessionManager

/-!
# Connecting

`connect_forwarding_to` of `infrastructure/ssh_client.rs`: a server is logged in to by way of its jump hosts,
outermost first. What the SSH library, the agent and the files say comes with the answers to the calls.
-/

namespace Portix.Ssh

open Lib Domain

/-- An `SshProfile` with what it takes to log in, but for its jump host. -/
structure LoginProfile extends SshProfile where
  password : Option String
  privateKeyPath : Option String
  keyPassphrase : Option String

/-- A profile and its jump hosts. -/
inductive JumpChain where
  | direct (profile : LoginProfile)
  | via (profile : LoginProfile) (jumpHost : JumpChain)

namespace JumpChain

def profile : JumpChain → LoginProfile
  | direct profile => profile
  | via profile _ => profile

/-- The chain, the chain of its jump host, and so on. -/
def links : JumpChain → List JumpChain
  | direct profile => [direct profile]
  | via profile jumpHost => via profile jumpHost :: jumpHost.links

end JumpChain

inductive HashAlg where
  | sha256
  | sha512

inductive KeyError where
  | keyIsEncrypted
  | crypto
  | other (message : String)

/-- The handler of a connection: whose key is checked, and what the server may open. -/
structure Client where
  host : String
  port : UInt16
  forwardTo : Option (String × UInt16)
  forwardAgent : Bool

/-- The calls of a login. A session is the number that its `connect` gave it; `connect` ends when the server has
shown its key, and `finishConnect` when that has been accepted. -/
inductive LoginCall (Key PrivateKey : Type) where
  | forgetPendingHostKey (host : String) (port : UInt16)
  | connect (jump : Option Nat) (handler : Client)
  | verifyHostKey (host : String) (port : UInt16) (key : Key)
  | finishConnect (session : Nat)
  | loadSecretKey (path : String) (passphrase : Option String)
  | bestSupportedRsaHash (session : Nat)
  | authenticatePublickey (session : Nat) (username : String) (key : PrivateKey) (hash : Option HashAlg)
  | authenticatePassword (session : Nat) (username password : String)
  | connectAgent
  | requestIdentities
  | authenticatePublickeyWith (session : Nat) (username : String) (identity : Key) (hash : Option HashAlg)
  | takeAnswers (host : String) (port : UInt16)
  | interactiveStart (session : Nat) (username : String)
  | interactiveRespond (session : Nat) (reply : Reply (List String))
  | storePending (host : String) (port : UInt16) (round : PendingPrompts) (answered : List (List String))

/-- A call that runs out of its time fails with the error of its limit; the errors of the agent come as
`sshAgent`. -/
abbrev LoginAnswer {Key PrivateKey : Type} : LoginCall Key PrivateKey → Type
  | .connect _ _ => Except PortixError (Key × Nat)
  | .verifyHostKey _ _ _ => Except PortixError Unit
  | .finishConnect _ => Except PortixError Unit
  | .loadSecretKey _ _ => Except KeyError PrivateKey
  | .bestSupportedRsaHash _ => Except PortixError (Option HashAlg)
  | .authenticatePublickey _ _ _ _ => Except PortixError Bool
  | .authenticatePassword _ _ _ => Except PortixError Bool
  | .connectAgent => Except PortixError Unit
  | .requestIdentities => Except PortixError (List Key)
  | .authenticatePublickeyWith _ _ _ _ => Except PortixError Bool
  | .takeAnswers _ _ => List (List String)
  | .interactiveStart _ _ => Except PortixError AuthResponse
  | .interactiveRespond _ _ => Except PortixError AuthResponse
  | _ => Unit

/-- `expand_user_path` on Unix; `home.join` goes to the root for a path from the root. -/
def expandUserPath (home : Option String) (path : String) : String :=
  match home with
  | none => path
  | some home =>
    if path = "~" ∨ path = "~\\" then home
    else match (stripPrefix "~/" path).orElse fun _ => stripPrefix "~\\" path with
      | some rest => if firstIs (· == '/') rest then rest
        else if home = "" ∨ endsWith home '/' then home ++ rest else home ++ "/" ++ rest
      | none => path

def KeyError.toPortix (shown : String) : KeyError → PortixError
  | keyIsEncrypted => .keyPassphraseRequired shown
  | crypto => .keyPassphraseIncorrect shown
  | other message => .russh message

def LoginProfile.client (profile : LoginProfile) (forwardTo : Option (String × UInt16)) : Client where
  host := profile.host
  port := profile.port
  forwardTo := forwardTo
  forwardAgent := profile.forwardAgent

section

variable {Key PrivateKey : Type}

abbrev LoginM (Key PrivateKey α : Type) : Type := Prog (LoginCall Key PrivateKey) LoginAnswer PortixError α

/-- A step of the primary login; its failure is a result. -/
def orResult {α β : Type} (answer : Except PortixError α) (f : α → LoginM Key PrivateKey (Except PortixError β)) :
    LoginM Key PrivateKey (Except PortixError β) :=
  match answer with
  | .error e => pure (.error e)
  | .ok a => f a

def openSession (handler : Client) (jump : Option Nat) : LoginM Key PrivateKey Nat := do
  let (key, session) ← Prog.call (.connect jump handler) >>= Prog.lift
  Prog.call (.verifyHostKey handler.host handler.port key) >>= Prog.lift
  Prog.call (.finishConnect session) >>= Prog.lift
  pure session

def loadPrivateKey (path : String) (passphrase : Option String) : LoginM Key PrivateKey PrivateKey := do
  let key : Except KeyError PrivateKey ← Prog.call (LoginCall.loadSecretKey path passphrase)
  Prog.lift (key.mapError (KeyError.toPortix path))

def tryIdentities (username : String) (session : Nat) :
    List Key → LoginM Key PrivateKey (Except PortixError Bool)
  | [] => pure (.ok false)
  | identity :: rest => do
    let hash ← Prog.call (.bestSupportedRsaHash session)
    orResult hash fun hash => do
      let result : Except PortixError Bool ←
        Prog.call (LoginCall.authenticatePublickeyWith session username identity hash)
      orResult result fun success =>
        if success then pure (.ok true) else tryIdentities username session rest

def authenticateWithAgent (username : String) (session : Nat) : LoginM Key PrivateKey (Except PortixError Bool) := do
  let identities ← Prog.call .requestIdentities
  orResult identities fun identities =>
    if identities.isEmpty then pure (.error (.sshAgent "no keys loaded (add one with ssh-add)"))
    else tryIdentities username session identities

/-- The first way to log in: by the key of the profile, else by its password, else by the agent. -/
def authenticatePrimary (profile : LoginProfile) (session : Nat) :
    Option PrivateKey → LoginM Key PrivateKey (Except PortixError Bool)
  | some key => do
    let hash ← Prog.call (.bestSupportedRsaHash session)
    orResult hash fun hash => do
      let result ← Prog.call (.authenticatePublickey session profile.username key hash)
      orResult result fun success => pure (.ok success)
  | none => match profile.password with
    | some password => do
      let result ← Prog.call (.authenticatePassword session profile.username password)
      orResult result fun success => pure (.ok success)
    | none => do
      let agent ← Prog.call .connectAgent
      orResult agent fun _ => authenticateWithAgent profile.username session

/-- The rounds of `keyboard_interactive::authenticate`, at most `fuel` of them. -/
def interactiveRounds (profile : LoginProfile) (session : Nat) : Nat → List (List String) → List (List String) →
    AuthResponse → LoginM Key PrivateKey Bool
  | 0, _, _, _ => .more
  | _ + 1, _, _, .success => pure true
  | _ + 1, _, _, .failure => pure false
  | fuel + 1, answers, answered, .infoRequest round =>
    match turn profile.password round.prompts answers answered with
    | .respond reply answers answered => do
      let response ← Prog.call (.interactiveRespond session reply) >>= Prog.lift
      interactiveRounds profile session fuel answers answered response
    | .required => do
      Prog.call (LoginCall.storePending profile.host profile.port round answered)
      Prog.fail (.keyboardInteractiveRequired profile.host profile.port)

def authenticateInteractive (fuel : Nat) (profile : LoginProfile) (session : Nat) : LoginM Key PrivateKey Bool := do
  let answers ← Prog.call (.takeAnswers profile.host profile.port)
  let response ← Prog.call (.interactiveStart session profile.username) >>= Prog.lift
  interactiveRounds profile session fuel answers [] response

def loadKeyPair (home : Option String) (profile : LoginProfile) : LoginM Key PrivateKey (Option PrivateKey) :=
  match profile.privateKeyPath with
  | some path => some <$> loadPrivateKey (expandUserPath home path) profile.keyPassphrase
  | none => pure none

/-- A login that was refused, or was only a part of what the server asks for, or for which the agent has no
keys, may still pass with keyboard-interactive. -/
def afterPrimary (fuel : Nat) (profile : LoginProfile) (session : Nat) :
    Except PortixError Bool → LoginM Key PrivateKey Bool
  | .ok true => pure true
  | .ok false => authenticateInteractive fuel profile session
  | .error (.sshAgent message) => do
    if ← authenticateInteractive fuel profile session then pure true else Prog.fail (.sshAgent message)
  | .error e => Prog.fail e

def authenticateSession (home : Option String) (fuel : Nat) (profile : LoginProfile) (session : Nat) :
    LoginM Key PrivateKey Nat := do
  let keyPair ← loadKeyPair home profile
  let primary ← authenticatePrimary profile session keyPair
  let authenticated ← afterPrimary fuel profile session primary
  if authenticated then pure session else Prog.fail .authenticationFailed

def connectForwardingTo (home : Option String) (fuel : Nat) :
    JumpChain → Option (String × UInt16) → LoginM Key PrivateKey Nat
  | .direct profile, forwardTo => do
    Prog.call (LoginCall.forgetPendingHostKey profile.host profile.port)
    let session ← openSession (profile.client forwardTo) none
    authenticateSession home fuel profile session
  | .via profile jumpHost, forwardTo => do
    Prog.call (LoginCall.forgetPendingHostKey profile.host profile.port)
    let jump ← connectForwardingTo home fuel jumpHost none
    let session ← openSession (profile.client forwardTo) (some jump)
    authenticateSession home fuel profile session

end

end Portix.Ssh
