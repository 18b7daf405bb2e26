import Mathlib.Tactic.Common

/-!
# Errors

The errors of the SSH and SFTP crate (`domain/errors.rs`). The texts of errors raised inside the
SSH library, the SFTP library and the operating system are kept as they come.
-/

namespace Portix.Domain

/-- The errors that cross the bridge to the app. -/
inductive PortixError where
  | invalidProfile (message : String)
  | invalidRequest (message : String)
  | sessionNotFound (id : String)
  | authenticationFailed
  | sftp (message : String)
  | transferCancelled
  | sshAgent (message : String)
  | keyPassphraseRequired (path : String)
  | keyPassphraseIncorrect (path : String)
  | connectionTimeout
  | authenticationTimeout
  | commandTimeout
  | hostKeyChanged (host : String) (port : UInt16) (line : Nat) (fingerprint : String)
  | hostKeyUnknown (host : String) (port : UInt16) (fingerprint : String)
  | keyboardInteractiveRequired (host : String) (port : UInt16)
  | knownHosts (message : String)
  | russh (message : String)
  | io (message : String)
  | anyhow (message : String)
  deriving DecidableEq

def PortixError.text : PortixError → String
  | invalidProfile message => s!"invalid profile: {message}"
  | invalidRequest message => s!"invalid request: {message}"
  | sessionNotFound id => s!"session not found: {id}"
  | authenticationFailed => "authentication failed"
  | sftp message => s!"SFTP: {message}"
  | transferCancelled => "transfer cancelled"
  | sshAgent message => s!"SSH agent: {message}"
  | keyPassphraseRequired path => s!"SSH key {path} is encrypted; a passphrase is required"
  | keyPassphraseIncorrect path => s!"wrong passphrase for SSH key {path}"
  | connectionTimeout => "connection timed out"
  | authenticationTimeout => "authentication timed out"
  | commandTimeout => "remote command timed out"
  | hostKeyChanged host port line fingerprint =>
    s!"host key for {host}:{port} does not match known_hosts line {line} ({fingerprint}); " ++
      "possible man-in-the-middle attack. If the server key changed legitimately, " ++
      s!"remove the old entry with `ssh-keygen -R {host}`"
  | hostKeyUnknown host port fingerprint =>
    s!"host key for {host}:{port} is not in known_hosts ({fingerprint})"
  | keyboardInteractiveRequired host port =>
    s!"server {host}:{port} asks for keyboard-interactive input (e.g. a one-time code)"
  | knownHosts message => s!"cannot use known_hosts file: {message}"
  | russh message => message
  | io message => message
  | anyhow message => message

end Portix.Domain
