import Portix.Domain.Errors
import Portix.Lib.Machine

/-!
# Host keys

The checks of `infrastructure/host_keys.rs` against one known_hosts file, and the map of refused
keys the user may trust. A check reads the file first and remembers the refused key later; other
calls may come in between.
-/

namespace Portix.Ssh

open Lib Domain

structure KnownHost (Key : Type) where
  host : String
  port : UInt16
  key : Key

structure KeyFormat (Key : Type) where
  algorithm : Key → String
  fingerprint : Key → String

/-- A key that waits to be trusted. -/
structure PendingHostKey (Key : Type) where
  algorithm : String
  fingerprint : String
  changedLine : Option Nat
  key : Key

abbrev PendingKeys (Key : Type) := String × UInt16 → Option (PendingHostKey Key)

section

variable {Key : Type} [DecidableEq Key] (file : List (KnownHost Key))

/-- `known_host_keys_path`: the lines, from 1 on, and keys recorded for a host and port. -/
def knownHostKeys (host : String) (port : UInt16) :
    List (Nat × Key) :=
  file.zipIdx.filterMap fun e =>
    if e.1.host = host ∧ e.1.port = port then some (e.2 + 1, e.1.key) else none

def learnKnownHost (host : String) (port : UInt16) (key : Key) :
    List (KnownHost Key) :=
  file ++ [⟨host, port, key⟩]

/-- What a check makes of the recorded keys: it accepts, or refuses with the line of a recorded
key. -/
inductive Verdict where
  | accept
  | refuse (changedLine : Option Nat)

/-- The first half of `verify_host_key`, up to the reading of known_hosts. -/
def checkRecorded (recorded : List (Nat × Key)) (key : Key) : Verdict :=
  if recorded.any fun e => e.2 = key then .accept else .refuse (recorded.head?.map Prod.fst)

variable (format : KeyFormat Key) (pending : PendingKeys Key)

def rememberOfferedKey (host : String)
    (port : UInt16) (key : Key) (changedLine : Option Nat) : PendingKeys Key :=
  Function.update pending (host, port)
    (some ⟨format.algorithm key, format.fingerprint key, changedLine, key⟩)

def refusal (host : String) (port : UInt16) (key : Key) :
    Option Nat → PortixError
  | some line => .hostKeyChanged host port line (format.fingerprint key)
  | none => .hostKeyUnknown host port (format.fingerprint key)

def forgetPendingHostKey (host : String) (port : UInt16) :
    PendingKeys Key :=
  Function.update pending (host, port) none

def pendingHostKey (host : String) (port : UInt16) :
    Option (PendingHostKey Key) :=
  pending (host, port)

/-- `trust_pending_host_key`; `failure` is the error of writing known_hosts. -/
def trustPendingHostKey (file : List (KnownHost Key)) (host : String)
    (port : UInt16) (fingerprint : String) (failure : Option String) :
    Except PortixError Unit × PendingKeys Key × List (KnownHost Key) :=
  match pending (host, port) with
  | none => (.error (.knownHosts s!"no pending host key for {host}:{port}"), pending, file)
  | some entry =>
    if entry.changedLine.isSome then
      (.error (.knownHosts (s!"host key for {host}:{port} changed; remove the old entry with " ++
        "`ssh-keygen -R " ++ host ++ "`")), pending, file)
    else if entry.fingerprint ≠ fingerprint then
      (.error (.knownHosts
        s!"fingerprint for {host}:{port} no longer matches the key that was shown"), pending, file)
    else match failure with
      | some e => (.error (.knownHosts e), pending, file)
      | none => (.ok (), Function.update pending (host, port) none,
          learnKnownHost file host port entry.key)

/-- A check that has read known_hosts and not yet remembered the key it refuses. -/
structure Verifying (Key : Type) where
  host : String
  port : UInt16
  key : Key
  changedLine : Option Nat

/-- The file of known hosts, the keys that wait, and the checks under way. -/
structure HostKeyState (Key : Type) where
  file : List (KnownHost Key)
  pending : PendingKeys Key
  verifying : List (Verifying Key)

/-- The steps of the checks, and the calls of the app, in any order. -/
inductive HostKeyEvent (Key : Type) where
  | read (host : String) (port : UInt16) (key : Key) (failure : Option String)
  | remember (i : Nat)
  | forget (host : String) (port : UInt16)
  | peek (host : String) (port : UInt16)
  | trust (host : String) (port : UInt16) (fingerprint : String) (failure : Option String)

inductive HostKeyObs (Key : Type) where
  | accepted (host : String) (port : UInt16) (key : Key)
  | refused (host : String) (port : UInt16) (key : Key) (error : PortixError)
  | unreadable (error : PortixError)
  | shown (entry : Option (PendingHostKey Key))
  | trusted (result : Except PortixError Unit)

def HostKeyState.initial : HostKeyState Key :=
  ⟨file, fun _ => none, []⟩

def hostKeyStep (s : HostKeyState Key) :
    HostKeyEvent Key → Option (HostKeyState Key × List (HostKeyObs Key))
  -- `verify_host_key` reads known_hosts before it takes the lock of the pending keys
  | .read _ _ _ (some e) => some (s, [.unreadable (.knownHosts e)])
  | .read host port key none =>
    match checkRecorded (knownHostKeys s.file host port) key with
    | .accept => some (s, [.accepted host port key])
    | .refuse changedLine =>
      some ({ s with verifying := s.verifying ++ [⟨host, port, key, changedLine⟩] }, [])
  | .remember i =>
    match s.verifying[i]? with
    | none => none
    | some v => some (
        { s with
          pending := rememberOfferedKey format s.pending v.host v.port v.key v.changedLine
          verifying := s.verifying.eraseIdx i },
        [.refused v.host v.port v.key (refusal format v.host v.port v.key v.changedLine)])
  | .forget host port => some ({ s with pending := forgetPendingHostKey s.pending host port }, [])
  | .peek host port => some (s, [.shown (pendingHostKey s.pending host port)])
  | .trust host port fingerprint failure =>
    match trustPendingHostKey s.pending s.file host port fingerprint failure with
    | (r, pending, file) => some ({ s with pending := pending, file := file }, [.trusted r])

/-- Only keys equal to `key` are recorded for a host and port. -/
def OnlyRecorded (host : String) (port : UInt16) (key : Key) : Prop :=
  ∀ e ∈ file, e.host = host → e.port = port → e.key = key

/-- A check that found no key for its host remembers the one it refuses while that is still so. -/
def Fresh (s : HostKeyState Key) : HostKeyEvent Key → Prop
  | .remember i => ∀ v, s.verifying[i]? = some v → v.changedLine = none →
      OnlyRecorded s.file v.host v.port v.key
  | _ => True

end

end Portix.Ssh
