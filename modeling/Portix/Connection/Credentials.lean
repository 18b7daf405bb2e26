import Portix.Profiles.SshRepository

/-!
# Credentials

`ProfileCredentials` of `profile_credentials.dart`: what a profile needs to connect, its secrets and
its chain of jump hosts. The profiles here are those of `connection_manager/ssh_profile.dart`; the
saved ones are those of the repository.
-/

namespace Portix.Connection

open Lib

/-- A profile without those it jumps over. -/
structure Hop where
  id : String
  name : String
  host : String
  port : Int64
  username : String
  password : Option String := none
  hasPassword : Bool := false
  privateKeyPath : Option String := none
  keyPassphrase : Option String := none
  jumpProfileId : Option String := none
  group : Option String := none
  tags : List String := []
  startupCommand : Option String := none
  forwardAgent : Bool := false
  command : Option String := none
  deriving DecidableEq

/-- A profile with the chain of hosts it jumps over. -/
inductive SshProfile where
  | mk (hop : Hop) (jumpHost : Option SshProfile)

namespace SshProfile

def hop : SshProfile → Hop
  | .mk hop _ => hop

def jumpHost : SshProfile → Option SshProfile
  | .mk _ jumpHost => jumpHost

def hops : SshProfile → List Hop
  | .mk hop none => [hop]
  | .mk hop (some jumpHost) => hop :: jumpHost.hops

def entryPoint : SshProfile → SshProfile
  | .mk hop none => .mk hop none
  | .mk _ (some jumpHost) => jumpHost.entryPoint

end SshProfile

def Hop.fromDomain (profile : Profiles.SshProfile) : Hop :=
  let credential := dartTrim profile.credentialLabel
  let usesPassword := decide (profile.authMethod = .password)
  { id := profile.id
    name := profile.name
    host := profile.host
    port := profile.port
    username := profile.username
    password := if usesPassword ∧ credential ≠ "" ∧ credential ≠ "Saved password" then some credential
      else none
    hasPassword := usesPassword
    privateKeyPath := if usesPassword then none else some credential
    jumpProfileId := if profile.jumpProfileId = "" then none else some profile.jumpProfileId
    group := some profile.group
    tags := profile.tags
    startupCommand := if dartTrim profile.startupCommand = "" then none
      else some (dartTrim profile.startupCommand)
    forwardAgent := profile.forwardAgent }

def SshProfile.fromDomain (profile : Profiles.SshProfile) : SshProfile := .mk (.fromDomain profile) none

inductive CredentialsError where
  | state (message : String)
  | passwordUnavailable (profileName profileId : String)
  | store (error : String)

def unused (saved : List Profiles.SshProfile) (chain : List SshProfile) : List Profiles.SshProfile :=
  saved.filter fun profile => profile.id ∉ chain.map fun link => link.hop.id

theorem unused_lt {saved : List Profiles.SshProfile} {chain : List SshProfile}
    {jump : Profiles.SshProfile} (hmem : jump ∈ saved)
    (hnew : ¬(chain.any fun link => link.hop.id == jump.id) = true) :
    (unused saved (.fromDomain jump :: chain)).length < (unused saved chain).length := by
  have hid : jump.id ∉ chain.map fun link => link.hop.id := by
    simpa [List.any_eq_true] using hnew
  have hsub : (unused saved (.fromDomain jump :: chain)).Sublist (unused saved chain) := by
    apply List.monotone_filter_right
    intro profile h
    simp only [decide_eq_true_eq, List.map_cons, List.mem_cons, not_or] at h ⊢
    exact h.2
  have hin : jump ∈ unused saved chain := List.mem_filter.mpr ⟨hmem, decide_eq_true hid⟩
  have hout : jump ∉ unused saved (.fromDomain jump :: chain) := by
    simp [unused, SshProfile.fromDomain, SshProfile.hop, Hop.fromDomain]
  have hne : unused saved (.fromDomain jump :: chain) ≠ unused saved chain := by
    intro heq
    rw [heq] at hout
    exact hout hin
  have hle := hsub.length_le
  have hlen : (unused saved (.fromDomain jump :: chain)).length ≠ (unused saved chain).length :=
    fun hlen => hne (hsub.eq_of_length hlen)
  omega

/-- The loop of `connectionChain`: the chain is extended in front until a profile has no jump host. -/
def extendChain (saved : List Profiles.SshProfile) (name : String) (chain : List SshProfile) :
    Option String → Except CredentialsError (List SshProfile)
  | none => .ok chain
  | some jumpId => match _hfound : saved.find? fun profile => profile.id = jumpId with
    | none => .error (.state s!"Jump host profile for {name} not found.")
    | some jump =>
      if _hloop : (chain.any fun link => link.hop.id == jump.id) = true then
        .error (.state s!"Jump hosts of {name} form a loop.")
      else extendChain saved name (.fromDomain jump :: chain) (Hop.fromDomain jump).jumpProfileId
termination_by (unused saved chain).length
decreasing_by exact unused_lt (List.mem_of_find?_eq_some _hfound) _hloop

/-- `connectionChain`: the profile preceded by its jump hosts, outermost first. -/
def connectionChain (saved : List Profiles.SshProfile) (profile : SshProfile) :
    Except CredentialsError (List SshProfile) :=
  extendChain saved profile.hop.name [profile] profile.hop.jumpProfileId

structure ProfileCredentials where
  readPassword : String → Except String (Option String)
  keyPassphraseProfiles : List String

abbrev Reading (α : Type) := List String × Except CredentialsError α

namespace ProfileCredentials

variable (credentials : ProfileCredentials)

def withSecret (profile : Hop) : Reading Hop :=
  if dartTrim (profile.privateKeyPath.getD "") ≠ "" then
    if profile.id ∉ credentials.keyPassphraseProfiles then ([], .ok profile)
    else match credentials.readPassword profile.id with
      | .ok (some passphrase) => ([profile.id],
        .ok (if passphrase = "" then profile else { profile with keyPassphrase := some passphrase }))
      | .ok none => ([profile.id], .ok profile)
      | .error _ => ([profile.id], .ok profile)
  else if dartTrim (profile.password.getD "") ≠ "" then ([], .ok profile)
  else if profile.hasPassword = false then ([], .ok profile)
  else match credentials.readPassword profile.id with
    | .error error => ([profile.id], .error (.store error))
    | .ok password =>
      if password.getD "" = "" then ([profile.id], .error (.passwordUnavailable profile.name profile.id))
      else ([profile.id], .ok { profile with password := password })

def resolveHops (credentials : ProfileCredentials) (resolved : Option SshProfile) :
    List SshProfile → Reading (Option SshProfile)
  | [] => ([], .ok resolved)
  | link :: rest => match credentials.withSecret link.hop with
    | (reads, .error error) => (reads, .error error)
    | (reads, .ok hop) =>
      let (reads', result) := resolveHops credentials (some (.mk hop (resolved.or link.jumpHost))) rest
      (reads ++ reads', result)

/-- `resolve`: a profile with its secrets and its chain of jump hosts filled in. -/
def resolve (saved : List Profiles.SshProfile)
    (profile : SshProfile) : Reading SshProfile :=
  match connectionChain saved profile with
  | .error error => ([], .error error)
  | .ok chain =>
    let (reads, result) := credentials.resolveHops none chain
    (reads, result.map fun resolved => resolved.getD profile)

end ProfileCredentials

end Portix.Connection
