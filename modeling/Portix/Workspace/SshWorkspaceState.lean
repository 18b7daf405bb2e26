import Portix.Lib.Keyed
import Portix.Profiles.SshRepository

/-!
# The workspace of SSH profiles

`ssh_workspace_state.dart` and `ssh_workspace_event.dart`, and what the handlers of the events compute
from a profile.
-/

namespace Portix.Workspace

open Lib Profiles

inductive WorkspaceStatus where
  | initial
  | loading
  | ready
  | failure

inductive WorkspaceView where
  | gallery
  | form
  | remoteFolder
  | sftp
  | rdp
  | kubernetes
  | kibana

/-- What the workspace shows. -/
structure SshWorkspaceState where
  status : WorkspaceStatus := .initial
  activeView : WorkspaceView := .gallery
  profiles : List SshProfile := []
  selectedId : Option String := none
  searchQuery : String := ""
  groupFilter : String := "All profiles"
  tagFilter : String := ""
  editingProfile : Option SshProfile := none
  isBusy : Bool := false
  message : String := ""

namespace SshWorkspaceState

def find (state : SshWorkspaceState) (profileId : String) : Option SshProfile :=
  under SshProfile.id profileId state.profiles

def selectedProfile (state : SshWorkspaceState) : Option SshProfile := state.selectedId.bind state.find

end SshWorkspaceState

/-- The texts of the form. -/
structure ProfileForm where
  name : String
  host : String
  port : String
  username : String
  group : String
  tags : String
  credentialLabel : String
  defaultPath : String
  startupCommand : String
  terminalFontSize : String

/-- A change of the form that is open. -/
inductive FormEdit where
  | form (texts : ProfileForm)
  | authMethod (method : AuthMethod)
  | color (newColor : ProfileColor)
  | jumpProfile (jumpProfileId : String)
  | forwardAgent (forwards : Bool)
  | runsKubernetes (runs : Bool)

namespace FormEdit

def apply : FormEdit → SshProfile → SshProfile
  | .form texts, current => { current with
      name := texts.name
      host := texts.host
      port := (intTryParse texts.port).getD current.port
      username := texts.username
      group := texts.group
      tags := ((splitChar ',' texts.tags).map dartTrim).filter fun tag => tag ≠ ""
      credentialLabel := texts.credentialLabel
      defaultPath := texts.defaultPath
      startupCommand := texts.startupCommand
      terminalFontSize := (intTryParse texts.terminalFontSize).getD current.terminalFontSize }
  | .authMethod method, current => { current with authMethod := method, credentialLabel := "" }
  | .color newColor, current => { current with color := newColor }
  | .jumpProfile jumpProfileId, current => { current with jumpProfileId := jumpProfileId }
  | .forwardAgent forwards, current => { current with forwardAgent := forwards }
  | .runsKubernetes runs, current => { current with runsKubernetes := runs }

end FormEdit

inductive SshWorkspaceEvent where
  | profilesRequested
  | navigationChanged (view : WorkspaceView)
  | groupFilterChanged (group : String)
  | searchChanged (query : String)
  | tagFilterChanged (tag : String)
  | profileSelected (profileId : String)
  | profileSelectionCleared
  | newProfileRequested
  | profileEditRequested (profileId : String)
  | profileDuplicateRequested (profileId : String)
  | profileFormChanged (texts : ProfileForm)
  | authMethodChanged (method : AuthMethod)
  | profileColorChanged (color : ProfileColor)
  | jumpProfileChanged (jumpProfileId : String)
  | forwardAgentChanged (forwardAgent : Bool)
  | runsKubernetesChanged (runsKubernetes : Bool)
  | profileTestRequested
  | profileSaved
  | profilesImported (profiles : List SshProfile)
  | quickProfileSaved (profile : SshProfile)
  | profileOsDetected (profileId osIconAsset : String)
  | profileDeleted (profileId : String)

def newProfileId (now : Nat) : String := "profile-" ++ toString now

def newProfile (now : Nat) (groupFilter : String) : SshProfile where
  id := newProfileId now
  name := ""
  host := ""
  port := 22
  username := ""
  group := if groupFilter = "All profiles" then "Production" else groupFilter
  tags := []
  authMethod := .sshKey
  credentialLabel := ""
  defaultPath := "~"
  status := .draft
  color := .green
  terminalFontSize := 14

def duplicateProfile (now : Nat) (profile : SshProfile) : SshProfile :=
  { profile with id := newProfileId now, name := profile.name ++ " copy", status := .draft }

variable (profile : SshProfile)

def profileValidationMessage : Option String :=
  if dartTrim profile.name = "" then some "Profile name is required."
  else if dartTrim profile.group = "" then some "Profile group is required."
  else if dartTrim profile.host = "" then some "Host / IP is required."
  else if profile.port ≤ 0 ∨ 65535 < profile.port then some "Port must be between 1 and 65535."
  else if dartTrim profile.username = "" then some "Username is required."
  -- An empty key path means ssh-agent.
  else if profile.authMethod = .password ∧ dartTrim profile.credentialLabel = "" then
    some "Password is required."
  else none

def isConnectable : Bool := profile.host ≠ "" && profile.username ≠ ""

def testConnection : Except String SshProfile :=
  if !isConnectable profile || decide ("Add host".toList <:+: profile.host.toList) then
    .error "Host, port, and username must be valid."
  else .error "Use Open SSH Session to test a real Rust backend connection."

def withPassword : Option String → SshProfile
  | some password => if password ≠ "" then { profile with credentialLabel := password } else profile
  | none => profile

def callsSecretStore : Bool :=
  profile.authMethod = .sshKey || profile.typedPassword.isSome

end Portix.Workspace
