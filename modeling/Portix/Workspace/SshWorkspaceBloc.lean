import Portix.Workspace.SshWorkspaceState

/-!
# The handlers of the workspace

`SshWorkspaceBloc` of `ssh_workspace_bloc.dart`. A handler runs without a break up to its next `await`;
between those points the handlers of all events, also of the same one, run in any order. The repository
keeps its own list, and changes it while a handler waits for it.
-/

namespace Portix.Workspace

open Lib Profiles

/-- How far a save has got. -/
inductive SaveCall where
  | waiting (profile : SshProfile)
  | changed (saved : SshProfile)
  | returned (result : Except String SshProfile)
  deriving DecidableEq

/-- The call can throw: in the secret store, or while the file is written. -/
def SaveCall.throws : SaveCall → Bool
  | .waiting profile => !profile.refused && callsSecretStore profile
  | .changed _ => true
  | .returned _ => false

inductive DeleteCall where
  | waiting
  | changed
  | returned
  deriving DecidableEq

/-- What goes on when a save returns. -/
inductive SaveTask where
  | form
  | quick
  | detection
  | imported (rest savedProfiles : List SshProfile)
  deriving DecidableEq

/-- How far the handler of an event has got. -/
inductive Handler where
  | requesting
  | requested (result : Except String (List SshProfile))
  | opening (profile : SshProfile)
  | testing (result : Except String SshProfile)
  | saving (task : SaveTask) (call : SaveCall)
  | deleting (profileId : String) (call : DeleteCall)
  | finished
  deriving DecidableEq

/-- The bloc with the repository behind it and its handlers. -/
structure SshWorkspaceBloc where
  repository : List SshProfile
  state : SshWorkspaceState
  handlers : List Handler

/-- An event that is added, or a step of a handler. -/
inductive Event where
  | add (now : Nat) (event : SshWorkspaceEvent)
  | load (handler : Nat)
  | readPassword (handler : Nat) (password : Option String)
  | change (handler : Nat)
  | persist (handler : Nat)
  | throw (handler : Nat)
  | resume (handler : Nat)

/-- What is seen of the profiles: the list was loaded; the form was filled with a profile, which was
then edited and saved; the system of a host was detected. -/
inductive Obs where
  | loaded
  | opened (profile : SshProfile)
  | edited (edit : FormEdit)
  | saved (profile : SshProfile)
  | detected (profileId icon : String)

namespace SshWorkspaceBloc

def start (repository : List SshProfile) : SshWorkspaceBloc := ⟨repository, {}, []⟩

variable (bloc : SshWorkspaceBloc)

def emit (state : SshWorkspaceState) : SshWorkspaceBloc :=
  { bloc with state := state }

def wait (handler : Handler) : SshWorkspaceBloc :=
  { bloc with handlers := bloc.handlers ++ [handler] }

variable (i : Nat)

def setHandler (handler : Handler) : SshWorkspaceBloc :=
  { bloc with handlers := bloc.handlers.set i handler }

def onProfilesRequested : SshWorkspaceBloc :=
  (bloc.emit { bloc.state with status := .loading }).wait .requesting

def onNavigationChanged (view : WorkspaceView) : SshWorkspaceBloc :=
  bloc.emit { bloc.state with activeView := view, message := "" }

def onGroupFilterChanged (group : String) : SshWorkspaceBloc :=
  bloc.emit { bloc.state with groupFilter := group, message := "" }

def onSearchChanged (query : String) : SshWorkspaceBloc :=
  bloc.emit { bloc.state with searchQuery := query, message := "" }

def onTagFilterChanged (tag : String) : SshWorkspaceBloc :=
  bloc.emit { bloc.state with tagFilter := tag, message := "" }

variable (profileId : String)

def onProfileSelected : SshWorkspaceBloc :=
  bloc.emit { bloc.state with selectedId := some profileId, activeView := .gallery, message := "" }

def onProfileSelectionCleared : SshWorkspaceBloc :=
  bloc.emit { bloc.state with selectedId := none, message := "" }

def openForm (selectedId : Option String) (profile : SshProfile) :
    SshWorkspaceBloc × List Obs :=
  (bloc.emit { bloc.state with
    selectedId := selectedId
    editingProfile := some profile
    activeView := .form
    message := "" }, [.opened profile])

def onNewProfileRequested (now : Nat) : SshWorkspaceBloc × List Obs :=
  bloc.openForm bloc.state.selectedId (newProfile now bloc.state.groupFilter)

/-- `_onProfileEditRequested`, up to `readPasswordForEdit`, which is not called for a key. -/
def onProfileEditRequested :
    SshWorkspaceBloc × List Obs :=
  match bloc.state.find profileId with
  | none => (bloc, [])
  | some profile => match profile.authMethod with
    | .password => (bloc.wait (.opening profile), [])
    | .sshKey => bloc.openForm (some profile.id) profile

def onProfileDuplicateRequested (now : Nat) (profileId : String) :
    SshWorkspaceBloc × List Obs :=
  match bloc.state.find profileId with
  | none => (bloc, [])
  | some profile => bloc.openForm bloc.state.selectedId (duplicateProfile now profile)

def editForm (edit : FormEdit) (current : SshProfile) (message : String) :
    SshWorkspaceBloc :=
  bloc.emit { bloc.state with editingProfile := some (edit.apply current), message := message }

def onProfileFormChanged (texts : ProfileForm) :
    SshWorkspaceBloc × List Obs :=
  match bloc.state.editingProfile with
  | some current => (bloc.editForm (.form texts) current "", [.edited (.form texts)])
  | none => match bloc.state.selectedProfile with
    | some current =>
      (bloc.editForm (.form texts) current "", [.opened current, .edited (.form texts)])
    | none => (bloc, [])

def onEdit (edit : FormEdit) (message : String) :
    SshWorkspaceBloc × List Obs :=
  match bloc.state.editingProfile with
  | some current => (bloc.editForm edit current message, [.edited edit])
  | none => (bloc, [])

def onAuthMethodChanged (method : AuthMethod) :
    SshWorkspaceBloc × List Obs := bloc.onEdit (.authMethod method) bloc.state.message

def onProfileColorChanged (color : ProfileColor) :
    SshWorkspaceBloc × List Obs := bloc.onEdit (.color color) ""

def onJumpProfileChanged (jumpProfileId : String) :
    SshWorkspaceBloc × List Obs := bloc.onEdit (.jumpProfile jumpProfileId) ""

def onForwardAgentChanged (forwardAgent : Bool) :
    SshWorkspaceBloc × List Obs := bloc.onEdit (.forwardAgent forwardAgent) ""

def onRunsKubernetesChanged (runsKubernetes : Bool) :
    SshWorkspaceBloc × List Obs := bloc.onEdit (.runsKubernetes runsKubernetes) ""

def validated (profile : SshProfile) (message : String)
    (handler : Handler) : SshWorkspaceBloc :=
  match profileValidationMessage profile with
  | some validationMessage => bloc.emit { bloc.state with message := validationMessage }
  | none => (bloc.emit { bloc.state with isBusy := true, message := message }).wait handler

def onProfileTestRequested : SshWorkspaceBloc :=
  match bloc.state.editingProfile.or bloc.state.selectedProfile with
  | some profile => bloc.validated profile "Testing connection..." (.testing (testConnection profile))
  | none => bloc

def onProfileSaved : SshWorkspaceBloc :=
  match bloc.state.editingProfile with
  | some profile => bloc.validated profile "Saving profile..." (.saving .form (.waiting profile))
  | none => bloc

def onProfilesImported : List SshProfile → SshWorkspaceBloc
  | [] => bloc
  | profile :: rest =>
    (bloc.emit { bloc.state with isBusy := true, message := "Importing profiles..." }).wait
      (.saving (.imported rest []) (.waiting profile))

def onQuickProfileSaved (profile : SshProfile) : SshWorkspaceBloc :=
  bloc.wait (.saving .quick (.waiting profile))

/-- The profile with its icon takes the place of those with its id, in the list and in the form. -/
def showDetected (updated : SshProfile) : SshWorkspaceBloc :=
  bloc.emit { bloc.state with
    profiles := bloc.state.profiles.map fun item => if item.id = updated.id then updated else item
    editingProfile := bloc.state.editingProfile.map fun editing =>
      if editing.id = updated.id then updated else editing
    message := "" }

def onProfileOsDetected (profileId osIconAsset : String) :
    SshWorkspaceBloc × List Obs :=
  let icon := dartTrim osIconAsset
  if icon = "" then (bloc, [])
  else match bloc.state.find profileId with
    | none => (bloc, [])
    | some profile =>
      if profile.osIconAsset = icon then (bloc, [.detected profileId icon])
      else
        let updated := { profile with osIconAsset := icon }
        ((bloc.showDetected updated).wait (.saving .detection (.waiting updated)),
          [.detected profileId icon])

def onProfileDeleted : SshWorkspaceBloc :=
  (bloc.emit { bloc.state with isBusy := true }).wait (.deleting profileId .waiting)

def add (now : Nat) : SshWorkspaceEvent → SshWorkspaceBloc × List Obs
  | .profilesRequested => (bloc.onProfilesRequested, [])
  | .navigationChanged view => (bloc.onNavigationChanged view, [])
  | .groupFilterChanged group => (bloc.onGroupFilterChanged group, [])
  | .searchChanged query => (bloc.onSearchChanged query, [])
  | .tagFilterChanged tag => (bloc.onTagFilterChanged tag, [])
  | .profileSelected profileId => (bloc.onProfileSelected profileId, [])
  | .profileSelectionCleared => (bloc.onProfileSelectionCleared, [])
  | .newProfileRequested => bloc.onNewProfileRequested now
  | .profileEditRequested profileId => bloc.onProfileEditRequested profileId
  | .profileDuplicateRequested profileId => bloc.onProfileDuplicateRequested now profileId
  | .profileFormChanged texts => bloc.onProfileFormChanged texts
  | .authMethodChanged method => bloc.onAuthMethodChanged method
  | .profileColorChanged color => bloc.onProfileColorChanged color
  | .jumpProfileChanged jumpProfileId => bloc.onJumpProfileChanged jumpProfileId
  | .forwardAgentChanged forwardAgent => bloc.onForwardAgentChanged forwardAgent
  | .runsKubernetesChanged runsKubernetes => bloc.onRunsKubernetesChanged runsKubernetes
  | .profileTestRequested => (bloc.onProfileTestRequested, [])
  | .profileSaved => (bloc.onProfileSaved, [])
  | .profilesImported profiles => (bloc.onProfilesImported profiles, [])
  | .quickProfileSaved profile => (bloc.onQuickProfileSaved profile, [])
  | .profileOsDetected profileId osIconAsset => bloc.onProfileOsDetected profileId osIconAsset
  | .profileDeleted profileId => (bloc.onProfileDeleted profileId, [])

/-- What `saveProfile` does after its delay: it refuses the profile, or changes the list. -/
def saveChange (task : SaveTask) (profile : SshProfile) :
    SshWorkspaceBloc :=
  if profile.refused then
    bloc.setHandler i (.saving task (.returned (.error "Profile name and host are required.")))
  else
    { bloc with repository := insertProfile SshProfile.id profile.saved bloc.repository }.setHandler i
      (.saving task (.changed profile.saved))

def deleteChange (profileId : String) : SshWorkspaceBloc :=
  { bloc with repository := removeProfile SshProfile.id profileId bloc.repository }.setHandler i
    (.deleting profileId .changed)

def showFirst (savedProfiles : List SshProfile) : List SshProfile :=
  savedProfiles.reverse ++
    bloc.state.profiles.filter fun item => decide (item.id ∉ savedProfiles.map SshProfile.id)

def afterRequested :
    Except String (List SshProfile) → SshWorkspaceBloc × List Obs
  | .error message => (bloc.emit { bloc.state with status := .failure, message := message }, [])
  | .ok profiles => (bloc.emit { bloc.state with
      status := .ready
      profiles := profiles
      selectedId := none }, [.loaded])

def afterTesting : Except String SshProfile → SshWorkspaceBloc × List Obs
  | .error message => (bloc.emit { bloc.state with isBusy := false, message := message }, [])
  | .ok connected => (bloc.emit { bloc.state with
      isBusy := false
      editingProfile := some connected
      message := "Connection verified for " ++ connected.name ++ "." }, [.opened connected])

def afterSaved : Except String SshProfile → SshWorkspaceBloc × List Obs
  | .error message => (bloc.emit { bloc.state with isBusy := false, message := message }, [])
  | .ok saved => (bloc.emit { bloc.state with
      isBusy := false
      profiles := bloc.showFirst [saved]
      selectedId := some saved.id
      -- Clear every filter so the just-saved profile is always visible.
      searchQuery := ""
      groupFilter := "All profiles"
      tagFilter := ""
      editingProfile := none
      activeView := .gallery
      message := "Profile " ++ saved.name ++ " saved." }, [.saved saved])

def afterQuickSaved : Except String SshProfile → SshWorkspaceBloc
  | .error message => bloc.emit { bloc.state with message := message }
  | .ok saved => bloc.emit { bloc.state with profiles := bloc.showFirst [saved] }

def afterImported (savedProfiles : List SshProfile) : SshWorkspaceBloc :=
  bloc.emit { bloc.state with
    isBusy := false
    profiles := bloc.showFirst savedProfiles
    selectedId := (savedProfiles.head?.map SshProfile.id).or bloc.state.selectedId
    searchQuery := ""
    groupFilter := "All profiles"
    tagFilter := ""
    activeView := .gallery
    message := toString savedProfiles.length ++ " profile" ++
      (if savedProfiles.length = 1 then "" else "s") ++ " imported." }

def afterDeleted : SshWorkspaceBloc :=
  bloc.emit { bloc.state with
    isBusy := false
    profiles := bloc.state.profiles.filter fun item => item.id ≠ profileId
    selectedId := if bloc.state.selectedId = some profileId then none else bloc.state.selectedId
    message := "Profile deleted." }

def afterSaving (result : Except String SshProfile) :
    SaveTask → SshWorkspaceBloc × List Obs
  | .form =>
    let (bloc, obs) := bloc.afterSaved result
    (bloc.setHandler i .finished, obs)
  | .quick => ((bloc.afterQuickSaved result).setHandler i .finished, [])
  | .detection => (bloc.setHandler i .finished, [])
  | .imported rest savedProfiles => match result with
    | .error message =>
      ((bloc.emit { bloc.state with isBusy := false, message := message }).setHandler i .finished, [])
    | .ok saved => match rest with
      | profile :: rest =>
        (bloc.setHandler i (.saving (.imported rest (savedProfiles ++ [saved])) (.waiting profile)), [])
      | [] => ((bloc.afterImported (savedProfiles ++ [saved])).setHandler i .finished, [])

def resume : Handler → Option (SshWorkspaceBloc × List Obs)
  | .requested result =>
    let (bloc, obs) := bloc.afterRequested result
    some (bloc.setHandler i .finished, obs)
  | .testing result =>
    let (bloc, obs) := bloc.afterTesting result
    some (bloc.setHandler i .finished, obs)
  | .saving task (.returned result) => some (bloc.afterSaving i result task)
  | .deleting profileId .returned => some ((bloc.afterDeleted profileId).setHandler i .finished, [])
  | _ => none

/-- One step of a handler, or an event that is added. -/
def step : Event → Option (SshWorkspaceBloc × List Obs)
  | .add now event => some (bloc.add now event)
  | .load i => match bloc.handlers[i]? with
    | some .requesting => some (bloc.setHandler i (.requested (.ok bloc.repository)), [])
    | _ => none
  | .readPassword i password => match bloc.handlers[i]? with
    | some (.opening profile) =>
      let (bloc, obs) := bloc.openForm (some profile.id) (withPassword profile password)
      some (bloc.setHandler i .finished, obs)
    | _ => none
  | .change i => match bloc.handlers[i]? with
    | some (.saving task (.waiting profile)) => some (bloc.saveChange i task profile, [])
    | some (.deleting profileId .waiting) => some (bloc.deleteChange i profileId, [])
    | _ => none
  | .persist i => match bloc.handlers[i]? with
    | some (.saving task (.changed saved)) =>
      some (bloc.setHandler i (.saving task (.returned (.ok saved))), [])
    | some (.deleting profileId .changed) =>
      some (bloc.setHandler i (.deleting profileId .returned), [])
    | _ => none
  | .throw i => match bloc.handlers[i]? with
    | some (.opening _) => some (bloc.setHandler i .finished, [])
    | some (.saving _ call) =>
      if call.throws then some (bloc.setHandler i .finished, []) else none
    | some (.deleting _ .changed) => some (bloc.setHandler i .finished, [])
    | _ => none
  | .resume i => (bloc.handlers[i]?).bind (bloc.resume i)

def stored : Option SshProfile :=
  under SshProfile.id profileId bloc.repository

/-- No handler is running. -/
def Quiet : Prop := ∀ handler ∈ bloc.handlers, handler = .finished

instance : Decidable bloc.Quiet := inferInstanceAs (Decidable (∀ handler ∈ bloc.handlers, handler = .finished))

/-- How far a handler has got. -/
def At (handler : Handler) : Prop :=
  bloc.handlers[i]? = some handler

end SshWorkspaceBloc

-- Handlers bring the list of the workspace up to date one profile at a time. Until a handler has done so it owes the
-- profile to the list; the handler of a detection, which shows the profile first, owes it to the repository.

def SaveCall.kept : SaveCall → List SshProfile
  | .waiting _ => []
  | .changed saved => [saved]
  | .returned (.ok saved) => [saved]
  | .returned (.error _) => []

def Handler.owes : Handler → List String
  | .saving .form call => call.kept.map SshProfile.id
  | .saving .quick call => call.kept.map SshProfile.id
  | .saving (.imported _ savedProfiles) call => (savedProfiles ++ call.kept).map SshProfile.id
  | .saving .detection (.waiting profile) => [profile.id]
  | .deleting profileId .changed => [profileId]
  | .deleting profileId .returned => [profileId]
  | _ => []

namespace SshWorkspaceBloc

/-- What is shown under an id is what is stored under it. -/
def Shown (bloc : SshWorkspaceBloc) (profileId : String) : Prop :=
  bloc.state.find profileId = bloc.stored profileId

/-- Another handler owes what is under an id. -/
def OwedByOther (bloc : SshWorkspaceBloc) (i : Nat) (profileId : String) : Prop :=
  ∃ j handler, j ≠ i ∧ bloc.At j handler ∧ profileId ∈ handler.owes

/-- A handler changes the list that is shown when what it shows is what is stored, unless another one
still owes it: the list that was loaded, the profile that was saved, that there is no profile any more.
An import has saved no two profiles under one id, and those that it does not get to show are shown. -/
def ShowsStored (bloc : SshWorkspaceBloc) (i : Nat) : Handler → Prop
  | .requested (.ok profiles) => ∀ profileId,
    under SshProfile.id profileId profiles = bloc.stored profileId ∨ bloc.OwedByOther i profileId
  | .saving .form (.returned (.ok saved)) =>
    bloc.stored saved.id = some saved ∨ bloc.OwedByOther i saved.id
  | .saving .quick (.returned (.ok saved)) =>
    bloc.stored saved.id = some saved ∨ bloc.OwedByOther i saved.id
  | .saving (.imported rest savedProfiles) (.returned (.ok saved)) => rest = [] →
    ((savedProfiles ++ [saved]).map SshProfile.id).Nodup ∧
      ∀ profile ∈ savedProfiles ++ [saved],
        bloc.stored profile.id = some profile ∨ bloc.OwedByOther i profile.id
  | .saving (.imported _ savedProfiles) (.returned (.error _)) =>
    ∀ profile ∈ savedProfiles, bloc.Shown profile.id ∨ bloc.OwedByOther i profile.id
  | .deleting profileId .returned =>
    bloc.stored profileId = none ∨ bloc.OwedByOther i profileId
  | _ => True

/-- The profile of a detection is stored as it is shown. If it is refused, it was shown as it is stored. -/
def StoresShown (bloc : SshWorkspaceBloc) (i : Nat) : Handler → Prop
  | .saving .detection (.waiting profile) => bloc.OwedByOther i profile.id ∨
    if profile.refused then bloc.Shown profile.id else bloc.state.find profile.id = some profile.saved
  | _ => True

/-- The condition on the steps: lists are brought up to date with what is in the other one, and a call
throws only if its handler leaves nothing behind that differs. -/
def Faithful (bloc : SshWorkspaceBloc) : Event → Prop
  | .resume i => ∀ handler, bloc.At i handler → bloc.ShowsStored i handler
  | .change i => ∀ handler, bloc.At i handler → bloc.StoresShown i handler
  | .throw i => ∀ handler, bloc.At i handler →
    ∀ profileId ∈ handler.owes, bloc.Shown profileId ∨ bloc.OwedByOther i profileId
  | .add _ _ => True
  | .load _ => True
  | .readPassword _ _ => True
  | .persist _ => True

end SshWorkspaceBloc

end Portix.Workspace
