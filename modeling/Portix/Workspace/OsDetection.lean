import Portix.Lib.Update
import Portix.Workspace.SshWorkspaceBloc

/-!
# What the user enters, and what a detection may write over

A detection comes from the background with an icon only, but the whole profile it was found for is put
into the form, and stored. What the user has entered and saved is read off the history of a run.
-/

namespace Portix.Workspace

open Lib Profiles

def withoutIcon (profile : SshProfile) : SshProfile := { profile with osIconAsset := "" }

def keptFields (profile : SshProfile) : SshProfile := withoutIcon profile.saved

def enter : Option SshProfile → Obs → Option SshProfile
  | _, .opened profile => some profile
  | entered, .edited edit => entered.map edit.apply
  | _, .saved _ => none
  | entered, .detected _ _ => entered
  | entered, .loaded => entered

/-- The profile that the user has entered: the form as the user has filled and edited it. -/
def entered (h : List Obs) : Option SshProfile := h.foldl enter none

def savedOf (h : List Obs) : List SshProfile :=
  h.filterMap fun
    | .saved profile => some profile
    | _ => none

def detectedOf (h : List Obs) : List (String × String) :=
  h.filterMap fun
    | .detected profileId icon => some (profileId, icon)
    | _ => none

/-- The last profile that the user has saved under an id, else the one that was stored at first. -/
def lastSaved (repository : List SshProfile) (h : List Obs) : String → Option SshProfile :=
  Update.lastValue SshProfile.id some (fun profileId => under SshProfile.id profileId repository)
    (savedOf h)

def lastDetected (h : List Obs) : String → Option String :=
  Update.lastValue Prod.fst (fun found => some found.2) (fun _ => none) (detectedOf h)

def SshWorkspaceEvent.editsOrDetects : SshWorkspaceEvent → Bool
  | .profileEditRequested _ => true
  | .profileFormChanged _ => true
  | .authMethodChanged _ => true
  | .profileColorChanged _ => true
  | .jumpProfileChanged _ => true
  | .forwardAgentChanged _ => true
  | .runsKubernetesChanged _ => true
  | .profileSaved => true
  | .profileOsDetected _ _ => true
  | _ => false

def Handler.editsOrDetects : Handler → Bool
  | .opening _ => true
  | .saving .form _ => true
  | .saving .detection _ => true
  | .finished => true
  | _ => false

namespace SshWorkspaceBloc

def ready (repository : List SshProfile) : SshWorkspaceBloc :=
  ⟨repository, { status := .ready, profiles := repository }, []⟩

variable (bloc : SshWorkspaceBloc) (profileId : String) (profile : SshProfile)

/-- What is stored under an id has the fields of a profile. -/
def HasFields : Prop :=
  (bloc.stored profileId).map keptFields = some (keptFields profile)

def shownIcon : Option String :=
  (bloc.state.find profileId).map SshProfile.osIconAsset

/-- The icon that is shown under an id is stored. -/
def IconStored : Prop :=
  (bloc.stored profileId).map SshProfile.osIconAsset = bloc.shownIcon profileId

def StoresIcon : Handler → Prop
  | .saving .detection (.waiting profile) =>
    profile.id = profileId ∧ bloc.shownIcon profileId = some profile.osIconAsset
  | _ => False

/-- A handler has stored the fields that are under an id, and is about to tell the user so. -/
def HasSaved : Handler → Prop
  | .saving .form (.changed saved) => saved.id = profileId ∧ bloc.HasFields profileId saved
  | .saving .form (.returned (.ok saved)) => saved.id = profileId ∧ bloc.HasFields profileId saved
  | _ => False

/-- One of the other handlers meets a condition. -/
def Other (i : Nat) (P : Handler → Prop) : Prop :=
  ∃ j handler, j ≠ i ∧ bloc.At j handler ∧ P handler

/-- The form has the fields of a profile, or is that of another one. -/
def FormHas : Prop :=
  ∀ editing, bloc.state.editingProfile = some editing → editing.id = profile.id →
    withoutIcon editing = withoutIcon profile

def Detects : SshWorkspaceEvent → Prop
  | .profileOsDetected profileId osIconAsset => bloc.state.find profileId = some profile ∧
    dartTrim osIconAsset ≠ "" ∧ profile.osIconAsset ≠ dartTrim osIconAsset
  | _ => False

/-- A profile that is put into the list of the repository has the icon that is shown, unless another
detection is about to store that. A detection puts no profile there with other fields than the stored
one, and is refused only if the icon is stored or another one is about to store it. -/
def StoresCarefully (i : Nat) : Handler → Prop
  | .saving .form (.waiting profile) => profile.refused = false →
    bloc.shownIcon profile.id = some profile.osIconAsset ∨ bloc.Other i (bloc.StoresIcon profile.id)
  | .saving .detection (.waiting profile) =>
    if profile.refused then
      bloc.IconStored profile.id ∨ bloc.Other i (bloc.StoresIcon profile.id)
    else
      bloc.HasFields profile.id profile ∧
        (bloc.shownIcon profile.id = some profile.osIconAsset ∨
          bloc.Other i (bloc.StoresIcon profile.id))
  | _ => True

/-- A call of a save throws only if what it has stored was written over, or was stored by another save
too; one of a detection only if the icon is stored, or another one is about to store it. -/
def ThrowsLate (i : Nat) : Handler → Prop
  | .saving .form (.changed saved) => bloc.HasFields saved.id saved →
    bloc.Other i (bloc.HasSaved saved.id)
  | .saving .detection (.waiting profile) => bloc.IconStored profile.id ∨
    bloc.Other i (bloc.StoresIcon profile.id)
  | _ => True

/-- The user is told of a save while what was saved, or what another save has stored that the user will
be told of, is stored, and it has the icon that is shown. -/
def TellsStored (i : Nat) : Handler → Prop
  | .saving .form (.returned (.ok saved)) =>
    (bloc.HasFields saved.id saved ∨ bloc.Other i (bloc.HasSaved saved.id)) ∧
      bloc.shownIcon saved.id = some saved.osIconAsset
  | _ => True

def Careful : Event → Prop
  | .add _ event => event.editsOrDetects = true ∧
    ∀ profile, bloc.Detects profile event → bloc.FormHas profile
  | .change i => ∀ handler, bloc.At i handler → bloc.StoresCarefully i handler
  | .throw i => ∀ handler, bloc.At i handler → bloc.ThrowsLate i handler
  | .resume i => ∀ handler, bloc.At i handler → bloc.TellsStored i handler
  | .load _ => True
  | .readPassword _ _ => True
  | .persist _ => True

end SshWorkspaceBloc

end Portix.Workspace
