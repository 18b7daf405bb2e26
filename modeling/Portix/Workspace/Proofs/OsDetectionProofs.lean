import Portix.Lib.Proofs.UpdateProofs
import Portix.Workspace.OsDetection
import Portix.Workspace.Proofs.SshWorkspaceBlocProofs

/-!
# A detection loses no edit

As long as a detection finds the form and the repository as its own copy has them, it changes nothing but
the icon.
-/

namespace Portix.Workspace

open Lib Profiles

@[simp] theorem keptFields_saved (profile : SshProfile) : keptFields profile.saved = keptFields profile := by
  unfold keptFields SshProfile.saved
  cases hmethod : profile.authMethod <;> simp

@[simp] theorem saved_osIconAsset (profile : SshProfile) : profile.saved.osIconAsset = profile.osIconAsset := by
  unfold SshProfile.saved
  cases profile.authMethod <;> rfl

theorem withoutIcon_apply (edit : FormEdit) {profile profile' : SshProfile}
    (hsame : withoutIcon profile = withoutIcon profile') :
    withoutIcon (edit.apply profile) = withoutIcon (edit.apply profile') := by
  have hcomm : ∀ profile : SshProfile,
      withoutIcon (edit.apply profile) = edit.apply (withoutIcon profile) := by
    intro profile
    cases edit <;> simp only [FormEdit.apply, withoutIcon]
  rw [hcomm, hcomm, hsame]

theorem entered_append (h o : List Obs) : entered (h ++ o) = o.foldl enter (entered h) :=
  List.foldl_append

theorem savedOf_append (h o : List Obs) : savedOf (h ++ o) = savedOf h ++ savedOf o :=
  List.filterMap_append

theorem detectedOf_append (h o : List Obs) : detectedOf (h ++ o) = detectedOf h ++ detectedOf o :=
  List.filterMap_append

theorem lastSaved_append (repository : List SshProfile) (h : List Obs) {o : List Obs}
    (hnone : savedOf o = []) : lastSaved repository (h ++ o) = lastSaved repository h := by
  unfold lastSaved
  rw [savedOf_append, hnone, List.append_nil]

theorem lastSaved_saved (repository : List SshProfile) (h : List Obs) (saved : SshProfile) :
    lastSaved repository (h ++ [.saved saved]) = Function.update (lastSaved repository h) saved.id (some saved) := by
  unfold lastSaved
  rw [savedOf_append]
  exact Update.lastValue_concat (savedOf h) saved

theorem lastDetected_append (h : List Obs) {o : List Obs} (hnone : detectedOf o = []) :
    lastDetected (h ++ o) = lastDetected h := by
  unfold lastDetected
  rw [detectedOf_append, hnone, List.append_nil]

theorem lastDetected_detected (h : List Obs) (profileId icon : String) :
    lastDetected (h ++ [.detected profileId icon]) = Function.update (lastDetected h) profileId (some icon) := by
  unfold lastDetected
  rw [detectedOf_append]
  exact Update.lastValue_concat (detectedOf h) (profileId, icon)

namespace SshWorkspaceBloc

variable {bloc bloc' : SshWorkspaceBloc} {i j : Nat} {old new handler : Handler} {h o : List Obs}
  {profileId : String} {repository : List SshProfile}

/-- One of the handlers meets a condition. -/
def Running (bloc : SshWorkspaceBloc) (P : Handler → Prop) : Prop :=
  ∃ j handler, bloc.At j handler ∧ P handler

variable {P Q : Handler → Prop}

theorem running_setHandler (hat : bloc.At i old)
    (hhandlers : bloc'.handlers = bloc.handlers) (hcases : P new ∨ bloc.Other i P) :
    (bloc'.setHandler i new).Running P := by
  have hat' : bloc'.At i old := (at_congr hhandlers).mpr hat
  rcases hcases with hnew | ⟨j, handler, hne, hj, hhandler⟩
  · exact ⟨i, new, (at_setHandler hat').mpr (.inl ⟨rfl, rfl⟩), hnew⟩
  · exact ⟨j, handler, (at_setHandler hat').mpr (.inr ⟨hne, (at_congr hhandlers).mpr hj⟩), hhandler⟩

theorem Running.cases (hrunning : bloc.Running P) (hat : bloc.At i old) : P old ∨ bloc.Other i P := by
  obtain ⟨j, handler, hj, hhandler⟩ := hrunning
  by_cases hsame : j = i
  · rw [hsame] at hj
    cases hj.symm.trans hat
    exact .inl hhandler
  · exact .inr ⟨j, handler, hsame, hj, hhandler⟩

theorem Running.mono (hrunning : bloc.Running P) (hkeeps : ∀ j handler, bloc.At j handler → bloc'.At j handler)
    (himp : ∀ handler, P handler → Q handler) : bloc'.Running Q := by
  obtain ⟨j, handler, hj, hhandler⟩ := hrunning
  exact ⟨j, handler, hkeeps j handler hj, himp handler hhandler⟩

theorem Other.mono (hother : bloc.Other i P) (himp : ∀ handler, P handler → Q handler) : bloc.Other i Q := by
  obtain ⟨j, handler, hne, hj, hhandler⟩ := hother
  exact ⟨j, handler, hne, hj, himp handler hhandler⟩

theorem storesIcon_congr (hicon : bloc'.shownIcon profileId = bloc.shownIcon profileId)
    (hstores : bloc.StoresIcon profileId handler) : bloc'.StoresIcon profileId handler := by
  unfold StoresIcon at hstores ⊢
  split at hstores
  · rw [hicon]
    exact hstores
  · exact hstores.elim

theorem hasSaved_congr (hstored : (bloc'.stored profileId).map keptFields = (bloc.stored profileId).map keptFields)
    (hsaved : bloc.HasSaved profileId handler) : bloc'.HasSaved profileId handler := by
  unfold HasSaved HasFields at hsaved ⊢
  split at hsaved
  · rw [hstored]
    exact hsaved
  · rw [hstored]
    exact hsaved
  · exact hsaved.elim

/-- The form has what was entered. Under each id the fields that were saved last are stored, or a handler
that has stored other ones is about to tell the user so. The icon that was detected last is shown, and
the one that is shown is stored, or a handler is about to store it. -/
structure EditInv (repository : List SshProfile) (h : List Obs) (bloc : SshWorkspaceBloc) : Prop where
  handlers : ∀ i handler, bloc.At i handler → handler.editsOrDetects = true
  edited : bloc.state.editingProfile.map withoutIcon = (entered h).map withoutIcon
  fields : ∀ profileId, (bloc.stored profileId).map keptFields =
    (lastSaved repository h profileId).map keptFields ∨ bloc.Running (bloc.HasSaved profileId)
  icon : ∀ profileId, bloc.IconStored profileId ∨ bloc.Running (bloc.StoresIcon profileId)
  detected : ∀ profileId icon, lastDetected h profileId = some icon →
    bloc.shownIcon profileId = some icon

theorem EditInv.edited_nil (hinv : EditInv repository h bloc) :
    bloc.state.editingProfile.map withoutIcon = (entered (h ++ [])).map withoutIcon := by
  rw [List.append_nil]
  exact hinv.edited

theorem EditInv.setHandler (hinv : EditInv repository h bloc) (hat : bloc.At i old)
    (hhandlers : bloc'.handlers = bloc.handlers) (hrepository : bloc'.repository = bloc.repository)
    (hprofiles : bloc'.state.profiles = bloc.state.profiles) (hnew : new.editsOrDetects = true)
    (hnoSave : savedOf o = []) (hnoDetection : detectedOf o = [])
    (hedited : bloc'.state.editingProfile.map withoutIcon = (entered (h ++ o)).map withoutIcon)
    (hsaved : ∀ profileId, bloc.HasSaved profileId old →
      bloc.HasSaved profileId new ∨ bloc.Other i (bloc.HasSaved profileId))
    (hicon : ∀ profileId, bloc.StoresIcon profileId old → bloc.IconStored profileId ∨
      bloc.StoresIcon profileId new ∨ bloc.Other i (bloc.StoresIcon profileId)) :
    EditInv repository (h ++ o) (bloc'.setHandler i new) := by
  have hstored : ∀ profileId, bloc'.stored profileId = bloc.stored profileId := by
    intro profileId
    unfold stored
    rw [hrepository]
  have hshown : ∀ profileId, bloc'.shownIcon profileId = bloc.shownIcon profileId := by
    intro profileId
    unfold shownIcon SshWorkspaceState.find
    rw [hprofiles]
  have hsavedSame : ∀ profileId handler, bloc.HasSaved profileId handler → bloc'.HasSaved profileId handler :=
    fun profileId _ => hasSaved_congr (by rw [hstored])
  have hstoresSame : ∀ profileId handler, bloc.StoresIcon profileId handler → bloc'.StoresIcon profileId handler :=
    fun profileId _ => storesIcon_congr (hshown profileId)
  refine ⟨?_, hedited, ?_, ?_, ?_⟩
  · intro j handler hj
    rcases (at_setHandler ((at_congr hhandlers).mpr hat)).mp hj with ⟨_, rfl⟩ | ⟨_, hj⟩
    · exact hnew
    · exact hinv.handlers j handler ((at_congr hhandlers).mp hj)
  · intro profileId
    rw [lastSaved_append repository h hnoSave]
    rcases hinv.fields profileId with hsame | hrunning
    · left
      refine Eq.trans ?_ hsame
      exact congrArg (Option.map keptFields) (hstored profileId)
    · right
      apply running_setHandler hat hhandlers
      rcases hrunning.cases hat with hold | hother
      · rcases hsaved profileId hold with hself | hother
        · exact .inl (hsavedSame profileId new hself)
        · exact .inr (hother.mono (hsavedSame profileId))
      · exact .inr (hother.mono (hsavedSame profileId))
  · intro profileId
    have hiconSame : bloc.IconStored profileId → (bloc'.setHandler i new).IconStored profileId := by
      intro hstoredIcon
      refine Eq.trans ?_ (hstoredIcon.trans (hshown profileId).symm)
      exact congrArg (Option.map SshProfile.osIconAsset) (hstored profileId)
    rcases hinv.icon profileId with hsame | hrunning
    · exact .inl (hiconSame hsame)
    · rcases hrunning.cases hat with hold | hother
      · rcases hicon profileId hold with hsame | hself | hother
        · exact .inl (hiconSame hsame)
        · exact .inr (running_setHandler hat hhandlers (.inl (hstoresSame profileId new hself)))
        · exact .inr (running_setHandler hat hhandlers (.inr (hother.mono (hstoresSame profileId))))
      · exact .inr (running_setHandler hat hhandlers (.inr (hother.mono (hstoresSame profileId))))
  · intro profileId icon
    rw [lastDetected_append h hnoDetection]
    intro hlast
    exact (hshown profileId).trans (hinv.detected profileId icon hlast)

/-- The form is filled or edited, or a handler starts; the profiles stay. -/
structure Edits (h : List Obs) (bloc bloc' : SshWorkspaceBloc) (o : List Obs) : Prop where
  starts : Starts bloc bloc'
  handlers : ∀ j handler, bloc'.At j handler → bloc.At j handler ∨ handler.editsOrDetects = true
  saved : savedOf o = []
  detected : detectedOf o = []
  edited : bloc'.state.editingProfile.map withoutIcon = (entered (h ++ o)).map withoutIcon

theorem EditInv.edits (hinv : EditInv repository h bloc) (hedits : Edits h bloc bloc' o) :
    EditInv repository (h ++ o) bloc' := by
  obtain ⟨hstarts, hhandlers, hnoSave, hnoDetection, hedited⟩ := hedits
  have hstored : ∀ profileId, bloc'.stored profileId = bloc.stored profileId := by
    intro profileId
    unfold stored
    rw [hstarts.repository]
  have hshown : ∀ profileId, bloc'.shownIcon profileId = bloc.shownIcon profileId := by
    intro profileId
    unfold shownIcon SshWorkspaceState.find
    rw [hstarts.profiles]
  have hkeeps : ∀ j handler, bloc.At j handler → bloc'.At j handler := fun _ _ => hstarts.keeps
  refine ⟨?_, hedited, ?_, ?_, ?_⟩
  · intro j handler hj
    rcases hhandlers j handler hj with hj | hnew
    · exact hinv.handlers j handler hj
    · exact hnew
  · intro profileId
    rw [lastSaved_append repository h hnoSave, hstored]
    rcases hinv.fields profileId with hsame | hrunning
    · exact .inl hsame
    · exact .inr (hrunning.mono hkeeps fun _ => hasSaved_congr (by rw [hstored]))
  · intro profileId
    unfold IconStored
    rw [hstored, hshown]
    rcases hinv.icon profileId with hsame | hrunning
    · exact .inl hsame
    · exact .inr (hrunning.mono hkeeps fun _ => storesIcon_congr (hshown profileId))
  · intro profileId icon
    rw [lastDetected_append h hnoDetection, hshown]
    exact hinv.detected profileId icon

section Edits

variable (hedited : bloc.state.editingProfile.map withoutIcon = (entered h).map withoutIcon)

include hedited

theorem edits_nothing : Edits h bloc bloc [] := by
  refine ⟨⟨rfl, rfl, .inl rfl⟩, fun j handler hj => .inl hj, rfl, rfl, ?_⟩
  rw [List.append_nil]
  exact hedited

theorem edits_emit {state : SshWorkspaceState} (hprofiles : state.profiles = bloc.state.profiles)
    (hediting : state.editingProfile = bloc.state.editingProfile) :
    Edits h bloc (bloc.emit state) [] := by
  refine ⟨starts_emit hprofiles, fun j handler hj => .inl hj, rfl, rfl, ?_⟩
  rw [List.append_nil]
  refine Eq.trans ?_ hedited
  exact congrArg (Option.map withoutIcon) hediting

theorem edits_wait {state : SshWorkspaceState} {handler : Handler} (hprofiles : state.profiles = bloc.state.profiles)
    (hediting : state.editingProfile = bloc.state.editingProfile) (hfresh : handler.fresh = true)
    (hhandler : handler.editsOrDetects = true) : Edits h bloc ((bloc.emit state).wait handler) [] := by
  refine ⟨starts_wait hprofiles hfresh, ?_, rfl, rfl, ?_⟩
  · intro j handler' hj
    rcases at_wait.mp hj with hj | ⟨-, rfl⟩
    · exact .inl hj
    · exact .inr hhandler
  · rw [List.append_nil]
    refine Eq.trans ?_ hedited
    exact congrArg (Option.map withoutIcon) hediting

omit hedited in
theorem edits_openForm (selectedId : Option String) (profile : SshProfile) :
    Edits h bloc (bloc.openForm selectedId profile).1 (bloc.openForm selectedId profile).2 := by
  refine ⟨starts_emit rfl, fun j handler hj => .inl hj, rfl, rfl, ?_⟩
  have hentered : entered (h ++ [.opened profile]) = some profile := entered_append ..
  exact congrArg (Option.map withoutIcon) hentered.symm

theorem edits_editForm {current : SshProfile} (hediting : bloc.state.editingProfile = some current)
    (edit : FormEdit) (message : String) :
    Edits h bloc (bloc.editForm edit current message) [.edited edit] := by
  refine ⟨starts_emit rfl, fun j handler hj => .inl hj, rfl, rfl, ?_⟩
  have hentered : entered (h ++ [.edited edit]) = (entered h).map edit.apply := entered_append ..
  rw [hentered]
  rw [hediting] at hedited
  obtain ⟨profile, hprofile, hsame⟩ := Option.map_eq_some_iff.mp hedited.symm
  rw [hprofile]
  exact congrArg some (withoutIcon_apply edit hsame).symm

theorem edits_onEdit (edit : FormEdit) (message : String) :
    Edits h bloc (bloc.onEdit edit message).1 (bloc.onEdit edit message).2 := by
  unfold onEdit
  split
  · rename_i current hediting
    exact edits_editForm hedited hediting edit message
  · exact edits_nothing hedited

theorem edits_onProfileFormChanged (texts : ProfileForm) :
    Edits h bloc (bloc.onProfileFormChanged texts).1 (bloc.onProfileFormChanged texts).2 := by
  unfold onProfileFormChanged
  split
  · rename_i current hediting
    exact edits_editForm hedited hediting _ _
  · split
    · rename_i current _
      refine ⟨starts_emit rfl, fun j handler hj => .inl hj, rfl, rfl, ?_⟩
      have hentered : entered (h ++ [.opened current, .edited (.form texts)]) =
          some (FormEdit.apply (.form texts) current) := entered_append ..
      exact congrArg (Option.map withoutIcon) hentered.symm
    · exact edits_nothing hedited

theorem edits_onProfileEditRequested (profileId : String) : Edits h bloc (bloc.onProfileEditRequested profileId).1
      (bloc.onProfileEditRequested profileId).2 := by
  unfold onProfileEditRequested
  split
  · exact edits_nothing hedited
  · split
    · exact edits_wait hedited rfl rfl rfl rfl
    · exact edits_openForm _ _

theorem edits_onProfileSaved : Edits h bloc bloc.onProfileSaved [] := by
  unfold onProfileSaved
  split
  · unfold validated
    split
    · exact edits_emit hedited rfl rfl
    · exact edits_wait hedited rfl rfl rfl rfl
  · exact edits_nothing hedited

end Edits

variable {profile : SshProfile}

theorem EditInv.detected_again (hinv : EditInv repository h bloc) (hfind : bloc.state.find profileId = some profile) :
    EditInv repository (h ++ [.detected profileId profile.osIconAsset]) bloc := by
  refine ⟨hinv.handlers, ?_, ?_, hinv.icon, ?_⟩
  · rw [entered_append]
    exact hinv.edited
  · intro k
    rw [lastSaved_append repository h rfl]
    exact hinv.fields k
  · intro k icon
    rw [lastDetected_detected, Function.update_apply]
    by_cases hid : k = profileId
    · rw [if_pos hid]
      intro hicon
      rw [← Option.some.inj hicon, hid]
      exact congrArg (Option.map SshProfile.osIconAsset) hfind
    · rw [if_neg hid]
      exact hinv.detected k icon

/-- The icon is shown with the profile, and a handler is about to store it; the form has the other fields
of the profile already. -/
theorem EditInv.showDetected (hinv : EditInv repository h bloc) (icon : String)
    (hfind : bloc.state.find profileId = some profile) (hform : bloc.FormHas profile) :
    EditInv repository (h ++ [.detected profileId icon])
      ((bloc.showDetected { profile with osIconAsset := icon }).wait
        (.saving .detection (.waiting { profile with osIconAsset := icon }))) := by
  let updated : SshProfile := { profile with osIconAsset := icon }
  let handler : Handler := .saving .detection (.waiting updated)
  let bloc' := (bloc.showDetected updated).wait handler
  have hid : profile.id = profileId := key_of_under hfind
  have hkeeps : ∀ j old, bloc.At j old → bloc'.At j old := fun _ _ hj => at_wait.mpr (.inl hj)
  have hfind' : ∀ k, bloc'.state.find k =
      if k = profileId then (bloc.state.find k).map fun _ => updated else bloc.state.find k := by
    intro k
    rw [← hid]
    exact under_map_replace updated bloc.state.profiles
  have hshown : bloc'.shownIcon profileId = some icon := by
    unfold shownIcon
    rw [hfind', if_pos rfl, hfind]
    rfl
  have hshownOther : ∀ k, k ≠ profileId → bloc'.shownIcon k = bloc.shownIcon k := by
    intro k hk
    unfold shownIcon
    rw [hfind', if_neg hk]
  refine ⟨?_, ?_, ?_, ?_, ?_⟩
  · intro j old hj
    rcases at_wait.mp hj with hj | ⟨-, rfl⟩
    · exact hinv.handlers j old hj
    · rfl
  · rw [entered_append]
    refine Eq.trans ?_ hinv.edited
    show (bloc.state.editingProfile.map fun editing =>
      if editing.id = profile.id then updated else editing).map withoutIcon = _
    cases hediting : bloc.state.editingProfile with
    | none => rfl
    | some editing =>
      by_cases hown : editing.id = profile.id
      · have hsame : withoutIcon updated = withoutIcon editing := (hform editing hediting hown).symm
        rw [Option.map_some, if_pos hown, Option.map_some, Option.map_some, hsame]
      · rw [Option.map_some, if_neg hown]
  · intro k
    rw [lastSaved_append repository h rfl]
    rcases hinv.fields k with hsame | hrunning
    · exact .inl hsame
    · exact .inr (hrunning.mono hkeeps fun _ => hasSaved_congr rfl)
  · intro k
    by_cases hk : k = profileId
    · right
      refine ⟨bloc.handlers.length, handler, at_wait.mpr (.inr ⟨rfl, rfl⟩), ?_⟩
      rw [hk]
      exact ⟨hid, hshown⟩
    · rcases hinv.icon k with hsame | hrunning
      · exact .inl (hsame.trans (hshownOther k hk).symm)
      · exact .inr (hrunning.mono hkeeps fun _ => storesIcon_congr (hshownOther k hk))
  · intro k icon'
    rw [lastDetected_detected, Function.update_apply]
    by_cases hk : k = profileId
    · rw [if_pos hk, hk]
      intro hicon
      rw [← Option.some.inj hicon]
      exact hshown
    · rw [if_neg hk]
      intro hlast
      exact (hshownOther k hk).trans (hinv.detected k icon' hlast)

theorem EditInv.onProfileOsDetected (hinv : EditInv repository h bloc) {osIconAsset : String}
    (hcareful : ∀ profile, bloc.Detects profile (.profileOsDetected profileId osIconAsset) → bloc.FormHas profile) :
    EditInv repository (h ++ (bloc.onProfileOsDetected profileId osIconAsset).2)
      (bloc.onProfileOsDetected profileId osIconAsset).1 := by
  have hnothing : EditInv repository (h ++ []) bloc := by
    rw [List.append_nil]
    exact hinv
  unfold SshWorkspaceBloc.onProfileOsDetected
  dsimp only
  split
  · exact hnothing
  · rename_i hicon
    split
    · exact hnothing
    · rename_i profile hfind
      split
      · rename_i hsame
        rw [← hsame]
        exact hinv.detected_again hfind
      · rename_i hother
        exact hinv.showDetected _ hfind (hcareful profile ⟨hfind, hicon, hother⟩)

theorem EditInv.add (hinv : EditInv repository h bloc) (now : Nat) {event : SshWorkspaceEvent}
    (hevent : event.editsOrDetects = true)
    (hcareful : ∀ profile, bloc.Detects profile event → bloc.FormHas profile) :
    EditInv repository (h ++ (bloc.add now event).2) (bloc.add now event).1 := by
  have hedited := hinv.edited
  cases event with
  | profileEditRequested profileId => exact hinv.edits (edits_onProfileEditRequested hedited profileId)
  | profileFormChanged texts => exact hinv.edits (edits_onProfileFormChanged hedited texts)
  | authMethodChanged method => exact hinv.edits (edits_onEdit hedited _ _)
  | profileColorChanged color => exact hinv.edits (edits_onEdit hedited _ _)
  | jumpProfileChanged jumpProfileId => exact hinv.edits (edits_onEdit hedited _ _)
  | forwardAgentChanged forwardAgent => exact hinv.edits (edits_onEdit hedited _ _)
  | runsKubernetesChanged runsKubernetes => exact hinv.edits (edits_onEdit hedited _ _)
  | profileSaved => exact hinv.edits (edits_onProfileSaved hedited)
  | profileOsDetected profileId osIconAsset => exact hinv.onProfileOsDetected hcareful
  | _ => cases hevent

theorem stored_insertProfile (saved : SshProfile) (k : String) :
    ({ bloc with repository := insertProfile SshProfile.id saved bloc.repository } :
      SshWorkspaceBloc).stored k = if k = saved.id then some saved else bloc.stored k :=
  under_insertProfile saved bloc.repository k

/-- The icon under an id after a profile was put there, with the icon that is shown unless another
handler is about to store that. -/
theorem EditInv.icon_insertProfile (hinv : EditInv repository h bloc) (new : Handler) (hat : bloc.At i old)
    (hold : ∀ k, bloc.StoresIcon k old → k = profile.id)
    (hcareful : bloc.shownIcon profile.id = some profile.osIconAsset ∨
      bloc.Other i (bloc.StoresIcon profile.id)) :
    let bloc' := { bloc with
      repository := insertProfile SshProfile.id profile.saved bloc.repository }.setHandler i new
    ∀ k, bloc'.IconStored k ∨ bloc'.Running (bloc'.StoresIcon k) := by
  intro bloc' k
  have hother : bloc.Other i (bloc.StoresIcon k) → bloc'.Running (bloc'.StoresIcon k) := by
    intro hother
    refine running_setHandler hat ?_ (.inr (hother.mono fun _ => storesIcon_congr rfl))
    rfl
  have hstored : bloc'.stored k = if k = profile.saved.id then some profile.saved else bloc.stored k :=
    stored_insertProfile profile.saved k
  rw [SshProfile.saved_id] at hstored
  by_cases hid : k = profile.id
  · rw [if_pos hid] at hstored
    rcases hcareful with hshown | hstores
    · left
      unfold IconStored
      rw [hstored, Option.map_some, saved_osIconAsset, hid]
      exact hshown.symm
    · rw [← hid] at hstores
      exact .inr (hother hstores)
  · rw [if_neg hid] at hstored
    rcases hinv.icon k with hsame | hrunning
    · left
      unfold IconStored
      rw [hstored]
      exact hsame
    · rcases hrunning.cases hat with hself | hothers
      · exact absurd (hold k hself) hid
      · exact .inr (hother hothers)

theorem EditInv.form_changed (hinv : EditInv repository h bloc) (hat : bloc.At i (.saving .form (.waiting profile)))
    (hcareful : bloc.shownIcon profile.id = some profile.osIconAsset ∨
      bloc.Other i (bloc.StoresIcon profile.id)) :
    EditInv repository (h ++ []) ({ bloc with
      repository := insertProfile SshProfile.id profile.saved bloc.repository }.setHandler i
        (.saving .form (.changed profile.saved))) := by
  rw [List.append_nil]
  have hicon := hinv.icon_insertProfile (.saving .form (.changed profile.saved)) hat
    (fun k hstores => hstores.elim) hcareful
  refine ⟨?_, hinv.edited, ?_, hicon, hinv.detected⟩
  · intro j handler hj
    rcases (at_setHandler hat).mp hj with ⟨_, rfl⟩ | ⟨_, hj⟩
    · rfl
    · exact hinv.handlers j handler hj
  · intro k
    have hstored : ({ bloc with
        repository := insertProfile SshProfile.id profile.saved bloc.repository } :
          SshWorkspaceBloc).stored k = if k = profile.saved.id then some profile.saved
            else bloc.stored k := stored_insertProfile profile.saved k
    by_cases hid : k = profile.saved.id
    · rw [if_pos hid] at hstored
      right
      refine running_setHandler hat ?_ (.inl ⟨hid.symm, ?_⟩)
      · rfl
      · exact congrArg (Option.map keptFields) hstored
    · rw [if_neg hid] at hstored
      rcases hinv.fields k with hsame | hrunning
      · left
        exact (congrArg (Option.map keptFields) hstored).trans hsame
      · right
        rcases hrunning.cases hat with hself | hother
        · exact hself.elim
        · refine running_setHandler hat ?_ (.inr (hother.mono fun _ => hasSaved_congr ?_))
          · rfl
          · exact congrArg (Option.map keptFields) hstored

theorem EditInv.detection_changed (hinv : EditInv repository h bloc)
    (hat : bloc.At i (.saving .detection (.waiting profile))) (hfields : bloc.HasFields profile.id profile)
    (hcareful : bloc.shownIcon profile.id = some profile.osIconAsset ∨ bloc.Other i (bloc.StoresIcon profile.id)) :
    EditInv repository (h ++ []) ({ bloc with
      repository := insertProfile SshProfile.id profile.saved bloc.repository }.setHandler i
        (.saving .detection (.changed profile.saved))) := by
  rw [List.append_nil]
  have hicon := hinv.icon_insertProfile (.saving .detection (.changed profile.saved)) hat
    (fun k hstores => hstores.1.symm) hcareful
  have hstored : ∀ k, (({ bloc with
      repository := insertProfile SshProfile.id profile.saved bloc.repository } :
        SshWorkspaceBloc).stored k).map keptFields = (bloc.stored k).map keptFields := by
    intro k
    rw [stored_insertProfile, SshProfile.saved_id]
    by_cases hid : k = profile.id
    · rw [if_pos hid, hid, hfields, Option.map_some, keptFields_saved]
    · rw [if_neg hid]
  refine ⟨?_, hinv.edited, ?_, hicon, hinv.detected⟩
  · intro j handler hj
    rcases (at_setHandler hat).mp hj with ⟨_, rfl⟩ | ⟨_, hj⟩
    · rfl
    · exact hinv.handlers j handler hj
  · intro k
    rcases hinv.fields k with hsame | hrunning
    · left
      exact (hstored k).trans hsame
    · right
      rcases hrunning.cases hat with hself | hother
      · exact hself.elim
      · refine running_setHandler hat ?_ (.inr (hother.mono fun _ => hasSaved_congr (hstored k)))
        rfl

theorem EditInv.save_refused (hinv : EditInv repository h bloc) {task : SaveTask} {message : String}
    (hat : bloc.At i (.saving task (.waiting profile)))
    (hrefused : profile.refused = true)
    (hcareful : bloc.StoresCarefully i (.saving task (.waiting profile))) :
    EditInv repository (h ++ [])
      (bloc.setHandler i (.saving task (.returned (.error message)))) := by
  have htask := hinv.handlers i _ hat
  cases task with
  | form =>
    exact hinv.setHandler hat rfl rfl rfl rfl rfl rfl hinv.edited_nil (fun k hsaved => hsaved.elim)
      (fun k hstores => hstores.elim)
  | detection =>
    refine hinv.setHandler hat rfl rfl rfl rfl rfl rfl hinv.edited_nil (fun k hsaved => hsaved.elim) ?_
    rintro k ⟨rfl, -⟩
    rcases (if_pos hrefused).mp hcareful with hstored | hother
    · exact .inl hstored
    · exact .inr (.inr hother)
  | quick => cases htask
  | imported rest savedProfiles => cases htask

theorem EditInv.save_changed (hinv : EditInv repository h bloc) {task : SaveTask}
    (hat : bloc.At i (.saving task (.waiting profile)))
    (haccepted : profile.refused = false)
    (hcareful : bloc.StoresCarefully i (.saving task (.waiting profile))) :
    EditInv repository (h ++ []) ({ bloc with
      repository := insertProfile SshProfile.id profile.saved bloc.repository }.setHandler i
        (.saving task (.changed profile.saved))) := by
  have htask := hinv.handlers i _ hat
  cases task with
  | form => exact hinv.form_changed hat (hcareful haccepted)
  | detection =>
    obtain ⟨hfields, hicon⟩ := (if_neg (Bool.eq_false_iff.mp haccepted)).mp hcareful
    exact hinv.detection_changed hat hfields hicon
  | quick => cases htask
  | imported rest savedProfiles => cases htask

theorem EditInv.afterSaved (hinv : EditInv repository h bloc) {saved : SshProfile}
    (hat : bloc.At i (.saving .form (.returned (.ok saved))))
    (hcareful : bloc.TellsStored i (.saving .form (.returned (.ok saved)))) :
    EditInv repository (h ++ [.saved saved])
      ((bloc.afterSaved (.ok saved)).1.setHandler i .finished) := by
  obtain ⟨hstored, hicon⟩ := hcareful
  let bloc' := (bloc.afterSaved (.ok saved)).1.setHandler i .finished
  have hshown : ∀ k, bloc'.shownIcon k = bloc.shownIcon k := by
    intro k
    have hfind : bloc'.state.find k = under SshProfile.id k (bloc.showFirst [saved]) := rfl
    unfold shownIcon at hicon ⊢
    rw [hfind, under_showFirst]
    by_cases hid : k = saved.id
    · have hmem : k ∈ [saved].map SshProfile.id := List.mem_singleton.mpr hid
      rw [if_pos hmem, hid, hicon]
      have hself : under SshProfile.id saved.id [saved].reverse = some saved :=
        under_of_mem (List.nodup_singleton _) (List.mem_singleton.mpr rfl)
      rw [hself]
      rfl
    · have hnot : k ∉ [saved].map SshProfile.id := fun hmem => hid (List.mem_singleton.mp hmem)
      rw [if_neg hnot]
  have hrunning : ∀ {P : Handler → Prop}, bloc.Other i P → bloc'.Running P := by
    intro P hother
    refine running_setHandler hat ?_ (.inr hother)
    rfl
  refine ⟨?_, ?_, ?_, ?_, ?_⟩
  · intro j handler hj
    have hat' : (bloc.afterSaved (.ok saved)).1.At i (.saving .form (.returned (.ok saved))) := hat
    rcases (at_setHandler hat').mp hj with ⟨_, rfl⟩ | ⟨_, hj⟩
    · rfl
    · exact hinv.handlers j handler hj
  · rw [entered_append]
    rfl
  · intro k
    rw [lastSaved_saved, Function.update_apply]
    by_cases hid : k = saved.id
    · rw [if_pos hid, hid]
      rcases hstored with hfields | hother
      · exact .inl hfields
      · exact .inr (hrunning (hother.mono fun _ => hasSaved_congr rfl))
    · rw [if_neg hid]
      rcases hinv.fields k with hsame | hsaved
      · exact .inl hsame
      · rcases hsaved.cases hat with hself | hother
        · exact absurd hself.1.symm hid
        · exact .inr (hrunning (hother.mono fun _ => hasSaved_congr rfl))
  · intro k
    rcases hinv.icon k with hsame | hstores
    · exact .inl (hsame.trans (hshown k).symm)
    · rcases hstores.cases hat with hself | hother
      · exact hself.elim
      · exact .inr (hrunning (hother.mono fun _ => storesIcon_congr (hshown k)))
  · intro k icon
    rw [lastDetected_append h rfl]
    intro hlast
    exact (hshown k).trans (hinv.detected k icon hlast)

theorem EditInv.thrown (hinv : EditInv repository h bloc) (hat : bloc.At i handler)
    (hthrows : handler.throws = true) (hlate : bloc.ThrowsLate i handler) :
    EditInv repository (h ++ []) (bloc.setHandler i .finished) := by
  have hhandler := hinv.handlers i _ hat
  refine hinv.setHandler hat rfl rfl rfl rfl rfl rfl hinv.edited_nil ?_ ?_
  · intro k hsaved
    cases handler with
    | saving task call =>
      cases task with
      | form =>
        cases call with
        | waiting profile => exact hsaved.elim
        | changed saved =>
          obtain ⟨rfl, hfields⟩ := hsaved
          exact .inr (hlate hfields)
        | returned result => cases hthrows
      | detection => exact hsaved.elim
      | quick => cases hhandler
      | imported rest savedProfiles => cases hhandler
    | _ => exact hsaved.elim
  · intro k hstores
    cases handler with
    | saving task call =>
      cases task with
      | form => exact hstores.elim
      | detection =>
        cases call with
        | waiting profile =>
          obtain ⟨rfl, -⟩ := hstores
          rcases hlate with hstored | hother
          · exact .inl hstored
          · exact .inr (.inr hother)
        | changed saved => exact hstores.elim
        | returned result => cases hthrows
      | quick => cases hhandler
      | imported rest savedProfiles => cases hhandler
    | _ => exact hstores.elim

theorem EditInv.step {event : Event} (hinv : EditInv repository h bloc)
    (hcareful : bloc.Careful event) (hstep : bloc.step event = some (bloc', o)) :
    EditInv repository (h ++ o) bloc' := by
  cases taken_of_step hstep with
  | add now event => exact hinv.add now hcareful.1 hcareful.2
  | load hat => cases hinv.handlers _ _ hat
  | @readPassword i profile hat password =>
    have hopened : Edits h bloc (bloc.openForm (some profile.id) (withPassword profile password)).1
        [.opened (withPassword profile password)] := edits_openForm _ _
    exact hinv.setHandler hat rfl rfl rfl rfl rfl rfl hopened.edited (fun k hsaved => hsaved.elim)
      (fun k hstores => hstores.elim)
  | refused hat hrefused => exact hinv.save_refused hat hrefused (hcareful _ hat)
  | changed hat haccepted => exact hinv.save_changed hat haccepted (hcareful _ hat)
  | removed hat => cases hinv.handlers _ _ hat
  | @savePersisted i task saved hat =>
    have htask := hinv.handlers i _ hat
    cases task with
    | form =>
      exact hinv.setHandler hat rfl rfl rfl rfl rfl rfl hinv.edited_nil
        (fun k hsaved => .inl hsaved) (fun k hstores => hstores.elim)
    | detection =>
      exact hinv.setHandler hat rfl rfl rfl rfl rfl rfl hinv.edited_nil
        (fun k hsaved => hsaved.elim) (fun k hstores => hstores.elim)
    | quick => cases htask
    | imported rest savedProfiles => cases htask
  | deletePersisted hat => cases hinv.handlers _ _ hat
  | thrown hat hthrows => exact hinv.thrown hat hthrows (hcareful _ hat)
  | requested hat => cases hinv.handlers _ _ hat
  | tested hat => cases hinv.handlers _ _ hat
  | @saved i task result hat =>
    have htask := hinv.handlers i _ hat
    cases task with
    | form =>
      cases result with
      | error message =>
        exact hinv.setHandler hat rfl rfl rfl rfl rfl rfl hinv.edited_nil
          (fun k hsaved => hsaved.elim) (fun k hstores => hstores.elim)
      | ok saved => exact hinv.afterSaved hat (hcareful _ hat)
    | detection =>
      exact hinv.setHandler hat rfl rfl rfl rfl rfl rfl hinv.edited_nil
        (fun k hsaved => hsaved.elim) (fun k hstores => hstores.elim)
    | quick => cases htask
    | imported rest savedProfiles => cases htask
  | deleted hat => cases hinv.handlers _ _ hat

theorem editInv_ready (repository : List SshProfile) : EditInv repository [] (ready repository) := by
  refine ⟨?_, rfl, fun _ => .inl rfl, fun _ => .inl rfl, ?_⟩
  · rintro i handler ⟨⟩
  · rintro profileId icon ⟨⟩

end SshWorkspaceBloc

/-- In a run in which every detection finds the form and the repository as its own copy has them, the
form has what the user has entered in every state, and whenever no handler is running the fields that
the user has saved last are stored, with the icon that was detected last. -/
theorem detection_keeps_edits (repository : List SshProfile) (h : List Obs) (bloc : SshWorkspaceBloc)
    (hreach : Reaches SshWorkspaceBloc.step SshWorkspaceBloc.Careful (.ready repository) h bloc) :
    bloc.state.editingProfile.map withoutIcon = (entered h).map withoutIcon ∧
    (bloc.Quiet → ∀ profileId,
      (bloc.stored profileId).map keptFields = (lastSaved repository h profileId).map keptFields ∧
      ∀ icon, lastDetected h profileId = some icon →
        (bloc.stored profileId).map SshProfile.osIconAsset = some icon) := by
  have hinv := hreach.invariant (I := SshWorkspaceBloc.EditInv repository)
    (SshWorkspaceBloc.editInv_ready repository)
    (fun hinv hcareful hstep => hinv.step hcareful hstep)
  refine ⟨hinv.edited, ?_⟩
  intro hquiet profileId
  have hnone : ∀ {P : Handler → Prop}, ¬P .finished → ¬bloc.Running P := by
    rintro P hnot ⟨i, handler, hat, hhandler⟩
    rw [hquiet handler (List.mem_of_getElem? hat)] at hhandler
    exact hnot hhandler
  refine ⟨(hinv.fields profileId).resolve_right (hnone id), ?_⟩
  intro icon hlast
  have hstored := (hinv.icon profileId).resolve_right (hnone id)
  exact hstored.trans (hinv.detected profileId icon hlast)

namespace SshWorkspaceBloc

theorem find_ready (profile : SshProfile) : (ready [profile]).state.find profile.id = some profile :=
  under_of_mem (List.nodup_singleton _) (List.mem_singleton.mpr rfl)

theorem step_editRequested {bloc : SshWorkspaceBloc} {profile : SshProfile}
    (hfind : bloc.state.find profile.id = some profile) (hkey : profile.authMethod = .sshKey) :
    bloc.step (.add 0 (.profileEditRequested profile.id)) =
      some ((bloc.openForm (some profile.id) profile).1, [.opened profile]) := by
  show some (bloc.onProfileEditRequested profile.id) = _
  unfold onProfileEditRequested
  simp only [hfind, hkey]
  rfl

theorem step_osDetected {bloc : SshWorkspaceBloc} {profile : SshProfile} {icon : String}
    (hfind : bloc.state.find profile.id = some profile) (htrim : dartTrim icon = icon)
    (hicon : icon ≠ "") (hother : profile.osIconAsset ≠ icon) :
    bloc.step (.add 0 (.profileOsDetected profile.id icon)) =
      some ((bloc.showDetected { profile with osIconAsset := icon }).wait
        (.saving .detection (.waiting { profile with osIconAsset := icon })),
          [.detected profile.id icon]) := by
  show some (bloc.onProfileOsDetected profile.id icon) = _
  unfold onProfileOsDetected
  simp only [hfind, htrim, if_neg hicon, if_neg hother]

theorem reaches_overwritten (profile : SshProfile) (icon : String) (color : ProfileColor)
    (hkey : profile.authMethod = .sshKey) (htrim : dartTrim icon = icon) (hicon : icon ≠ "")
    (hother : profile.osIconAsset ≠ icon) :
    ∃ bloc, Reaches step (fun _ _ => True) (ready [profile])
      [.opened profile, .edited (.color color), .detected profile.id icon] bloc ∧
      bloc.state.editingProfile = some { profile with osIconAsset := icon } := by
  have hopened : Reaches step (fun _ _ => True) (ready [profile]) [.opened profile]
      ((ready [profile]).openForm (some profile.id) profile).1 :=
    Reaches.start.next trivial (step_editRequested (find_ready profile) hkey)
  have hedited := hopened.next (e := .add 0 (.profileColorChanged color)) trivial rfl
  have hdetected := hedited.next trivial
    (step_osDetected (find_ready profile) htrim hicon hother)
  refine ⟨_, hdetected, ?_⟩
  show some (if profile.id = profile.id then { profile with osIconAsset := icon }
    else { profile with color := color }) = some { profile with osIconAsset := icon }
  rw [if_pos rfl]

end SshWorkspaceBloc

def keyProfile : SshProfile where
  id := "profile-1"
  name := "web"
  host := "h"
  port := 22
  username := "u"
  group := "Production"
  tags := []
  authMethod := .sshKey
  credentialLabel := ""
  defaultPath := "~"
  status := .offline
  color := .green

namespace SshWorkspaceBloc

/-- A handler that stores what is shown, or tells that this is stored. -/
def storesShown (bloc : SshWorkspaceBloc) : Handler → Bool
  | .saving task (.waiting profile) => !profile.refused &&
    decide (bloc.shownIcon profile.id = some profile.osIconAsset) &&
    (decide (task = .form) || decide ((bloc.stored profile.id).map keptFields = some (keptFields profile)))
  | .saving .form (.returned (.ok saved)) => decide (bloc.shownIcon saved.id = some saved.osIconAsset) &&
    decide ((bloc.stored saved.id).map keptFields = some (keptFields saved))
  | .saving .detection (.returned _) => true
  | _ => false

def calm (bloc : SshWorkspaceBloc) : Event → Bool
  | .add _ event => event.editsOrDetects && (bloc.state.editingProfile.isNone || !event matches .profileOsDetected ..)
  | .change i | .resume i => (bloc.handlers[i]?).all bloc.storesShown
  | .persist _ => true
  | .throw _ | .load _ | .readPassword _ _ => false

theorem careful_of_calm (bloc : SshWorkspaceBloc) (event : Event) (hcalm : bloc.calm event = true) :
    bloc.Careful event := by
  have hhandler : ∀ i, (bloc.handlers[i]?).all bloc.storesShown = true → ∀ handler, bloc.At i handler →
      bloc.storesShown handler = true := fun i hall handler hat => Option.all_eq_true _ _ |>.mp hall handler hat
  cases event with
  | add now event =>
    obtain ⟨hedits, hclosed⟩ := Bool.and_eq_true_iff.mp hcalm
    refine ⟨hedits, fun profile hdetects editing hediting => ?_⟩
    cases event with
    | profileOsDetected profileId icon => simp [hediting] at hclosed
    | _ => exact hdetects.elim
  | change i =>
    intro handler hat
    have hstores := hhandler i hcalm handler hat
    rcases handler with _ | _ | _ | _ | ⟨task, call⟩ | _ | _
    case saving => rcases task with _ | _ | _ | _ <;> rcases call with profile | _ | _ <;>
      simp_all [StoresCarefully, storesShown, HasFields]
    all_goals trivial
  | resume i =>
    intro handler hat
    have hstores := hhandler i hcalm handler hat
    rcases handler with _ | _ | _ | _ | ⟨task, call⟩ | _ | _
    case saving => rcases task with _ | _ | _ | _ <;> rcases call with profile | _ | ⟨_ | saved⟩ <;>
      simp_all [TellsStored, storesShown, HasFields]
    all_goals trivial
  | persist i => trivial
  | throw i => cases hcalm
  | load i => trivial
  | readPassword i password => trivial

end SshWorkspaceBloc

/-- The colour of a profile is changed and saved, its icon is detected, and it is edited again while the icon is
stored. -/
def editedAndDetected : List Event :=
  [.add 0 (.profileEditRequested keyProfile.id), .add 0 (.profileColorChanged .pink), .add 0 .profileSaved,
    .change 0, .persist 0, .resume 0, .add 0 (.profileOsDetected keyProfile.id "linux"),
    .add 0 (.profileEditRequested keyProfile.id), .change 1, .add 0 (.profileColorChanged .amber), .persist 1,
    .resume 1]

theorem detection_keeps_edits_saved : ∃ (h : List Obs) (bloc : SshWorkspaceBloc),
    ((savedOf h).map SshProfile.color = [.pink] ∧ detectedOf h = [(keyProfile.id, "linux")] ∧
      (entered h).map SshProfile.color = some .amber ∧ bloc.Quiet) ∧
    bloc.state.editingProfile.map withoutIcon = (entered h).map withoutIcon ∧
    (bloc.Quiet → ∀ profileId,
      (bloc.stored profileId).map keptFields =
        (lastSaved [keyProfile] h profileId).map keptFields ∧
      ∀ icon, lastDetected h profileId = some icon →
        (bloc.stored profileId).map SshProfile.osIconAsset = some icon) := by
  obtain ⟨h, bloc, hreach, hrun⟩ := Reaches.exists_history SshWorkspaceBloc.step
    (P := fun h bloc => (savedOf h).map SshProfile.color = [.pink] ∧ detectedOf h = [(keyProfile.id, "linux")] ∧
      (entered h).map SshProfile.color = some .amber ∧ bloc.Quiet)
    (.ready [keyProfile]) SshWorkspaceBloc.calm SshWorkspaceBloc.careful_of_calm editedAndDetected
    (by decide +kernel)
  exact ⟨h, bloc, hrun, detection_keeps_edits [keyProfile] h bloc hreach⟩

/-- The colour of a profile is changed in the form, and its icon is detected: the colour is lost. -/
theorem edit_lost_by_detection : ∃ (h : List Obs) (bloc : SshWorkspaceBloc),
    Reaches SshWorkspaceBloc.step (fun _ _ => True) (.ready [keyProfile]) h bloc ∧
    bloc.state.editingProfile.map withoutIcon ≠ (entered h).map withoutIcon := by
  have htrim : dartTrim "linux" = "linux" := by decide
  obtain ⟨bloc, hreach, hediting⟩ := SshWorkspaceBloc.reaches_overwritten keyProfile
    "linux" .pink rfl htrim (by decide) (by decide)
  refine ⟨_, bloc, hreach, ?_⟩
  rw [hediting]
  intro hsame
  have hcolor := congrArg (Option.map SshProfile.color) hsame
  cases Option.some.inj hcolor

end Portix.Workspace
