import Portix.Profiles.Proofs.RepositoryProofs
import Portix.Workspace.SshWorkspaceBloc

/-!
# What the handlers of the workspace do

The lists under the ids of profiles, the handlers that are running, and what one step can do.
-/

namespace Portix.Workspace

open Lib Profiles

theorem under_insertProfile (saved : SshProfile) (profiles : List SshProfile) (k : String) :
    under SshProfile.id k (insertProfile SshProfile.id saved profiles) =
      if k = saved.id then some saved else under SshProfile.id k profiles := by
  rcases insertProfile_cases SshProfile.id saved profiles with
    ⟨before, old, after, rfl, hid, hbefore, heq⟩ | ⟨_, heq⟩
  · rw [heq, under_append, under_append, under_cons, under_cons, hid]
    by_cases hk : k = saved.id
    · have hnone : under SshProfile.id k before = none := by
        rw [under_eq_none, List.mem_map]
        rintro ⟨item, hmem, hitem⟩
        exact hbefore item hmem (hitem.trans hk)
      rw [if_pos hk, if_pos hk.symm, hnone]
      rfl
    · rw [if_neg hk, if_neg (Ne.symm hk), if_neg (Ne.symm hk)]
  · rw [heq, under_cons]
    by_cases hk : k = saved.id
    · rw [if_pos hk, if_pos hk.symm]
    · rw [if_neg hk, if_neg (Ne.symm hk)]

theorem under_removeProfile (profileId : String) (profiles : List SshProfile) (k : String) :
    under SshProfile.id k (removeProfile SshProfile.id profileId profiles) =
      if k = profileId then none else under SshProfile.id k profiles := by
  refine (under_filter (fun id => decide (id ≠ profileId)) profiles).trans ?_
  by_cases hk : k = profileId
  · simp [hk]
  · simp [hk]

/-- A handler that waits for its first call, other than that of a detection. -/
def Handler.fresh : Handler → Bool
  | .requesting => true
  | .opening _ => true
  | .testing _ => true
  | .saving .form (.waiting _) => true
  | .saving .quick (.waiting _) => true
  | .saving (.imported _ []) (.waiting _) => true
  | .deleting _ .waiting => true
  | _ => false

def Handler.throws : Handler → Bool
  | .opening _ => true
  | .saving _ call => call.throws
  | .deleting _ .changed => true
  | _ => false

namespace SshWorkspaceBloc

variable {bloc bloc' : SshWorkspaceBloc} {i j : Nat} {old new handler : Handler} {o : List Obs}
  {profileId : String}

theorem at_setHandler (hold : bloc.At i old) :
    (bloc.setHandler i new).At j handler ↔ (j = i ∧ handler = new) ∨ (j ≠ i ∧ bloc.At j handler) :=
  getElem?_set_eq_some hold

theorem at_append (hhandlers : bloc'.handlers = bloc.handlers ++ [new]) : bloc'.At j handler ↔
    bloc.At j handler ∨ (j = bloc.handlers.length ∧ handler = new) := by
  unfold At
  rw [hhandlers]
  exact getElem?_concat_eq_some

theorem at_wait : (bloc.wait new).At j handler ↔ bloc.At j handler ∨ (j = bloc.handlers.length ∧ handler = new) :=
  at_append rfl

theorem at_congr (hhandlers : bloc'.handlers = bloc.handlers) : bloc'.At j handler ↔ bloc.At j handler := by
  unfold At
  rw [hhandlers]

theorem under_showFirst (savedProfiles : List SshProfile) (k : String) :
    under SshProfile.id k (bloc.showFirst savedProfiles) =
      if k ∈ savedProfiles.map SshProfile.id then under SshProfile.id k savedProfiles.reverse
      else bloc.state.find k := by
  have hrest : under SshProfile.id k (bloc.state.profiles.filter fun item =>
      decide (item.id ∉ savedProfiles.map SshProfile.id)) =
        if decide (k ∉ savedProfiles.map SshProfile.id) = true then bloc.state.find k else none :=
    under_filter (fun id => decide (id ∉ savedProfiles.map SshProfile.id)) bloc.state.profiles
  unfold showFirst
  rw [under_append, hrest]
  by_cases hk : k ∈ savedProfiles.map SshProfile.id
  · have hnone : ¬decide (k ∉ savedProfiles.map SshProfile.id) = true := by simpa using hk
    rw [if_pos hk, if_neg hnone, Option.or_none]
  · have hnone : under SshProfile.id k savedProfiles.reverse = none := by
      rw [under_eq_none, List.map_reverse, List.mem_reverse]
      exact hk
    rw [if_neg hk, hnone, Option.none_or, if_pos (decide_eq_true hk)]

variable {profile : SshProfile}

theorem under_showFirst_of_mem {savedProfiles : List SshProfile} (hnodup : (savedProfiles.map SshProfile.id).Nodup)
    (hmem : profile ∈ savedProfiles) :
    under SshProfile.id profile.id (bloc.showFirst savedProfiles) = some profile := by
  rw [under_showFirst, if_pos (List.mem_map_of_mem hmem)]
  apply under_of_mem
  · rw [List.map_reverse]
    exact List.nodup_reverse.mpr hnodup
  · exact List.mem_reverse.mpr hmem

theorem nodup_showFirst {savedProfiles : List SshProfile} (hnodup : (savedProfiles.map SshProfile.id).Nodup)
    (hprofiles : (bloc.state.profiles.map SshProfile.id).Nodup) :
    ((bloc.showFirst savedProfiles).map SshProfile.id).Nodup := by
  unfold showFirst
  rw [List.map_append, List.nodup_append, List.map_reverse]
  refine ⟨List.nodup_reverse.mpr hnodup, ?_, ?_⟩
  · exact hprofiles.sublist (List.filter_sublist.map SshProfile.id)
  · intro k hk k' hk' hsame
    obtain ⟨item, hitem, rfl⟩ := List.mem_map.mp hk'
    obtain ⟨-, hnot⟩ := List.mem_filter.mp hitem
    rw [List.mem_reverse, hsame] at hk
    exact of_decide_eq_true hnot hk

/-- A handler has started, if it has, without a change of the profiles. -/
structure Starts (bloc bloc' : SshWorkspaceBloc) : Prop where
  repository : bloc'.repository = bloc.repository
  profiles : bloc'.state.profiles = bloc.state.profiles
  handlers : bloc'.handlers = bloc.handlers ∨
    ∃ handler : Handler, handler.fresh = true ∧ bloc'.handlers = bloc.handlers ++ [handler]

theorem Starts.keeps (hstarts : Starts bloc bloc') (hat : bloc.At j handler) : bloc'.At j handler := by
  rcases hstarts.handlers with hsame | ⟨new, -, hnew⟩
  · exact (at_congr hsame).mpr hat
  · exact (at_append hnew).mpr (.inl hat)

theorem starts_emit {state : SshWorkspaceState} (hprofiles : state.profiles = bloc.state.profiles) :
    Starts bloc (bloc.emit state) := ⟨rfl, hprofiles, .inl rfl⟩

theorem starts_wait {state : SshWorkspaceState} {handler : Handler}
    (hprofiles : state.profiles = bloc.state.profiles) (hfresh : handler.fresh = true) :
    Starts bloc ((bloc.emit state).wait handler) :=
  ⟨rfl, hprofiles, .inr ⟨handler, hfresh, rfl⟩⟩

theorem starts_validated {message : String} {handler : Handler}
    (hfresh : handler.fresh = true) : Starts bloc (bloc.validated profile message handler) := by
  unfold validated
  split
  · exact starts_emit rfl
  · exact starts_wait rfl hfresh

theorem starts_onEdit (edit : FormEdit) (message : String) : Starts bloc (bloc.onEdit edit message).1 := by
  unfold onEdit
  split
  · exact starts_emit rfl
  · exact ⟨rfl, rfl, .inl rfl⟩

theorem starts_add (now : Nat) (event : SshWorkspaceEvent)
    (hevent : ∀ profileId osIconAsset, event ≠ .profileOsDetected profileId osIconAsset) :
    Starts bloc (bloc.add now event).1 := by
  have hsame : Starts bloc bloc := ⟨rfl, rfl, .inl rfl⟩
  cases event with
  | profilesRequested => exact starts_wait rfl rfl
  | navigationChanged view => exact starts_emit rfl
  | groupFilterChanged group => exact starts_emit rfl
  | searchChanged query => exact starts_emit rfl
  | tagFilterChanged tag => exact starts_emit rfl
  | profileSelected profileId => exact starts_emit rfl
  | profileSelectionCleared => exact starts_emit rfl
  | newProfileRequested => exact starts_emit rfl
  | profileEditRequested profileId =>
    show Starts bloc (bloc.onProfileEditRequested profileId).1
    unfold onProfileEditRequested
    split
    · exact hsame
    · split
      · exact starts_wait rfl rfl
      · exact starts_emit rfl
  | profileDuplicateRequested profileId =>
    show Starts bloc (bloc.onProfileDuplicateRequested now profileId).1
    unfold onProfileDuplicateRequested
    split
    · exact hsame
    · exact starts_emit rfl
  | profileFormChanged texts =>
    show Starts bloc (bloc.onProfileFormChanged texts).1
    unfold onProfileFormChanged
    split
    · exact starts_emit rfl
    · split
      · exact starts_emit rfl
      · exact hsame
  | authMethodChanged method => exact starts_onEdit ..
  | profileColorChanged color => exact starts_onEdit ..
  | jumpProfileChanged jumpProfileId => exact starts_onEdit ..
  | forwardAgentChanged forwardAgent => exact starts_onEdit ..
  | runsKubernetesChanged runsKubernetes => exact starts_onEdit ..
  | profileTestRequested =>
    show Starts bloc bloc.onProfileTestRequested
    unfold onProfileTestRequested
    split
    · exact starts_validated rfl
    · exact hsame
  | profileSaved =>
    show Starts bloc bloc.onProfileSaved
    unfold onProfileSaved
    split
    · exact starts_validated rfl
    · exact hsame
  | profilesImported profiles =>
    cases profiles with
    | nil => exact hsame
    | cons profile rest => exact starts_wait rfl rfl
  | quickProfileSaved profile => exact starts_wait rfl rfl
  | profileOsDetected profileId osIconAsset => exact absurd rfl (hevent profileId osIconAsset)
  | profileDeleted profileId => exact starts_wait rfl rfl

/-- What a step can do: an event comes in, or one handler gets further. -/
inductive Taken (bloc : SshWorkspaceBloc) : Event → SshWorkspaceBloc → List Obs → Prop where
  | add (now : Nat) (event : SshWorkspaceEvent) :
    Taken bloc (.add now event) (bloc.add now event).1 (bloc.add now event).2
  | load {i : Nat} (hat : bloc.At i .requesting) :
    Taken bloc (.load i) (bloc.setHandler i (.requested (.ok bloc.repository))) []
  | readPassword {i : Nat} {profile : SshProfile} (hat : bloc.At i (.opening profile))
      (password : Option String) :
    Taken bloc (.readPassword i password)
      ((bloc.openForm (some profile.id) (withPassword profile password)).1.setHandler i .finished)
      [.opened (withPassword profile password)]
  | refused {i : Nat} {task : SaveTask} {profile : SshProfile}
      (hat : bloc.At i (.saving task (.waiting profile))) (hrefused : profile.refused = true) :
    Taken bloc (.change i) (bloc.setHandler i
      (.saving task (.returned (.error "Profile name and host are required.")))) []
  | changed {i : Nat} {task : SaveTask} {profile : SshProfile}
      (hat : bloc.At i (.saving task (.waiting profile))) (haccepted : profile.refused = false) :
    Taken bloc (.change i) ({ bloc with
      repository := insertProfile SshProfile.id profile.saved bloc.repository }.setHandler i
        (.saving task (.changed profile.saved))) []
  | removed {i : Nat} {profileId : String} (hat : bloc.At i (.deleting profileId .waiting)) :
    Taken bloc (.change i) (bloc.deleteChange i profileId) []
  | savePersisted {i : Nat} {task : SaveTask} {saved : SshProfile}
      (hat : bloc.At i (.saving task (.changed saved))) :
    Taken bloc (.persist i) (bloc.setHandler i (.saving task (.returned (.ok saved)))) []
  | deletePersisted {i : Nat} {profileId : String} (hat : bloc.At i (.deleting profileId .changed)) :
    Taken bloc (.persist i) (bloc.setHandler i (.deleting profileId .returned)) []
  | thrown {i : Nat} {handler : Handler} (hat : bloc.At i handler) (hthrows : handler.throws = true) :
    Taken bloc (.throw i) (bloc.setHandler i .finished) []
  | requested {i : Nat} {result : Except String (List SshProfile)} (hat : bloc.At i (.requested result)) :
    Taken bloc (.resume i) ((bloc.afterRequested result).1.setHandler i .finished)
      (bloc.afterRequested result).2
  | tested {i : Nat} {result : Except String SshProfile} (hat : bloc.At i (.testing result)) :
    Taken bloc (.resume i) ((bloc.afterTesting result).1.setHandler i .finished)
      (bloc.afterTesting result).2
  | saved {i : Nat} {task : SaveTask} {result : Except String SshProfile}
      (hat : bloc.At i (.saving task (.returned result))) :
    Taken bloc (.resume i) (bloc.afterSaving i result task).1 (bloc.afterSaving i result task).2
  | deleted {i : Nat} {profileId : String} (hat : bloc.At i (.deleting profileId .returned)) :
    Taken bloc (.resume i) ((bloc.afterDeleted profileId).setHandler i .finished) []

theorem taken_of_step {event : Event} (hstep : bloc.step event = some (bloc', o)) : Taken bloc event bloc' o := by
  cases event with
  | add now event =>
    have heq : bloc.add now event = (bloc', o) := Option.some.inj hstep
    have htaken : Taken bloc (.add now event) (bloc.add now event).1 (bloc.add now event).2 :=
      .add now event
    rw [heq] at htaken
    exact htaken
  | load i =>
    simp only [step] at hstep
    split at hstep
    · rename_i hat
      cases hstep
      exact .load hat
    · cases hstep
  | readPassword i password =>
    simp only [step] at hstep
    split at hstep
    · rename_i profile hat
      cases hstep
      exact .readPassword hat password
    · cases hstep
  | change i =>
    simp only [step] at hstep
    split at hstep
    · rename_i task profile hat
      cases hstep
      unfold saveChange
      split
      · rename_i hrefused
        exact .refused hat hrefused
      · rename_i haccepted
        exact .changed hat (Bool.eq_false_iff.mpr haccepted)
    · rename_i profileId hat
      cases hstep
      exact .removed hat
    · cases hstep
  | persist i =>
    simp only [step] at hstep
    split at hstep
    · rename_i task saved hat
      cases hstep
      exact .savePersisted hat
    · rename_i profileId hat
      cases hstep
      exact .deletePersisted hat
    · cases hstep
  | throw i =>
    simp only [step] at hstep
    split at hstep
    · rename_i profile hat
      cases hstep
      exact .thrown hat rfl
    · rename_i task call hat
      split at hstep
      · rename_i hthrows
        cases hstep
        exact .thrown hat hthrows
      · cases hstep
    · rename_i profileId hat
      cases hstep
      exact .thrown hat rfl
    · cases hstep
  | resume i =>
    obtain ⟨handler, hat, hresume⟩ := Option.bind_eq_some_iff.mp hstep
    unfold resume at hresume
    split at hresume
    · cases hresume
      exact .requested hat
    · cases hresume
      exact .tested hat
    · rename_i task result
      have heq := Option.some.inj hresume
      have htaken := Taken.saved hat
      rw [heq] at htaken
      exact htaken
    · cases hresume
      exact .deleted hat
    · cases hresume

theorem step_change {bloc : SshWorkspaceBloc} {i : Nat} {task : SaveTask}
    (hat : bloc.At i (.saving task (.waiting profile))) :
    bloc.step (.change i) = some (bloc.saveChange i task profile, []) := by
  have hhandler : bloc.handlers[i]? = some (.saving task (.waiting profile)) := hat
  simp only [step, hhandler]

theorem step_change_accepted {bloc : SshWorkspaceBloc} {i : Nat} (task : SaveTask) (haccepted : profile.refused = false)
    (hat : bloc.At i (.saving task (.waiting profile))) :
    bloc.step (.change i) = some ({ bloc with
      repository := insertProfile SshProfile.id profile.saved bloc.repository
      handlers := bloc.handlers.set i (.saving task (.changed profile.saved)) }, []) := by
  rw [step_change hat]
  unfold saveChange
  rw [if_neg (Bool.eq_false_iff.mp haccepted)]
  rfl

theorem step_change_refused {bloc : SshWorkspaceBloc} {i : Nat} (task : SaveTask) (hrefused : profile.refused = true)
    (hat : bloc.At i (.saving task (.waiting profile))) :
    bloc.step (.change i) = some (bloc.setHandler i
      (.saving task (.returned (.error "Profile name and host are required."))), []) := by
  rw [step_change hat]
  unfold saveChange
  rw [if_pos hrefused]

end SshWorkspaceBloc

end Portix.Workspace
