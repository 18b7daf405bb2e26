import Portix.Profiles.Proofs.RestartProofs
import Portix.Workspace.Proofs.SshWorkspaceBlocProofs

/-!
# The list shows what is stored

As long as every handler shows what is stored at that moment, under each id the two lists agree or a
handler that is running still owes what is under it: once none is running, they are the same.
-/

namespace Portix.Workspace

open Lib Profiles

namespace SshWorkspaceBloc

variable {bloc bloc' : SshWorkspaceBloc} {i j : Nat} {old new handler : Handler} {h o : List Obs}
  {profileId : String}

/-- What is shown under an id is what is stored, or a handler owes it. -/
def Covered (bloc : SshWorkspaceBloc) (profileId : String) : Prop :=
  bloc.Shown profileId ∨ ∃ i handler, bloc.At i handler ∧ profileId ∈ handler.owes

/-- No list has two profiles under one id, and once the list was loaded every id is covered. -/
structure ListInv (h : List Obs) (bloc : SshWorkspaceBloc) : Prop where
  repository : (bloc.repository.map SshProfile.id).Nodup
  profiles : (bloc.state.profiles.map SshProfile.id).Nodup
  requested : ∀ i profiles, bloc.At i (.requested (.ok profiles)) →
    (profiles.map SshProfile.id).Nodup
  covered : .loaded ∈ h → ∀ profileId, bloc.Covered profileId

theorem Covered.cases (hcovered : bloc.Covered profileId) (hat : bloc.At i old) :
    bloc.Shown profileId ∨ profileId ∈ old.owes ∨ bloc.OwedByOther i profileId := by
  rcases hcovered with hshown | ⟨j, handler, hj, howes⟩
  · exact .inl hshown
  · by_cases hsame : j = i
    · rw [hsame] at hj
      cases hj.symm.trans hat
      exact .inr (.inl howes)
    · exact .inr (.inr ⟨j, handler, hsame, hj, howes⟩)

theorem covered_setHandler (hat : bloc.At i old) (hhandlers : bloc'.handlers = bloc.handlers)
    (hcovered : bloc'.Shown profileId ∨ profileId ∈ new.owes ∨ bloc.OwedByOther i profileId) :
    (bloc'.setHandler i new).Covered profileId := by
  have hat' : bloc'.At i old := (at_congr hhandlers).mpr hat
  rcases hcovered with hshown | howes | ⟨j, handler, hne, hj, howes⟩
  · exact .inl hshown
  · exact .inr ⟨i, new, (at_setHandler hat').mpr (.inl ⟨rfl, rfl⟩), howes⟩
  · exact .inr ⟨j, handler, (at_setHandler hat').mpr (.inr ⟨hne, (at_congr hhandlers).mpr hj⟩), howes⟩

/-- A step of one handler, other than showing the list that was loaded: it is enough to look at the ids
that were shown as they are stored and at those that the handler owed. -/
theorem ListInv.setHandler (hinv : ListInv h bloc) (hat : bloc.At i old)
    (hhandlers : bloc'.handlers = bloc.handlers) (hsilent : .loaded ∉ o)
    (hrepository : (bloc'.repository.map SshProfile.id).Nodup)
    (hprofiles : (bloc'.state.profiles.map SshProfile.id).Nodup)
    (hrequested : ∀ profiles, new = .requested (.ok profiles) → (profiles.map SshProfile.id).Nodup)
    (hcovered : ∀ profileId, bloc.Shown profileId ∨ profileId ∈ old.owes →
      bloc'.Shown profileId ∨ profileId ∈ new.owes ∨ bloc.OwedByOther i profileId) :
    ListInv (h ++ o) (bloc'.setHandler i new) := by
  refine ⟨hrepository, hprofiles, ?_, ?_⟩
  · intro j profiles hj
    rcases (at_setHandler ((at_congr hhandlers).mpr hat)).mp hj with ⟨_, hnew⟩ | ⟨_, hj⟩
    · exact hrequested profiles hnew.symm
    · exact hinv.requested j profiles ((at_congr hhandlers).mp hj)
  · intro hloaded profileId
    have hbefore := hinv.covered ((List.mem_append.mp hloaded).resolve_right hsilent) profileId
    apply covered_setHandler hat hhandlers
    rcases hbefore.cases hat with hshown | howes | hother
    · exact hcovered profileId (.inl hshown)
    · exact hcovered profileId (.inr howes)
    · exact .inr (.inr hother)

theorem ListInv.setHandler_same (hinv : ListInv h bloc) (hat : bloc.At i old)
    (hhandlers : bloc'.handlers = bloc.handlers) (hsilent : .loaded ∉ o)
    (hrepository : bloc'.repository = bloc.repository)
    (hprofiles : bloc'.state.profiles = bloc.state.profiles)
    (hrequested : ∀ profiles, new = .requested (.ok profiles) → (profiles.map SshProfile.id).Nodup)
    (howes : ∀ profileId ∈ old.owes, bloc.Shown profileId ∨ profileId ∈ new.owes ∨ bloc.OwedByOther i profileId) :
    ListInv (h ++ o) (bloc'.setHandler i new) := by
  have hshown : ∀ profileId, bloc'.Shown profileId ↔ bloc.Shown profileId := by
    intro profileId
    unfold Shown SshWorkspaceState.find stored
    rw [hrepository, hprofiles]
  refine hinv.setHandler hat hhandlers hsilent ?_ ?_ hrequested ?_
  · rw [hrepository]
    exact hinv.repository
  · rw [hprofiles]
    exact hinv.profiles
  · intro profileId hcases
    rw [hshown]
    rcases hcases with hsame | howed
    · exact .inl hsame
    · exact howes profileId howed

theorem loaded_notMem_onEdit (edit : FormEdit) (message : String) : .loaded ∉ (bloc.onEdit edit message).2 := by
  unfold onEdit
  split
  · simp
  · simp

theorem loaded_notMem_add (now : Nat) (event : SshWorkspaceEvent) : .loaded ∉ (bloc.add now event).2 := by
  cases event with
  | newProfileRequested => simp [add, onNewProfileRequested, openForm]
  | profileEditRequested profileId =>
    show .loaded ∉ (bloc.onProfileEditRequested profileId).2
    unfold onProfileEditRequested
    split
    · simp
    · split
      · simp
      · simp [openForm]
  | profileDuplicateRequested profileId =>
    show .loaded ∉ (bloc.onProfileDuplicateRequested now profileId).2
    unfold onProfileDuplicateRequested
    split
    · simp
    · simp [openForm]
  | profileFormChanged texts =>
    show .loaded ∉ (bloc.onProfileFormChanged texts).2
    unfold onProfileFormChanged
    split
    · simp
    · split
      · simp
      · simp
  | authMethodChanged method => exact loaded_notMem_onEdit _ _
  | profileColorChanged color => exact loaded_notMem_onEdit _ _
  | jumpProfileChanged jumpProfileId => exact loaded_notMem_onEdit _ _
  | forwardAgentChanged forwardAgent => exact loaded_notMem_onEdit _ _
  | runsKubernetesChanged runsKubernetes => exact loaded_notMem_onEdit _ _
  | profileOsDetected profileId osIconAsset =>
    show .loaded ∉ (bloc.onProfileOsDetected profileId osIconAsset).2
    unfold onProfileOsDetected
    dsimp only
    split
    · simp
    · split
      · simp
      · split
        · simp
        · simp
  | _ => exact List.not_mem_nil

theorem ListInv.starts (hinv : ListInv h bloc) (hstarts : Starts bloc bloc') (hsilent : .loaded ∉ o) :
    ListInv (h ++ o) bloc' := by
  have hkeeps : ∀ {j handler}, bloc.At j handler → bloc'.At j handler := hstarts.keeps
  obtain ⟨hrepository, hprofiles, hhandlers⟩ := hstarts
  refine ⟨?_, ?_, ?_, ?_⟩
  · rw [hrepository]
    exact hinv.repository
  · rw [hprofiles]
    exact hinv.profiles
  · intro j profiles hj
    rcases hhandlers with hsame | ⟨new, hfresh, hnew⟩
    · exact hinv.requested j profiles ((at_congr hsame).mp hj)
    · rcases (at_append hnew).mp hj with hj | ⟨-, rfl⟩
      · exact hinv.requested j profiles hj
      · cases hfresh
  · intro hloaded profileId
    rcases hinv.covered ((List.mem_append.mp hloaded).resolve_right hsilent) profileId with
      hshown | ⟨j, handler, hj, howes⟩
    · left
      unfold Shown SshWorkspaceState.find stored
      rw [hrepository, hprofiles]
      exact hshown
    · exact .inr ⟨j, handler, hkeeps hj, howes⟩

theorem ListInv.showDetected (hinv : ListInv h bloc) (updated : SshProfile) (hsilent : .loaded ∉ o) :
    ListInv (h ++ o) ((bloc.showDetected updated).wait (.saving .detection (.waiting updated))) := by
  refine ⟨hinv.repository, ?_, ?_, ?_⟩
  · show ((bloc.state.profiles.map fun item => if item.id = updated.id then updated else item).map
      SshProfile.id).Nodup
    rw [map_key_map_replace]
    exact hinv.profiles
  · intro j profiles hj
    rcases at_wait.mp hj with hj | ⟨-, hj⟩
    · exact hinv.requested j profiles hj
    · cases hj
  · intro hloaded profileId
    by_cases hid : profileId = updated.id
    · right
      refine ⟨bloc.handlers.length, _, at_wait.mpr (.inr ⟨rfl, rfl⟩), ?_⟩
      rw [hid]
      exact List.mem_singleton.mpr rfl
    · rcases hinv.covered ((List.mem_append.mp hloaded).resolve_right hsilent) profileId with
        hshown | ⟨j, handler, hj, howes⟩
      · left
        refine (under_map_replace updated bloc.state.profiles).trans ?_
        rw [if_neg hid]
        exact hshown
      · exact .inr ⟨j, handler, at_wait.mpr (.inl hj), howes⟩

theorem ListInv.add (hinv : ListInv h bloc) (now : Nat) (event : SshWorkspaceEvent) :
    ListInv (h ++ (bloc.add now event).2) (bloc.add now event).1 := by
  have hsilent : .loaded ∉ (bloc.add now event).2 := loaded_notMem_add now event
  by_cases hevent : ∃ profileId osIconAsset, event = .profileOsDetected profileId osIconAsset
  · obtain ⟨profileId, osIconAsset, rfl⟩ := hevent
    have hsame : ∀ {o}, .loaded ∉ o → ListInv (h ++ o) bloc :=
      fun hsilent => hinv.starts ⟨rfl, rfl, .inl rfl⟩ hsilent
    revert hsilent
    show .loaded ∉ (bloc.onProfileOsDetected profileId osIconAsset).2 →
      ListInv (h ++ (bloc.onProfileOsDetected profileId osIconAsset).2)
        (bloc.onProfileOsDetected profileId osIconAsset).1
    unfold onProfileOsDetected
    dsimp only
    split
    · exact hsame
    · split
      · exact hsame
      · split
        · exact hsame
        · exact hinv.showDetected _
  · have hother : ∀ profileId osIconAsset, event ≠ .profileOsDetected profileId osIconAsset :=
      fun profileId osIconAsset heq => hevent ⟨profileId, osIconAsset, heq⟩
    exact hinv.starts (starts_add now event hother) hsilent

variable {task : SaveTask}

theorem ListInv.save_refused (hinv : ListInv h bloc) {profile : SshProfile}
    {message : String} (hat : bloc.At i (.saving task (.waiting profile)))
    (hrefused : profile.refused = true)
    (hfaithful : bloc.StoresShown i (.saving task (.waiting profile))) :
    ListInv (h ++ []) (bloc.setHandler i (.saving task (.returned (.error message)))) := by
  refine hinv.setHandler_same hat rfl List.not_mem_nil rfl rfl (fun profiles heq => by cases heq) ?_
  intro profileId howes
  cases task with
  | form => exact .inr (.inl howes)
  | quick => exact .inr (.inl howes)
  | imported rest savedProfiles => exact .inr (.inl howes)
  | detection =>
    rw [List.mem_singleton.mp howes]
    rcases hfaithful with hother | hshown
    · exact .inr (.inr hother)
    · rw [if_pos hrefused] at hshown
      exact .inl hshown

theorem ListInv.save_changed (hinv : ListInv h bloc) {profile : SshProfile}
    (hat : bloc.At i (.saving task (.waiting profile))) (haccepted : profile.refused = false)
    (hfaithful : bloc.StoresShown i (.saving task (.waiting profile))) :
    ListInv (h ++ []) ({ bloc with
      repository := insertProfile SshProfile.id profile.saved bloc.repository }.setHandler i
        (.saving task (.changed profile.saved))) := by
  have hstored : ∀ profileId, under SshProfile.id profileId
      (insertProfile SshProfile.id profile.saved bloc.repository) =
        if profileId = profile.id then some profile.saved else bloc.stored profileId := by
    intro profileId
    rw [under_insertProfile, SshProfile.saved_id]
    rfl
  refine hinv.setHandler hat rfl List.not_mem_nil (nodup_insertProfile hinv.repository)
    hinv.profiles (fun profiles heq => by cases heq) ?_
  intro profileId hcases
  by_cases hid : profileId = profile.id
  · -- What is stored has changed: now the handler owes it, or it was shown before.
    rw [hid]
    cases task with
    | form => exact .inr (.inl (by simp [Handler.owes, SaveCall.kept]))
    | quick => exact .inr (.inl (by simp [Handler.owes, SaveCall.kept]))
    | imported rest savedProfiles => exact .inr (.inl (by simp [Handler.owes, SaveCall.kept]))
    | detection =>
      rcases hfaithful with hother | hfind
      · exact .inr (.inr hother)
      · rw [if_neg (Bool.eq_false_iff.mp haccepted)] at hfind
        left
        refine hfind.trans ?_
        exact ((hstored profile.id).trans (if_pos rfl)).symm
  · rcases hcases with hshown | howes
    · left
      refine Eq.trans hshown ?_
      exact ((hstored profileId).trans (if_neg hid)).symm
    · right
      left
      cases task with
      | form => cases howes
      | quick => cases howes
      | imported rest savedProfiles =>
        rw [Handler.owes, List.map_append] at howes ⊢
        exact List.mem_append_left _ ((List.mem_append.mp howes).resolve_right List.not_mem_nil)
      | detection => exact absurd (List.mem_singleton.mp howes) hid

theorem ListInv.deleteChange (hinv : ListInv h bloc) (hat : bloc.At i (.deleting profileId .waiting)) :
    ListInv (h ++ []) (bloc.deleteChange i profileId) := by
  refine hinv.setHandler hat rfl List.not_mem_nil (nodup_removeProfile hinv.repository)
    hinv.profiles (fun profiles heq => by cases heq) ?_
  intro k hcases
  by_cases hid : k = profileId
  · exact .inr (.inl (List.mem_singleton.mpr hid))
  · rcases hcases with hshown | howes
    · left
      refine Eq.trans hshown ?_
      refine ((under_removeProfile profileId bloc.repository k).trans (if_neg hid)).symm
    · cases howes

theorem ListInv.afterRequested (hinv : ListInv h bloc) {profiles : List SshProfile}
    (hat : bloc.At i (.requested (.ok profiles)))
    (hfaithful : bloc.ShowsStored i (.requested (.ok profiles))) :
    ListInv (h ++ [.loaded]) ((bloc.emit { bloc.state with
      status := .ready
      profiles := profiles
      selectedId := none }).setHandler i .finished) := by
  refine ⟨hinv.repository, hinv.requested i profiles hat, ?_, ?_⟩
  · intro j profiles' hj
    rcases (at_setHandler hat).mp hj with ⟨_, hnew⟩ | ⟨_, hj⟩
    · cases hnew
    · exact hinv.requested j profiles' hj
  · intro _ profileId
    refine covered_setHandler hat ?_ ?_
    · rfl
    · rcases hfaithful profileId with hsame | hother
      · exact .inl hsame
      · exact .inr (.inr hother)

theorem ListInv.showFirst (hinv : ListInv h bloc) (savedProfiles : List SshProfile)
    {state : SshWorkspaceState} (hat : bloc.At i old) (hsilent : .loaded ∉ o)
    (hprofiles : state.profiles = bloc.showFirst savedProfiles)
    (hnodup : (savedProfiles.map SshProfile.id).Nodup)
    (howes : ∀ profileId ∈ old.owes, profileId ∈ savedProfiles.map SshProfile.id)
    (hfaithful : ∀ profile ∈ savedProfiles, bloc.stored profile.id = some profile ∨ bloc.OwedByOther i profile.id) :
    ListInv (h ++ o) ((bloc.emit state).setHandler i .finished) := by
  refine hinv.setHandler hat rfl hsilent hinv.repository ?_ (fun profiles heq => by cases heq) ?_
  · show (state.profiles.map SshProfile.id).Nodup
    rw [hprofiles]
    exact nodup_showFirst hnodup hinv.profiles
  · intro profileId hcases
    have hfind : (bloc.emit state).state.find profileId =
        under SshProfile.id profileId (bloc.showFirst savedProfiles) := by
      rw [← hprofiles]
      rfl
    by_cases hmem : profileId ∈ savedProfiles.map SshProfile.id
    · obtain ⟨profile, hprofile, rfl⟩ := List.mem_map.mp hmem
      rcases hfaithful profile hprofile with hstored | hother
      · left
        exact (hfind.trans (under_showFirst_of_mem hnodup hprofile)).trans hstored.symm
      · exact .inr (.inr hother)
    · rcases hcases with hshown | howed
      · left
        refine (hfind.trans ?_).trans hshown
        rw [under_showFirst, if_neg hmem]
      · exact absurd (howes profileId howed) hmem

theorem ListInv.afterDeleted (hinv : ListInv h bloc) (hat : bloc.At i (.deleting profileId .returned))
    (hfaithful : bloc.ShowsStored i (.deleting profileId .returned)) :
    ListInv (h ++ []) ((bloc.afterDeleted profileId).setHandler i .finished) := by
  refine hinv.setHandler hat rfl List.not_mem_nil hinv.repository ?_
    (fun profiles heq => by cases heq) ?_
  · exact hinv.profiles.sublist (List.filter_sublist.map SshProfile.id)
  · intro k hcases
    have hfind : (bloc.afterDeleted profileId).state.find k =
        if k = profileId then none else bloc.state.find k :=
      under_removeProfile profileId bloc.state.profiles k
    by_cases hid : k = profileId
    · rw [hid] at hfind ⊢
      rcases hfaithful with hstored | hother
      · left
        exact (hfind.trans (if_pos rfl)).trans hstored.symm
      · exact .inr (.inr hother)
    · rcases hcases with hshown | howes
      · left
        exact (hfind.trans (if_neg hid)).trans hshown
      · exact absurd (List.mem_singleton.mp howes) hid

theorem ListInv.afterSaving (hinv : ListInv h bloc) {result : Except String SshProfile}
    (hat : bloc.At i (.saving task (.returned result)))
    (hfaithful : bloc.ShowsStored i (.saving task (.returned result))) :
    ListInv (h ++ (bloc.afterSaving i result task).2) (bloc.afterSaving i result task).1 := by
  have hdone : ∀ {handler : Handler} {profiles : List SshProfile},
      (∀ result, handler ≠ .requested result) → handler = .requested (.ok profiles) →
      (profiles.map SshProfile.id).Nodup := fun hne heq => absurd heq (hne _)
  cases task with
  | form =>
    cases result with
    | error message =>
      exact hinv.setHandler_same hat rfl List.not_mem_nil rfl rfl (fun _ => hdone (by simp))
        (fun _ howes => by cases howes)
    | ok saved =>
      have hsilent : Obs.loaded ∉ [Obs.saved saved] := by simp
      apply hinv.showFirst [saved] hat hsilent rfl (List.nodup_singleton _) (fun _ howes => howes)
      intro profile hmem
      rw [List.mem_singleton.mp hmem]
      exact hfaithful
  | quick =>
    cases result with
    | error message =>
      exact hinv.setHandler_same hat rfl List.not_mem_nil rfl rfl (fun _ => hdone (by simp))
        (fun _ howes => by cases howes)
    | ok saved =>
      apply hinv.showFirst [saved] hat List.not_mem_nil rfl (List.nodup_singleton _) (fun _ howes => howes)
      intro profile hmem
      rw [List.mem_singleton.mp hmem]
      exact hfaithful
  | detection =>
    exact hinv.setHandler_same hat rfl List.not_mem_nil rfl rfl (fun _ => hdone (by simp))
      (fun _ howes => by cases howes)
  | imported rest savedProfiles =>
    cases result with
    | error message =>
      refine hinv.setHandler_same hat rfl List.not_mem_nil rfl rfl (fun _ => hdone (by simp)) ?_
      intro profileId howes
      obtain ⟨profile, hmem, rfl⟩ := List.mem_map.mp howes
      rw [SaveCall.kept, List.append_nil] at hmem
      rcases hfaithful profile hmem with hshown | hother
      · exact .inl hshown
      · exact .inr (.inr hother)
    | ok saved =>
      cases rest with
      | nil =>
        obtain ⟨hnodup, hstored⟩ := hfaithful rfl
        exact hinv.showFirst _ hat List.not_mem_nil rfl hnodup (fun _ howes => howes) hstored
      | cons profile rest =>
        refine hinv.setHandler_same hat rfl List.not_mem_nil rfl rfl (fun _ => hdone (by simp)) ?_
        intro profileId howes
        refine .inr (.inl ?_)
        rw [Handler.owes, SaveCall.kept, List.append_nil]
        exact howes

theorem ListInv.step {event : Event} (hinv : ListInv h bloc) (hfaithful : bloc.Faithful event)
    (hstep : bloc.step event = some (bloc', o)) : ListInv (h ++ o) bloc' := by
  have hnone : ∀ {handler : Handler}, handler = .finished → ∀ profiles,
      handler = .requested (.ok profiles) → (profiles.map SshProfile.id).Nodup := by
    rintro handler rfl profiles ⟨⟩
  cases taken_of_step hstep with
  | add now event => exact hinv.add now event
  | load hat =>
    refine hinv.setHandler_same hat rfl List.not_mem_nil rfl rfl ?_ (fun _ howes => by cases howes)
    intro profiles heq
    cases Handler.requested.inj heq
    exact hinv.repository
  | readPassword hat password =>
    exact hinv.setHandler_same hat rfl (by simp) rfl rfl (hnone rfl) (fun _ howes => by cases howes)
  | refused hat hrefused => exact hinv.save_refused hat hrefused (hfaithful _ hat)
  | changed hat haccepted => exact hinv.save_changed hat haccepted (hfaithful _ hat)
  | removed hat => exact hinv.deleteChange hat
  | @savePersisted i task saved hat =>
    refine hinv.setHandler_same hat rfl List.not_mem_nil rfl rfl (fun profiles heq => by cases heq) ?_
    intro profileId howes
    cases task with
    | detection => cases howes
    | form => exact .inr (.inl howes)
    | quick => exact .inr (.inl howes)
    | imported rest savedProfiles => exact .inr (.inl howes)
  | deletePersisted hat =>
    exact hinv.setHandler_same hat rfl List.not_mem_nil rfl rfl (fun profiles heq => by cases heq)
      (fun _ howes => .inr (.inl howes))
  | thrown hat hthrows =>
    refine hinv.setHandler_same hat rfl List.not_mem_nil rfl rfl (hnone rfl) ?_
    intro profileId howes
    rcases hfaithful _ hat profileId howes with hshown | hother
    · exact .inl hshown
    · exact .inr (.inr hother)
  | @requested i result hat =>
    cases result with
    | error message =>
      exact hinv.setHandler_same hat rfl List.not_mem_nil rfl rfl (hnone rfl)
        (fun _ howes => by cases howes)
    | ok profiles => exact hinv.afterRequested hat (hfaithful _ hat)
  | @tested i result hat =>
    cases result with
    | error message =>
      exact hinv.setHandler_same hat rfl List.not_mem_nil rfl rfl (hnone rfl)
        (fun _ howes => by cases howes)
    | ok connected =>
      have hsilent : Obs.loaded ∉ [Obs.opened connected] := by simp
      exact hinv.setHandler_same hat rfl hsilent rfl rfl (hnone rfl) (fun _ howes => by cases howes)
  | saved hat => exact hinv.afterSaving hat (hfaithful _ hat)
  | deleted hat => exact hinv.afterDeleted hat (hfaithful _ hat)

theorem listInv_start {repository : List SshProfile}
    (hnodup : (repository.map SshProfile.id).Nodup) : ListInv [] (start repository) := by
  refine ⟨hnodup, List.nodup_nil, ?_, ?_⟩
  · rintro i profiles ⟨⟩
  · rintro ⟨⟩

theorem ListInv.perm (hinv : ListInv h bloc) (hloaded : .loaded ∈ h) (hquiet : bloc.Quiet) :
    bloc.state.profiles.Perm bloc.repository := by
  apply perm_of_under hinv.profiles hinv.repository
  intro profileId
  rcases hinv.covered hloaded profileId with hshown | ⟨i, handler, hat, howes⟩
  · exact hshown
  · rw [hquiet handler (List.mem_of_getElem? hat)] at howes
    cases howes

end SshWorkspaceBloc

/-- In a run in which every handler shows what is stored at that moment, the list shows each stored
profile once whenever no handler is running after the list was first loaded. -/
theorem list_shows_stored (readDouble : String → String) (clock : Nat → Nat) (file : Option String)
    (hfresh : FreshIds clock (readProfiles readDouble SshProfile.fromEntries file))
    (h : List Obs) (bloc : SshWorkspaceBloc)
    (hreach : Reaches SshWorkspaceBloc.step SshWorkspaceBloc.Faithful
      (.start (loadProfiles readDouble clock file)) h bloc)
    (hloaded : .loaded ∈ h) (hquiet : bloc.Quiet) :
    bloc.state.profiles.Perm bloc.repository ∧ (bloc.repository.map SshProfile.id).Nodup := by
  have hnodup : ((loadProfiles readDouble clock file).map SshProfile.id).Nodup :=
    (goodIds_dedupeFrom _ [] 0 hfresh (by simp)).1.1
  have hinv := hreach.invariant (I := SshWorkspaceBloc.ListInv)
    (SshWorkspaceBloc.listInv_start hnodup)
    (fun hinv hfaithful hstep => hinv.step hfaithful hstep)
  exact ⟨hinv.perm hloaded hquiet, hinv.repository⟩

namespace SshWorkspaceBloc

def loadedEmpty : SshWorkspaceBloc := ⟨[], { status := .ready }, [.finished]⟩

theorem reaches_loadedEmpty : Reaches step Faithful (start []) [.loaded] loadedEmpty := by
  have hadd : (start []).Faithful (.add 0 .profilesRequested) := trivial
  have hload : ∀ bloc : SshWorkspaceBloc, bloc.Faithful (.load 0) := fun _ => trivial
  have hrequested : Reaches step Faithful (start []) [] ⟨[], { status := .loading }, [.requesting]⟩ :=
    Reaches.start.next hadd rfl
  have hanswered := hrequested.next (hload _) rfl
  refine hanswered.next (e := .resume 0) ?_ rfl
  rintro handler ⟨⟩
  intro profileId
  exact .inl rfl

/-- A handler that shows what is stored. -/
def showsNow (bloc : SshWorkspaceBloc) : Handler → Bool
  | .requested (.ok profiles) => decide (profiles = bloc.repository)
  | .saving .quick (.returned (.ok saved)) => decide (bloc.stored saved.id = some saved)
  | .saving (.imported rest savedProfiles) (.returned (.ok saved)) => decide (rest ≠ []) ||
    decide ((savedProfiles ++ [saved]).map SshProfile.id).Nodup &&
      decide (∀ profile ∈ savedProfiles ++ [saved], bloc.stored profile.id = some profile)
  | .deleting profileId .returned => decide (bloc.stored profileId = none)
  | _ => false

def plain (bloc : SshWorkspaceBloc) : Event → Bool
  | .resume i => (bloc.handlers[i]?).all bloc.showsNow
  | .change i => (bloc.handlers[i]?).all fun
    | .saving .detection _ => false
    | _ => true
  | .throw _ => false
  | _ => true

theorem faithful_of_plain (bloc : SshWorkspaceBloc) (event : Event) (hplain : bloc.plain event = true) :
    bloc.Faithful event := by
  cases event with
  | resume i =>
    intro handler hat
    have hshows := (Option.all_eq_true _ _).mp hplain handler hat
    unfold showsNow at hshows
    split at hshows
    case h_1 profiles =>
      rw [of_decide_eq_true hshows]
      exact fun _ => .inl rfl
    case h_2 saved => exact .inl (of_decide_eq_true hshows)
    case h_3 rest savedProfiles saved =>
      rintro rfl
      simp only [ne_eq, not_true_eq_false, decide_false, Bool.false_or, Bool.and_eq_true, decide_eq_true_eq] at hshows
      exact ⟨hshows.1, fun profile hmem => .inl (hshows.2 profile hmem)⟩
    case h_4 profileId => exact .inl (of_decide_eq_true hshows)
    case h_5 => cases hshows
  | change i =>
    intro handler hat
    have hnone := (Option.all_eq_true _ _).mp hplain handler hat
    unfold StoresShown
    split
    · cases hnone
    · trivial
  | throw i => cases hplain
  | _ => trivial

theorem reaches_importFailed {profile nameless : SshProfile} (haccepted : profile.refused = false)
    (hrefused : nameless.refused = true) :
    Reaches step (fun _ _ => True) (start []) [.loaded]
      ⟨[profile.saved], { status := .ready, message := "Profile name and host are required." },
        [.finished, .finished]⟩ := by
  have hloaded : Reaches step (fun _ _ => True) (start []) [.loaded] loadedEmpty :=
    reaches_loadedEmpty.mono fun _ hstep => ⟨trivial, hstep⟩
  have hadded := hloaded.next (e := .add 0 (.profilesImported [profile, nameless])) trivial rfl
  have hchanged := hadded.next (e := .change 1) trivial
    (by exact step_change_accepted (.imported [nameless] []) haccepted rfl)
  have hfirst := (hchanged.next (e := .persist 1) trivial rfl).next (e := .resume 1) trivial rfl
  have hsecond := hfirst.next (e := .change 1) trivial
    (by exact step_change_refused (.imported [] [profile.saved]) hrefused rfl)
  exact hsecond.next (e := .resume 1) trivial rfl

end SshWorkspaceBloc

/-- Two profiles are imported while one of quick connect is saved, and the first of them is deleted again. -/
def importedAndQuick : List Event :=
  [.add 0 .profilesRequested, .load 0, .resume 0,
    .add 0 (.profilesImported [quickConnectProfile ⟨"u", "h", 22⟩, quickConnectProfile ⟨"v", "h", 22⟩]),
    .add 0 (.quickProfileSaved (quickConnectProfile ⟨"w", "h", 22⟩)), .change 1, .change 2, .persist 1, .resume 1,
    .persist 2, .change 1, .resume 2, .persist 1, .resume 1,
    .add 0 (.profileDeleted (quickConnectProfile ⟨"u", "h", 22⟩).id), .change 3, .persist 3, .resume 3]

theorem list_shows_stored_overlapping : ∃ bloc : SshWorkspaceBloc,
    bloc.repository.map SshProfile.username = ["v", "w"] ∧
      bloc.state.profiles.Perm bloc.repository ∧ (bloc.repository.map SshProfile.id).Nodup := by
  have hfresh : FreshIds (fun _ => 0) (readProfiles id SshProfile.fromEntries none) := by
    rintro index profile ⟨⟩
  obtain ⟨h, bloc, hreach, hstored, hloaded, hquiet⟩ := Reaches.exists_history SshWorkspaceBloc.step
    (P := fun h bloc => bloc.repository.map SshProfile.username = ["v", "w"] ∧
      (h.any fun obs => obs matches .loaded) = true ∧ bloc.Quiet)
    (.start (loadProfiles id (fun _ => 0) none)) SshWorkspaceBloc.plain SshWorkspaceBloc.faithful_of_plain
    importedAndQuick (by decide +kernel)
  have hmem : .loaded ∈ h := by
    obtain ⟨obs, hmem, hobs⟩ := List.any_eq_true.mp hloaded
    cases obs with
    | loaded => exact hmem
    | _ => cases hobs
  exact ⟨bloc, hstored, list_shows_stored id (fun _ => 0) none hfresh h bloc hreach hmem hquiet⟩

/-- An import fails at its second profile: the first one is stored, and not shown. -/
theorem import_not_shown : ∃ (h : List Obs) (bloc : SshWorkspaceBloc),
    Reaches SshWorkspaceBloc.step (fun _ _ => True)
      (.start (loadProfiles id (fun _ => 0) none)) h bloc ∧
    .loaded ∈ h ∧ bloc.Quiet ∧ ¬bloc.state.profiles.Perm bloc.repository := by
  have haccepted : (quickConnectProfile ⟨"u", "h", 22⟩).refused = false := by decide
  have hrefused : ({ quickConnectProfile ⟨"v", "h", 22⟩ with name := "" } : SshProfile).refused = true :=
    rfl
  refine ⟨_, _, SshWorkspaceBloc.reaches_importFailed haccepted hrefused, ?_, ?_, ?_⟩
  · exact List.mem_singleton.mpr rfl
  · intro handler hmem
    rcases List.mem_cons.mp hmem with hfirst | hsecond
    · exact hfirst
    · exact List.mem_singleton.mp hsecond
  · intro hperm
    cases hperm.length_eq

end Portix.Workspace
