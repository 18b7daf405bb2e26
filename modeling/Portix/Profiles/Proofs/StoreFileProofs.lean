import Portix.Lib.Proofs.PersistProofs
import Portix.Profiles.Proofs.RestartProofs
import Portix.Profiles.Proofs.ProfileFileProofs

/-!
# Profiles that survive the program

The list that is loaded after the program was killed is one that there was, with the effects of all
calls that had completed, if the calls rewrite the file one after the other.
-/

namespace Portix.Profiles

open Lib Lib.Persist

variable {profiles : List SshProfile} (readDouble : String → String)

theorem SshProfileRepository.givesBack_fileBytes (hgood : GoodIds profiles) :
    GivesBack readDouble (some (fileBytes profiles)) profiles := by
  intro clock
  unfold loadFile fileBytes
  rw [Option.bind_some, ofUtf8_utf8]
  exact loadProfiles_profilesText readDouble clock hgood

theorem SshProfileRepository.goodIds_changeList {change : ProfileChange SshProfile}
    {profiles' : List SshProfile} (husable : Usable change) (hgood : GoodIds profiles)
    (hchange : changeList change profiles = some profiles') : GoodIds profiles' := by
  cases change with
  | save profile =>
    have hsave : (if profile.refused = true then none
        else some (insertProfile SshProfile.id profile.saved profiles)) = some profiles' := hchange
    cases hrefused : profile.refused with
    | true =>
      rw [if_pos hrefused] at hsave
      cases hsave
    | false =>
      rw [if_neg (Bool.eq_false_iff.mp hrefused)] at hsave
      cases hsave
      apply goodIds_insertProfile hgood
      rw [SshProfile.saved_id]
      exact husable
  | delete id =>
    cases hchange
    exact goodIds_removeProfile hgood

theorem dedupeProfileIds_of_goodIds {clock : Nat → Nat} (hgood : GoodIds profiles) :
    dedupeProfileIds clock profiles = profiles :=
  dedupeFrom_of_goodIds profiles [] 0 hgood (by simp)

theorem RdpProfileRepository.givesBack_fileBytes (profiles : List RdpProfile) :
    GivesBack readDouble (some (fileBytes profiles)) profiles := by
  unfold GivesBack loadFile fileBytes
  rw [Option.bind_some, ofUtf8_utf8]
  exact loadRdpProfiles_profilesText readDouble profiles

theorem RdpProfile.password_fromEntries {entries : JsonMap} {profile : RdpProfile}
    (hread : fromEntries entries = some profile) : profile.password = none := by
  unfold fromEntries at hread
  simp only [Option.bind_eq_bind, Option.bind_eq_some_iff] at hread
  obtain ⟨_, _, _, _, _, _, _, _, _, _, _, _, _, _, hprofile⟩ := hread
  rw [← Option.some.inj hprofile]

theorem clearPassword_loadRdpProfiles (file : Option String) :
    ((loadRdpProfiles readDouble file).map fun profile => { profile with password := none }) =
      loadRdpProfiles readDouble file := by
  have hnone : ∀ profile ∈ loadRdpProfiles readDouble file, profile.password = none := by
    unfold loadRdpProfiles
    rw [readProfiles_eq]
    cases hmap : (fileObjects readDouble file).mapM RdpProfile.fromEntries with
    | none =>
      rintro profile ⟨⟩
    | some profiles =>
      intro profile hmem
      obtain ⟨index, hlt, rfl⟩ := List.getElem_of_mem hmem
      have hrows := forall₂_of_mapM hmap
      have hlt' : index < (fileObjects readDouble file).length := by
        rw [hrows.length_eq]
        exact hlt
      exact RdpProfile.password_fromEntries (hrows.get hlt' hlt)
  rw [List.map_congr_left (g := id) ?_, List.map_id]
  intro profile hmem
  have hpassword := hnone profile hmem
  cases profile
  simp_all

/-- When the program is killed, the list loaded at the next start is one that there was in memory, with
the effects of all calls that had completed. -/
theorem profiles_survive_kill (readDouble : String → String) (clock : Nat → Nat)
    (file rdpFile : Option (List UInt8))
    (hgood : GoodIds (readProfiles readDouble SshProfile.fromEntries (file.bind ofUtf8))) :
    (∀ h s, Reaches (Store.step SshProfileRepository.changeList SshProfileRepository.fileBytes)
      (Store.Orderly SshProfileRepository.Usable)
      (Store.start (SshProfileRepository.loadFile readDouble clock file) file) h s →
      s.killed = true → Survives (SshProfileRepository.GivesBack readDouble)
        (SshProfileRepository.loadFile readDouble clock file) h s.file) ∧
    ∀ h s, Reaches (Store.step RdpProfileRepository.changeList RdpProfileRepository.fileBytes)
      (Store.Orderly fun _ => True)
      (Store.start (RdpProfileRepository.loadFile readDouble rdpFile) rdpFile) h s →
      s.killed = true → Survives (RdpProfileRepository.GivesBack readDouble)
        (RdpProfileRepository.loadFile readDouble rdpFile) h s.file := by
  constructor
  · intro h s hreach hkilled
    have hsame : ∀ later, SshProfileRepository.loadFile readDouble later file =
        readProfiles readDouble SshProfile.fromEntries (file.bind ofUtf8) :=
      fun later => dedupeProfileIds_of_goodIds hgood
    have hfirst : GoodIds (SshProfileRepository.loadFile readDouble clock file) := by
      rw [hsame]
      exact hgood
    have hfile : SshProfileRepository.GivesBack readDouble file
        (SshProfileRepository.loadFile readDouble clock file) := by
      intro later
      rw [hsame, hsame]
    exact survives_of_reaches hfirst hfile
      (fun _ => SshProfileRepository.givesBack_fileBytes readDouble)
      SshProfileRepository.goodIds_changeList hreach hkilled
  · intro h s hreach hkilled
    have hany : (fun _ : List RdpProfile => True)
        (RdpProfileRepository.loadFile readDouble rdpFile) := trivial
    have hfile : RdpProfileRepository.GivesBack readDouble rdpFile
        (RdpProfileRepository.loadFile readDouble rdpFile) :=
      (clearPassword_loadRdpProfiles readDouble _).symm
    exact survives_of_reaches hany hfile
      (fun profiles _ => RdpProfileRepository.givesBack_fileBytes readDouble profiles)
      (fun _ _ _ => trivial) hreach hkilled

/-- A save that is completed is loaded at the next start; that of a second profile, begun meanwhile, is not. -/
theorem profiles_survive_kill_overlapped : ∃ file,
    Survives (SshProfileRepository.GivesBack id) (SshProfileRepository.loadFile id (fun _ => 0) none)
      [.changed 0 [(quickConnectProfile ⟨"u", "h", 22⟩).saved],
        .changed 1 [(quickConnectProfile ⟨"v", "h", 22⟩).saved, (quickConnectProfile ⟨"u", "h", 22⟩).saved],
        .completed 0] file := by
  let profile := quickConnectProfile ⟨"u", "h", 22⟩
  let second := quickConnectProfile ⟨"v", "h", 22⟩
  have husable : SshProfileRepository.Usable (.save profile) := by
    show UsableId profile.id
    decide
  have husable' : SshProfileRepository.Usable (.save second) := by
    show UsableId second.id
    decide
  have hchange : SshProfileRepository.changeList (.save profile)
      (SshProfileRepository.loadFile id (fun _ => 0) none) = some [profile.saved] := by
    have hfirst : SshProfileRepository.loadFile id (fun _ => 0) none = [] := rfl
    rw [hfirst]
    decide
  have hchange' : SshProfileRepository.changeList (.save second) [profile.saved] =
      some [second.saved, profile.saved] := by decide
  have hgood : GoodIds (readProfiles id SshProfile.fromEntries none) :=
    ⟨List.nodup_nil, fun profile hmem => by cases hmem⟩
  obtain ⟨s, hreach, hkilled⟩ := reaches_overlapped SshProfileRepository.fileBytes none hchange husable hchange'
    husable'
  exact ⟨s.file, (profiles_survive_kill id (fun _ => 0) none none hgood).1 _ s hreach hkilled⟩

/-- A program is killed while it rewrites the file for a second profile: both are gone. -/
theorem profiles_lost_by_kill : ∃ (file : Option (List UInt8)) (first : List SshProfile),
    GoodIds first ∧ SshProfileRepository.GivesBack id file first ∧
    ∃ h s, Reaches (Store.step SshProfileRepository.changeList SshProfileRepository.fileBytes)
      (fun _ _ => True) (Store.start first file) h s ∧ s.killed = true ∧
      ¬Survives (SshProfileRepository.GivesBack id) first h s.file := by
  let stored := quickConnectProfile ⟨"u", "h", 22⟩
  let profile := quickConnectProfile ⟨"v", "h", 22⟩
  have hgood : GoodIds [stored] := by
    refine ⟨List.nodup_singleton _, ?_⟩
    intro p hp
    rw [List.mem_singleton.mp hp]
    decide
  have hchange : SshProfileRepository.changeList (.save profile) [stored] =
      some [profile.saved, stored] := by decide
  refine ⟨some (SshProfileRepository.fileBytes [stored]), [stored], hgood,
    SshProfileRepository.givesBack_fileBytes id hgood, ?_⟩
  obtain ⟨s, hreach, hfile, hkilled⟩ := reaches_torn SshProfileRepository.fileBytes
    (some (SshProfileRepository.fileBytes [stored])) hchange
  refine ⟨_, s, hreach, hkilled, ?_⟩
  rw [hfile]
  rintro ⟨h1, h2, hsplit, hback, -⟩
  have hempty : SshProfileRepository.loadFile id (fun _ => 0) (some []) = [] := by decide
  have hmemory : memoryAfter [stored] (changes h1) = [] := (hback fun _ => 0).symm.trans hempty
  cases h1 with
  | nil => cases hmemory
  | cons x rest =>
    obtain ⟨rfl, hrest⟩ := List.cons.inj hsplit
    obtain ⟨rfl, -⟩ := List.append_eq_nil_iff.mp hrest.symm
    cases hmemory

end Portix.Profiles
