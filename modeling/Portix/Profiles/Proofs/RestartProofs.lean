import Portix.Profiles.Proofs.RepositoryProofs

/-!
# The profile stores survive a restart

Loading makes the ids of SSH profiles distinct and trimmed, saving and deleting keep them so, and a
list with such ids is read back from the file as it is.
-/

namespace Portix.Profiles

open Lib

theorem digits_inj {xs ys : List Char} {m n : Nat}
    (h : xs ++ '-' :: Nat.toDigits 10 m = ys ++ '-' :: Nat.toDigits 10 n) : m = n := by
  have htake : ∀ (zs : List Char) (k : Nat), (zs ++ '-' :: Nat.toDigits 10 k).reverse.takeWhile Char.isDigit =
        (Nat.toDigits 10 k).reverse := by
    intro zs k
    have hall : ∀ c ∈ (Nat.toDigits 10 k).reverse, c.isDigit = true :=
      fun c hc => isDigit_of_mem_digits (List.mem_reverse.mp hc)
    rw [List.reverse_append, List.reverse_cons, List.append_assoc, List.takeWhile_append_of_pos hall]
    have hhyphen : ([ '-' ] ++ zs.reverse).takeWhile Char.isDigit = [] := rfl
    rw [hhyphen, List.append_nil]
  have hdigits := htake xs m
  rw [h, htake ys n] at hdigits
  have hsame : Nat.toDigits 10 n = Nat.toDigits 10 m := List.reverse_injective hdigits
  rw [← Nat.ofDigitChars_ten_toDigits (n := m), ← hsame, Nat.ofDigitChars_ten_toDigits]

theorem toList_generatedId (clock : Nat → Nat) (index : Nat) : (generatedId clock index).toList =
      ("profile-".toList ++ Nat.toDigits 10 (clock index)) ++ '-' :: Nat.toDigits 10 index := by
  unfold generatedId
  rw [Nat.toString_eq_ofList_toDigits, Nat.toString_eq_ofList_toDigits]
  simp [String.toList_append]

variable {clock : Nat → Nat}

theorem generatedId_inj {i j : Nat} (h : generatedId clock i = generatedId clock j) : i = j := by
  rw [← String.toList_inj, toList_generatedId, toList_generatedId] at h
  exact digits_inj h

theorem usableId_of_digits {id : String} {cs : List Char} {index : Nat}
    (htext : id.toList = 'p' :: cs ++ '-' :: Nat.toDigits 10 index) : UsableId id := by
  obtain ⟨ds, d, hdigits, hd⟩ := digits_eq_concat index
  have hlast : lastIs isDartWhitespace id = false := by
    unfold lastIs
    rw [htext, hdigits, ← List.cons_append, ← List.append_assoc, List.getLast?_concat]
    exact isDartWhitespace_of_isDigit hd
  constructor
  · exact (trimBy_eq_self_iff htext (by decide)).mpr hlast
  · rintro rfl
    cases htext

theorem usableId_generatedId (clock : Nat → Nat) (index : Nat) : UsableId (generatedId clock index) :=
  usableId_of_digits (toList_generatedId clock index)

theorem usableId_dartTrim {id : String} (hne : dartTrim id ≠ "") : UsableId (dartTrim id) :=
  ⟨trimBy_trimBy _ _, hne⟩

theorem uniqueProfileId_spec {generated : String} (candidate : String) {usedIds : List String}
    (hgenerated : generated ∉ usedIds ∧ UsableId generated) :
    uniqueProfileId generated candidate usedIds ∉ usedIds ∧ UsableId (uniqueProfileId generated candidate usedIds) ∧
      (uniqueProfileId generated candidate usedIds = dartTrim candidate ∨
        uniqueProfileId generated candidate usedIds = generated) := by
  by_cases hown : dartTrim candidate ≠ "" ∧ dartTrim candidate ∉ usedIds
  · have hid : uniqueProfileId generated candidate usedIds = dartTrim candidate := if_pos hown
    rw [hid]
    exact ⟨hown.2, usableId_dartTrim hown.1, .inl rfl⟩
  · have hid : uniqueProfileId generated candidate usedIds = generated := if_neg hown
    rw [hid]
    exact ⟨hgenerated.1, hgenerated.2, .inr rfl⟩

theorem goodIds_dedupeFrom (profiles : List SshProfile) :
    ∀ (usedIds : List String) (index : Nat), FreshIds clock profiles →
    (∀ i, index ≤ i → generatedId clock i ∉ usedIds) →
    GoodIds (dedupeFrom clock usedIds index profiles) ∧
      ∀ profile ∈ dedupeFrom clock usedIds index profiles, profile.id ∉ usedIds := by
  induction profiles with
  | nil =>
    intro usedIds index _ _
    exact ⟨⟨List.nodup_nil, by simp [dedupeFrom]⟩, by simp [dedupeFrom]⟩
  | cons profile rest ih =>
    intro usedIds index hfresh hunused
    have hspec := uniqueProfileId_spec profile.id ⟨hunused index (Nat.le_refl _), usableId_generatedId clock index⟩
    rw [dedupeFrom]
    generalize uniqueProfileId (generatedId clock index) profile.id usedIds = id at hspec
    obtain ⟨hnew, husable, horigin⟩ := hspec
    have hunused' : ∀ i, index + 1 ≤ i → generatedId clock i ∉ id :: usedIds := by
      intro i hi hmem
      rcases List.mem_cons.mp hmem with hid | hused
      · rcases horigin with htrim | hgenerated
        · exact hfresh i profile (List.mem_cons_self ..) (hid.trans htrim)
        · have hsame := generatedId_inj (hid.trans hgenerated)
          omega
      · exact hunused i (by omega) hused
    obtain ⟨hgood, hout⟩ := ih (id :: usedIds) (index + 1)
      (fun i p hp => hfresh i p (List.mem_cons_of_mem _ hp)) hunused'
    refine ⟨⟨?_, ?_⟩, ?_⟩
    · rw [List.map_cons, List.nodup_cons]
      refine ⟨?_, hgood.1⟩
      intro hmem
      obtain ⟨other, hother, hid⟩ := List.mem_map.mp hmem
      apply hout other hother
      rw [hid]
      exact List.mem_cons_self ..
    · intro other hother
      rcases List.mem_cons.mp hother with rfl | hrest
      · exact husable
      · exact hgood.2 other hrest
    · intro other hother
      rcases List.mem_cons.mp hother with rfl | hrest
      · exact hnew
      · exact fun hused => hout other hrest (List.mem_cons_of_mem _ hused)

variable {profiles : List SshProfile}

theorem goodIds_dedupeProfileIds (hfresh : FreshIds clock profiles) : GoodIds (dedupeProfileIds clock profiles) :=
  (goodIds_dedupeFrom profiles [] 0 hfresh (by simp)).1

theorem dedupeFrom_of_goodIds (profiles : List SshProfile) : ∀ (usedIds : List String) (index : Nat), GoodIds profiles →
    (∀ profile ∈ profiles, profile.id ∉ usedIds) →
    dedupeFrom clock usedIds index profiles = profiles := by
  induction profiles with
  | nil =>
    intro usedIds index _ _
    rfl
  | cons profile rest ih =>
    intro usedIds index ⟨hnodup, husable⟩ hnew
    obtain ⟨htrim, hne⟩ := husable profile (List.mem_cons_self ..)
    rw [List.map_cons, List.nodup_cons] at hnodup
    have hown : dartTrim profile.id ≠ "" ∧ dartTrim profile.id ∉ usedIds := by
      rw [htrim]
      exact ⟨hne, hnew profile (List.mem_cons_self ..)⟩
    have hid : uniqueProfileId (generatedId clock index) profile.id usedIds = profile.id := by
      unfold uniqueProfileId
      simp only [if_pos hown]
      exact htrim
    have hrest := ih (profile.id :: usedIds) (index + 1)
      ⟨hnodup.2, fun p hp => husable p (List.mem_cons_of_mem _ hp)⟩ (by
        intro p hp
        rw [List.mem_cons, not_or]
        refine ⟨?_, hnew p (List.mem_cons_of_mem _ hp)⟩
        intro hsame
        exact hnodup.1 (List.mem_map.mpr ⟨p, hp, hsame⟩))
    rw [dedupeFrom]
    simp only [hid, hrest]

theorem loadProfiles_profilesText (readDouble : String → String) (clock : Nat → Nat) (hgood : GoodIds profiles) :
    loadProfiles readDouble clock (some (profilesText SshProfile.toEntries profiles)) = profiles := by
  unfold loadProfiles dedupeProfileIds
  rw [readProfiles_profilesText SshProfile.plain_toEntries (f := id) SshProfile.fromEntries_toEntries, List.map_id]
  exact dedupeFrom_of_goodIds profiles [] 0 hgood (by simp)

theorem loadRdpProfiles_profilesText (readDouble : String → String) (profiles : List RdpProfile) :
    loadRdpProfiles readDouble (some (profilesText RdpProfile.toEntries profiles)) =
      profiles.map fun profile => { profile with password := none } :=
  readProfiles_profilesText RdpProfile.plain_toEntries RdpProfile.fromEntries_toEntries profiles

theorem goodIds_insertProfile {saved : SshProfile} (hgood : GoodIds profiles) (husable : UsableId saved.id) :
    GoodIds (insertProfile SshProfile.id saved profiles) := by
  refine ⟨nodup_insertProfile hgood.1, ?_⟩
  intro profile hmem
  rcases mem_insertProfile hmem with rfl | hold
  · exact husable
  · exact hgood.2 profile hold

theorem goodIds_removeProfile {id : String} (hgood : GoodIds profiles) :
    GoodIds (removeProfile SshProfile.id id profiles) :=
  ⟨nodup_removeProfile hgood.1, fun profile hmem => hgood.2 profile (mem_removeProfile.mp hmem).1⟩

/-- The ids are good, and once the list was written the file holds it. -/
structure SshRun.Kept (s : SshRun) : Prop where
  good : GoodIds s.repository.profiles
  text : s.written = true →
    s.repository.file = some (profilesText SshProfile.toEntries s.repository.profiles)

variable {readDouble : String → String}

theorem SshRun.kept_step {s s' : SshRun} {call : RepositoryCall}
    {o : List RepositoryCall} (hkept : s.Kept) (hproper : s.Proper call)
    (hstep : SshRun.step readDouble s call = some (s', o)) : s'.Kept := by
  cases call with
  | save service profile =>
    cases hstep
    cases hrefused : profile.refused with
    | true =>
      rw [SshProfileRepository.saveProfile_refused hrefused]
      refine ⟨hkept.good, ?_⟩
      simpa only [Bool.not_true, Bool.or_false] using hkept.text
    | false =>
      have husable : UsableId profile.saved.id := by
        rw [SshProfile.saved_id]
        exact hproper
      rw [SshProfileRepository.saveProfile_accepted hrefused]
      exact ⟨goodIds_insertProfile hkept.good husable, fun _ => rfl⟩
  | delete id =>
    cases hstep
    exact ⟨goodIds_removeProfile hkept.good, fun _ => rfl⟩
  | savePassword service profileId password =>
    cases hstep
    exact ⟨hkept.good, hkept.text⟩
  | restart clock =>
    cases hstep
    have hsame : loadProfiles readDouble clock s.repository.file = s.repository.profiles := by
      rw [hkept.text hproper, loadProfiles_profilesText readDouble clock hkept.good]
    unfold SshProfileRepository.restart
    simp only [hsame]
    exact ⟨hkept.good, hkept.text⟩

theorem SshRun.kept_of_reaches {file : Option String} {secrets : ProfileSecretStore} {s : SshRun}
    {h : List RepositoryCall}
    (hfresh : FreshIds clock (readProfiles readDouble SshProfile.fromEntries file))
    (hreach : Reaches (SshRun.step readDouble) SshRun.Proper
      (SshRun.start readDouble clock file secrets) h s) : s.Kept := by
  have hstart : (SshRun.start readDouble clock file secrets).Kept :=
    ⟨goodIds_dedupeProfileIds hfresh, fun hwritten => by cases hwritten⟩
  exact hreach.invariant (I := fun _ s => s.Kept) hstart
    (fun hkept hproper hstep => SshRun.kept_step hkept hproper hstep)

/-- Once the list of RDP profiles was written the file holds it. -/
def RdpRun.Kept (s : RdpRun) : Prop :=
  s.written = true →
    s.repository.file = some (profilesText RdpProfile.toEntries s.repository.profiles)

theorem profilesText_clearPassword (profiles : List RdpProfile) :
    profilesText RdpProfile.toEntries (profiles.map fun profile => { profile with password := none }) =
      profilesText RdpProfile.toEntries profiles := by
  unfold profilesText
  rw [List.map_map]
  rfl

theorem RdpRun.kept_step {s s' : RdpRun} {call : RdpRepositoryCall}
    {o : List RdpRepositoryCall} (hkept : s.Kept) (hproper : s.Proper call)
    (hstep : RdpRun.step readDouble s call = some (s', o)) : s'.Kept := by
  cases call with
  | save profile =>
    cases hstep
    cases hrefused : profile.refused with
    | some message =>
      rw [RdpProfileRepository.saveProfile_refused hrefused, Option.isNone_some, Bool.or_false]
      exact hkept
    | none =>
      rw [RdpProfileRepository.saveProfile_accepted hrefused]
      intro _
      rfl
  | delete id =>
    cases hstep
    intro _
    rfl
  | restart =>
    cases hstep
    intro hwritten
    show s.repository.file = some (profilesText RdpProfile.toEntries
      (loadRdpProfiles readDouble s.repository.file))
    rw [hkept hwritten, loadRdpProfiles_profilesText, profilesText_clearPassword]

theorem RdpRun.kept_of_reaches {file : Option String} {s : RdpRun} {h : List RdpRepositoryCall}
    (hreach : Reaches (RdpRun.step readDouble) RdpRun.Proper (RdpRun.start readDouble file) h s) :
    s.Kept := by
  have hstart : (RdpRun.start readDouble file).Kept := fun hwritten => by cases hwritten
  exact hreach.invariant (I := fun _ s => s.Kept) hstart
    (fun hkept hproper hstep => RdpRun.kept_step hkept hproper hstep)

theorem RdpRun.reload {s : RdpRun} (hkept : s.Kept)
    (hwritten : s.written = true) : (s.repository.restart readDouble).profiles =
      s.repository.profiles.map fun profile => { profile with password := none } := by
  show loadRdpProfiles readDouble s.repository.file = _
  rw [hkept hwritten]
  exact loadRdpProfiles_profilesText readDouble s.repository.profiles

/-- Once the list in memory was written, it is the one that is read when the program is started
again, its ids distinct; of RDP profiles, without the password typed in. -/
theorem profiles_survive_restart (readDouble : String → String) (clock : Nat → Nat)
    (file rdpFile : Option String) (secrets : ProfileSecretStore)
    (hfresh : FreshIds clock (readProfiles readDouble SshProfile.fromEntries file)) :
    (∀ (h : List RepositoryCall) (s : SshRun),
      Reaches (SshRun.step readDouble) SshRun.Proper (SshRun.start readDouble clock file secrets) h s →
      (s.repository.profiles.map SshProfile.id).Nodup ∧
        (s.written = true → ∀ later : Nat → Nat,
          (s.repository.restart readDouble later).profiles = s.repository.profiles)) ∧
    ∀ (h : List RdpRepositoryCall) (s : RdpRun),
      Reaches (RdpRun.step readDouble) RdpRun.Proper (RdpRun.start readDouble rdpFile) h s →
      s.written = true → (s.repository.restart readDouble).profiles =
        s.repository.profiles.map fun profile => { profile with password := none } := by
  constructor
  · intro h s hreach
    have hkept := SshRun.kept_of_reaches hfresh hreach
    refine ⟨hkept.good.1, ?_⟩
    intro hwritten later
    show loadProfiles readDouble later s.repository.file = s.repository.profiles
    rw [hkept.text hwritten]
    exact loadProfiles_profilesText readDouble later hkept.good
  · intro h s hreach hwritten
    exact RdpRun.reload (RdpRun.kept_of_reaches hreach) hwritten

def profileWithId (id : String) : SshProfile where
  id := id
  name := "web"
  host := "10.0.0.5"
  port := 22
  username := "root"
  group := "Production"
  tags := ["eu"]
  authMethod := .password
  credentialLabel := "s3cret"
  defaultPath := "~"
  status := .draft
  color := .green

theorem freshIds_repeated (readDouble : String → String) (clock : Nat → Nat) :
    FreshIds clock (readProfiles readDouble SshProfile.fromEntries
      (some (profilesText SshProfile.toEntries (["a", " a ", ""].map profileWithId)))) := by
  rw [readProfiles_profilesText SshProfile.plain_toEntries (f := id) SshProfile.fromEntries_toEntries, List.map_id]
  intro index profile hmem hid
  have htrim : dartTrim profile.id ∈ ["a", ""] := by
    obtain ⟨text, htext, rfl⟩ := List.mem_map.mp hmem
    have hall : ∀ text ∈ ["a", " a ", ""], dartTrim (profileWithId text).id ∈ ["a", ""] := by decide
    exact hall text htext
  have hfirst : ∀ text ∈ ["a", ""], text.toList.head? ≠ some 'p' := by decide
  apply hfirst _ htrim
  rw [← hid, toList_generatedId]
  rfl

/-- A profile is saved beside three that were in the file under a repeated and a blank id. -/
theorem profiles_survive_restart_repeated :
    ∃ s : SshRun, s.written = true ∧
      (s.repository.restart id (fun _ => 1)).profiles = s.repository.profiles := by
  let file := some (profilesText SshProfile.toEntries (["a", " a ", ""].map profileWithId))
  let s := SshRun.start id (fun _ => 0) file .empty
  have husable : s.Proper (.save .works (profileWithId "b")) := by
    show UsableId "b"
    decide
  have hreach : Reaches (SshRun.step id) SshRun.Proper s _ _ := .next .start husable rfl
  have hsurvive := (profiles_survive_restart id (fun _ => 0) file none .empty
    (freshIds_repeated id fun _ => 0)).1 _ _ hreach
  have hwritten : (false || !(profileWithId "b").refused) = true := by decide
  exact ⟨_, hwritten, hsurvive.2 hwritten (fun _ => 1)⟩

def rdpProfileWithPassword : RdpProfile where
  id := "rdp-1"
  name := "desk"
  host := "10.0.0.7"
  port := 3389
  username := "u"
  group := "RDP"
  tags := []
  color := .blue
  password := some "s3cret"

/-- The password typed into an RDP profile is in memory, and gone when the program is started
again. -/
theorem rdp_password_not_reloaded : ∃ h s,
    Reaches (RdpRun.step id) RdpRun.Proper (RdpRun.start id none) h s ∧ s.written = true ∧
      (s.repository.restart id).profiles ≠ s.repository.profiles := by
  let profiles := [rdpProfileWithPassword.saved]
  let s : RdpRun := ⟨⟨profiles, some (profilesText RdpProfile.toEntries profiles)⟩, true⟩
  have hnotRefused : rdpProfileWithPassword.refused = none := by decide
  have hstep : RdpRun.step id (RdpRun.start id none) (.save rdpProfileWithPassword) =
      some (s, [.save rdpProfileWithPassword]) := by
    show some ((⟨(RdpProfileRepository.saveProfile _ rdpProfileWithPassword).2, _⟩ : RdpRun), _) = _
    rw [RdpProfileRepository.saveProfile_accepted hnotRefused]
    rfl
  have hproper : (RdpRun.start id none).Proper (.save rdpProfileWithPassword) := trivial
  have hreach := Reaches.start.next hproper hstep
  refine ⟨_, s, hreach, rfl, ?_⟩
  rw [RdpRun.reload (RdpRun.kept_of_reaches hreach) rfl]
  decide

end Portix.Profiles
