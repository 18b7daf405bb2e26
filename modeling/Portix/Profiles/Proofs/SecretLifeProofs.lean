import Portix.Profiles.Proofs.SecretStoreProofs
import Portix.Profiles.Proofs.RepositoryProofs

/-!
# Secrets that stay and secrets that go

A secret is lost where a key profile is saved again, as its passphrase has the slot that such a save
clears. A secret is left behind where its profile is deleted, as nothing clears the slot then.
-/

namespace Portix.Profiles

open Lib

section Reading

variable {secrets : ProfileSecretStore} {service service' : SecretService}
  {id id' password password' : String}

theorem readPassword_eq (secrets : ProfileSecretStore) (service : SecretService) (id : String) :
    secrets.readPassword service id =
      if service = .works then
        (secrets.keyring (passwordKey id)).or (secrets.files (sanitizeFileName id))
      else secrets.files (sanitizeFileName id) := by
  cases service <;> rfl

theorem keyring_savePassword (secrets : ProfileSecretStore) (service' : SecretService) (id id' password' : String) :
    (secrets.savePassword service' id' password').keyring (passwordKey id) =
      if service' = .works ∧ id' = id then some password' else secrets.keyring (passwordKey id) := by
  have hkey : passwordKey id = passwordKey id' ↔ id' = id :=
    ⟨fun h => (passwordKey_inj h).symm, fun h => by rw [h]⟩
  cases service' with
  | works => simp [ProfileSecretStore.savePassword, Function.update_apply, hkey]
  | fails | missing =>
    simp [ProfileSecretStore.savePassword, ProfileSecretStore.writeLinuxFileFallback]

theorem files_savePassword (secrets : ProfileSecretStore) (service' : SecretService) (id' password' name : String) :
    (secrets.savePassword service' id' password').files name =
      if service' ≠ .works ∧ sanitizeFileName id' = name then some password'
      else secrets.files name := by
  cases service' with
  | works => simp [ProfileSecretStore.savePassword]
  | fails | missing =>
    simp [ProfileSecretStore.savePassword, ProfileSecretStore.writeLinuxFileFallback, Function.update_apply, eq_comm]

theorem keyring_deletePassword (secrets : ProfileSecretStore) (service' : SecretService) (id id' : String) :
    (secrets.deletePassword service' id').keyring (passwordKey id) =
      if service' = .works ∧ id' = id then none else secrets.keyring (passwordKey id) := by
  have hkey : passwordKey id = passwordKey id' ↔ id' = id :=
    ⟨fun h => (passwordKey_inj h).symm, fun h => by rw [h]⟩
  cases service' with
  | works =>
    simp [ProfileSecretStore.deletePassword, ProfileSecretStore.deleteLinuxFileFallback, Function.update_apply, hkey]
  | fails | missing =>
    simp [ProfileSecretStore.deletePassword, ProfileSecretStore.deleteLinuxFileFallback]

theorem files_deletePassword (secrets : ProfileSecretStore) (service' : SecretService) (id' name : String) :
    (secrets.deletePassword service' id').files name =
      if sanitizeFileName id' = name then none else secrets.files name := by
  cases service' <;>
    simp [ProfileSecretStore.deletePassword, ProfileSecretStore.deleteLinuxFileFallback, Function.update_apply, eq_comm]

theorem read_savePassword_iff (hread : secrets.readPassword service id = some password) :
    (secrets.savePassword service' id' password').readPassword service id = some password ↔
      WriteSpares service id password secrets service' id' password' := by
  rw [readPassword_eq] at hread ⊢
  rw [keyring_savePassword, files_savePassword]
  unfold WriteSpares ReadFromKeyring
  by_cases hservice' : service' = .works
  · by_cases hid : id' = id
    · by_cases hservice : service = .works
      · simp [hservice, hservice', hid]
      · simpa [hservice, hservice', hid] using hread
    · simpa [hservice', hid] using hread
  · by_cases hname : sanitizeFileName id' = sanitizeFileName id
    · by_cases hservice : service = .works
      · cases hkey : secrets.keyring (passwordKey id) with
        | some stored => simpa [hservice, hservice', hkey] using hread
        | none => simp [hservice, hservice', hname]
      · simp [hservice, hservice', hname]
    · simpa [hservice', hname] using hread

theorem read_deletePassword_iff (hread : secrets.readPassword service id = some password) :
    (secrets.deletePassword service' id').readPassword service id = some password ↔
      ClearSpares service id secrets service' id' := by
  rw [readPassword_eq] at hread ⊢
  rw [keyring_deletePassword, files_deletePassword]
  unfold ClearSpares ReadFromKeyring
  by_cases hname : sanitizeFileName id' = sanitizeFileName id
  · by_cases hservice : service = .works
    · by_cases hcleared : service' = .works ∧ id' = id
      · simp [hservice, hcleared]
      · cases hkey : secrets.keyring (passwordKey id) with
        | some stored =>
          have hstored : stored = password := by simpa [hservice, hkey] using hread
          simp [hservice, hname, hcleared, hstored]
          tauto
        | none => simp [hservice, hname, hcleared]
    · simp [hservice, hname]
  · have hid : ¬id' = id := fun h => hname (by rw [h])
    simpa [hname, hid] using hread

end Reading

section Calls

variable {readDouble : String → String} {s s' : SshRun} {call : RepositoryCall}
  {o : List RepositoryCall} {service : SecretService} {id password : String}

theorem secrets_saveProfile (service' : SecretService) (repository : SshProfileRepository) (profile : SshProfile) :
    (repository.saveProfile service' profile).2.secrets =
      if profile.refused then repository.secrets
      else profile.storeSecret service' repository.secrets := by
  cases hrefused : profile.refused with
  | true => rw [SshProfileRepository.saveProfile_refused hrefused, if_pos rfl]
  | false => rw [SshProfileRepository.saveProfile_accepted hrefused, if_neg Bool.false_ne_true]

theorem read_step_iff (hread : s.repository.secrets.readPassword service id = some password)
    (hstep : SshRun.step readDouble s call = some (s', o)) :
    s'.repository.secrets.readPassword service id = some password ↔ s.Spares service id password call := by
  cases call with
  | save service' profile =>
    cases hstep
    rw [secrets_saveProfile]
    cases hrefused : profile.refused with
    | true => exact iff_of_true hread (.inl hrefused)
    | false =>
      simp only [SshRun.Spares, SshProfile.storeSecret, hrefused, Bool.false_eq_true, if_false, false_or]
      cases profile.authMethod with
      | password =>
        cases htyped : profile.typedPassword with
        | none => simpa using hread
        | some typed => simpa using read_savePassword_iff hread
      | sshKey => exact read_deletePassword_iff hread
  | delete id' =>
    cases hstep
    exact iff_of_true hread trivial
  | savePassword service' id' password' =>
    cases hstep
    exact read_savePassword_iff hread
  | restart clock =>
    cases hstep
    exact iff_of_true hread trivial

/-- A secret is read, and stays what it is, through any calls that do not release it and spare it; of
the calls that do not release it no others leave it so. -/
theorem secret_stays (readDouble : String → String) (service : SecretService) (id password : String)
    (s : SshRun) (hread : s.repository.secrets.readPassword service id = some password) :
    (∀ h s', Reaches (SshRun.step readDouble)
      (fun s call => ¬s.Releases id password call ∧ s.Spares service id password call) s h s' →
      s'.repository.secrets.readPassword service id = some password) ∧
    ∀ call s' o, ¬s.Releases id password call → SshRun.step readDouble s call = some (s', o) →
      (s'.repository.secrets.readPassword service id = some password ↔
        s.Spares service id password call) := by
  constructor
  · intro h s' hreach
    exact hreach.invariant
      (I := fun _ s => s.repository.secrets.readPassword service id = some password) hread
      (fun hread hguard hstep => (read_step_iff hread hstep).mpr hguard.2)
  · intro call s' o _ hstep
    exact read_step_iff hread hstep

end Calls

def keyProfile : SshProfile where
  id := "profile-1"
  name := "web"
  host := "10.0.0.5"
  port := 22
  username := "root"
  group := "Production"
  tags := []
  authMethod := .sshKey
  credentialLabel := "~/.ssh/id_ed25519"
  defaultPath := "~"
  status := .draft
  color := .green

def passphraseStored : SshRun :=
  let s := SshRun.start id (fun _ => 0) none .empty
  let saved := (s.repository.saveProfile .works keyProfile).2
  ⟨{ saved with secrets := saved.secrets.savePassword .works "profile-1" "s3cret" }, true⟩

/-- A login to another host does not take the passphrase away. -/
theorem secret_stays_after_login : ∃ s',
    SshRun.step id passphraseStored (.savePassword .works "quick-u@h" "pw") =
      some (s', [.savePassword .works "quick-u@h" "pw"]) ∧
    s'.repository.secrets.readPassword .works "profile-1" = some "s3cret" := by
  have hread : passphraseStored.repository.secrets.readPassword .works "profile-1" =
      some "s3cret" := by decide
  have hstays := (secret_stays id .works "profile-1" "s3cret" passphraseStored hread).1
  refine ⟨_, rfl, hstays _ _ (.next (e := .savePassword .works "quick-u@h" "pw") .start ?_ rfl)⟩
  constructor
  · rintro ⟨hid, -⟩
    revert hid
    decide
  · right
    rw [if_pos rfl]
    intro hid
    exact absurd hid (by decide)

/-- The icon of the system that was detected is saved with the profile, and the passphrase is gone. -/
theorem passphrase_lost_after_detection : ∃ s',
    SshRun.step id passphraseStored (.save .works { keyProfile with osIconAsset := "debian" }) =
      some (s', [.save .works { keyProfile with osIconAsset := "debian" }]) ∧
    ¬passphraseStored.Releases "profile-1" "s3cret"
      (.save .works { keyProfile with osIconAsset := "debian" }) ∧
    passphraseStored.repository.secrets.readPassword .works "profile-1" = some "s3cret" ∧
    s'.repository.secrets.readPassword .works "profile-1" = none := by
  refine ⟨_, rfl, ?_, by decide, by decide⟩
  rintro ⟨-, -, ⟨stored, hstored, hmethod⟩ | ⟨hmethod, -⟩⟩
  · have hfound : (passphraseStored.repository.profiles.find? fun item => item.id = keyProfile.id) =
        some keyProfile.saved := by decide
    have hsame := Option.some.inj (hstored.symm.trans hfound)
    rw [hsame] at hmethod
    exact hmethod rfl
  · cases hmethod

section Orphans

variable {readDouble : String → String} {s s' : SshRun} {call : RepositoryCall}
  {o : List RepositoryCall} {secrets : ProfileSecretStore} {service service' : SecretService}
  {id id' password' : String}

theorem read_of_savePassword (hread : (secrets.savePassword service' id' password').readPassword service id ≠ none) :
    secrets.readPassword service id ≠ none ∨ id' = id ∨
      service' ≠ .works ∧ sanitizeFileName id' = sanitizeFileName id := by
  rw [readPassword_eq, keyring_savePassword, files_savePassword] at hread
  rw [readPassword_eq]
  by_cases hid : id' = id
  · exact .inr (.inl hid)
  · by_cases hfile : service' ≠ .works ∧ sanitizeFileName id' = sanitizeFileName id
    · exact .inr (.inr hfile)
    · left
      have hkeyring : ¬(service' = .works ∧ id' = id) := fun h => hid h.2
      rwa [if_neg hfile, if_neg hkeyring] at hread

theorem read_of_deletePassword (hread : (secrets.deletePassword service' id').readPassword service id ≠ none) :
    secrets.readPassword service id ≠ none := by
  rw [readPassword_eq, keyring_deletePassword, files_deletePassword] at hread
  rw [readPassword_eq]
  by_cases hservice : service = .works
  · rw [if_pos hservice] at hread ⊢
    cases hkey : secrets.keyring (passwordKey id) with
    | some stored => simp
    | none =>
      rw [hkey, ite_self, Option.none_or] at hread
      rw [Option.none_or]
      intro hnone
      exact hread (by rw [hnone, ite_self])
  · rw [if_neg hservice] at hread ⊢
    intro hnone
    exact hread (by rw [hnone, ite_self])

theorem mem_ids_insertProfile {saved : SshProfile} {profiles : List SshProfile} :
    id ∈ (insertProfile SshProfile.id saved profiles).map SshProfile.id ↔
      id = saved.id ∨ id ∈ profiles.map SshProfile.id := by
  have hself : saved.id ∈ (insertProfile SshProfile.id saved profiles).map SshProfile.id :=
    List.mem_map.mpr ⟨saved, self_mem_insertProfile saved profiles, rfl⟩
  rcases map_id_insertProfile SshProfile.id saved profiles with heq | ⟨-, heq⟩
  · rw [heq] at hself ⊢
    constructor
    · exact Or.inr
    · rintro (rfl | hmem)
      · exact hself
      · exact hmem
  · rw [heq, List.mem_cons]

theorem mem_ids_removeProfile {profiles : List SshProfile} :
    id ∈ (removeProfile SshProfile.id id' profiles).map SshProfile.id ↔ id ∈ profiles.map SshProfile.id ∧ id ≠ id' := by
  rw [List.mem_map, List.mem_map]
  constructor
  · rintro ⟨profile, hmem, rfl⟩
    obtain ⟨hold, hne⟩ := mem_removeProfile.mp hmem
    exact ⟨⟨profile, hold, rfl⟩, hne⟩
  · rintro ⟨⟨profile, hmem, rfl⟩, hne⟩
    exact ⟨profile, mem_removeProfile.mpr ⟨hmem, hne⟩, rfl⟩

theorem mem_ids_dedupeFrom (clock : Nat → Nat) {item : SshProfile} (profiles : List SshProfile) :
    ∀ (usedIds : List String) (index : Nat), item ∈ profiles → dartTrim item.id ≠ "" →
    dartTrim item.id ∈ usedIds ∨ dartTrim item.id ∈ (dedupeFrom clock usedIds index profiles).map SshProfile.id := by
  induction profiles with
  | nil =>
    rintro usedIds index ⟨⟩
  | cons first rest ih =>
    intro usedIds index hmem hne
    rw [dedupeFrom]
    simp only [List.map_cons, List.mem_cons]
    rcases List.mem_cons.mp hmem with rfl | hrest
    · by_cases hused : dartTrim item.id ∈ usedIds
      · exact .inl hused
      · have hid : uniqueProfileId (generatedId clock index) item.id usedIds = dartTrim item.id :=
          if_pos ⟨hne, hused⟩
        exact .inr (.inl hid.symm)
    · rcases ih (_ :: usedIds) (index + 1) hrest hne with hused | hlater
      · rcases List.mem_cons.mp hused with hfirst | hbefore
        · exact .inr (.inl hfirst)
        · exact .inl hbefore
      · exact .inr (.inr hlater)

theorem noOrphan_step (hclean : s.NoOrphan) (htidy : s.Tidy readDouble call)
    (hstep : SshRun.step readDouble s call = some (s', o)) : s'.NoOrphan := by
  cases call with
  | save service' profile =>
    cases hstep
    intro service id hread
    rw [secrets_saveProfile] at hread
    cases hrefused : profile.refused with
    | true =>
      rw [if_pos hrefused] at hread
      unfold SshRun.Has
      rw [SshProfileRepository.saveProfile_refused hrefused]
      exact hclean service id hread
    | false =>
      rw [if_neg (Bool.eq_false_iff.mp hrefused)] at hread
      unfold SshRun.Has
      rw [SshProfileRepository.saveProfile_accepted hrefused]
      apply mem_ids_insertProfile.mpr
      rw [SshProfile.saved_id]
      unfold SshProfile.storeSecret at hread
      cases hmethod : profile.authMethod with
      | sshKey =>
        rw [hmethod] at hread
        exact .inr (hclean service id (read_of_deletePassword hread))
      | password =>
        rw [hmethod] at hread
        cases htyped : profile.typedPassword with
        | none =>
          rw [htyped] at hread
          exact .inr (hclean service id hread)
        | some typed =>
          rw [htyped] at hread
          rcases read_of_savePassword hread with hbefore | rfl | ⟨hservice, hname⟩
          · exact .inr (hclean service id hbefore)
          · exact .inl rfl
          · rcases htidy with h | h | h | h | howns
            · rw [hrefused] at h
              cases h
            · rw [hmethod] at h
              cases h
            · rw [htyped] at h
              cases h
            · exact absurd h hservice
            · exact howns id hname.symm
  | delete id' =>
    cases hstep
    intro service id hread
    have hne : id ≠ id' := by
      rintro rfl
      exact hread (htidy service)
    exact mem_ids_removeProfile.mpr ⟨hclean service id hread, hne⟩
  | savePassword service' id' password' =>
    cases hstep
    obtain ⟨hhas, howns⟩ := htidy
    intro service id hread
    rcases read_of_savePassword hread with hbefore | rfl | ⟨hservice, hname⟩
    · exact hclean service id hbefore
    · exact hhas
    · rcases howns.resolve_left hservice id hname.symm with rfl | hother
      · exact hhas
      · exact hother
  | restart clock =>
    cases hstep
    intro service id hread
    obtain ⟨hne, item, hmem, rfl⟩ := htidy service id hread
    have hids := mem_ids_dedupeFrom clock _ [] 0 hmem hne
    exact hids.resolve_left List.not_mem_nil

/-- In a run whose calls are all tidy a secret is read only under the id of a profile, so that a profile
created later under an id starts without one. -/
theorem no_secret_outlives_profile (readDouble : String → String) (clock : Nat → Nat)
    (file : Option String) (h : List RepositoryCall) (s : SshRun)
    (hreach : Reaches (SshRun.step readDouble) (SshRun.Tidy readDouble)
      (SshRun.start readDouble clock file .empty) h s) : s.NoOrphan := by
  have hstart : (SshRun.start readDouble clock file .empty).NoOrphan := by
    intro service id hread
    exfalso
    apply hread
    cases service <;> rfl
  exact hreach.invariant (I := fun _ s => s.NoOrphan) hstart
    (fun hclean htidy hstep => noOrphan_step hclean htidy hstep)

end Orphans

def quickWithPassword : SshProfile :=
  { quickConnectProfile ⟨"u", "h", 22⟩ with credentialLabel := "pw" }

def quickSaved : SshRun :=
  ⟨((SshRun.start id (fun _ => 0) none .empty).repository.saveProfile .works quickWithPassword).2, true⟩

theorem step_quickSaved : SshRun.step id (SshRun.start id (fun _ => 0) none .empty) (.save .works quickWithPassword) =
      some (quickSaved, [.save .works quickWithPassword]) := by
  have hnotRefused : quickWithPassword.refused = false := by decide
  show some ((⟨_, false || !quickWithPassword.refused⟩ : SshRun), _) = _
  rw [hnotRefused]
  rfl

theorem no_secret_outlives_profile_quick : quickSaved.NoOrphan := by
  have htidy : (SshRun.start id (fun _ => 0) none .empty).Tidy id (.save .works quickWithPassword) :=
    .inr (.inr (.inr (.inl rfl)))
  exact no_secret_outlives_profile id (fun _ => 0) none _ _ (.next .start htidy step_quickSaved)

/-- The profile is saved and then deleted: the password is read under the id of no profile. -/
theorem secret_outlives_profile : ∃ h s,
    Reaches (SshRun.step id) (fun s call => ∀ service id password,
      call = .savePassword service id password → s.Has id)
      (SshRun.start id (fun _ => 0) none .empty) h s ∧ ¬s.NoOrphan := by
  refine ⟨_, _, .next (.next .start ?_ step_quickSaved) ?_ (e := .delete "quick-u@h") rfl, ?_⟩
  · rintro service id password ⟨⟩
  · rintro service id password ⟨⟩
  · intro hclean
    have hhas := hclean .works "quick-u@h" (by decide)
    revert hhas
    decide

end Portix.Profiles
