import Portix.Profiles.SshProfile
import Portix.Profiles.SecretStore

/-!
# Whose secret is read

A profile reads its own last secret as long as no copy is left behind in the store that a call does
not write, and no two profiles share a file.
-/

namespace Portix.Profiles

open Lib

variable {id' password : String}

theorem passwordKey_inj {id : String} (h : passwordKey id = passwordKey id') : id = id' := by
  unfold passwordKey at h
  rw [← String.toList_inj, String.toList_append, String.toList_append, String.toList_append, String.toList_append] at h
  exact String.toList_inj.mp (List.append_cancel_left (List.append_cancel_right h))

namespace SecretRun

/-- The file of a profile, if there is one, was written for it. -/
def MayUseFile (s : SecretRun) (id : String) : Prop :=
  s.writer (sanitizeFileName id) = none ∨ s.writer (sanitizeFileName id) = some id

instance (s : SecretRun) (id : String) : Decidable (s.MayUseFile id) :=
  inferInstanceAs (Decidable (_ ∨ _))

/-- A call leaves no other secret of the profile in the store that it does not write, and does not use
the file of another profile. -/
def Undisturbed (s : SecretRun) : SecretCall → Prop
  | .save service id password =>
    if service = .works then s.writer (sanitizeFileName id) = some id →
      s.store.files (sanitizeFileName id) = some password
    else s.MayUseFile id ∧
      (s.store.keyring (passwordKey id) = none ∨ s.store.keyring (passwordKey id) = some password)
  | .read service id =>
    service = .works ∧ s.store.keyring (passwordKey id) ≠ none ∨ s.MayUseFile id
  | .delete service id =>
    service = .works ∨ s.MayUseFile id ∧ s.store.keyring (passwordKey id) = none

instance (s : SecretRun) (call : SecretCall) : Decidable (s.Undisturbed call) := by
  cases call <;> unfold Undisturbed <;> infer_instance

/-- The store holds for a profile what the last write says. -/
structure Holds (s : SecretRun) (id : String) (last : LastWrite) : Prop where
  keyring : s.store.keyring (passwordKey id) = none ∨ s.store.keyring (passwordKey id) = last.password
  file : s.writer (sanitizeFileName id) = some id →
    s.store.files (sanitizeFileName id) = last.password
  inKeyring : ∀ password steady, last = .saved .works password steady →
    s.store.keyring (passwordKey id) = some password
  inFile : ∀ service password, last = .saved service password true → service ≠ .works →
    s.writer (sanitizeFileName id) = some id

/-- No writer is known only of a file that does not exist. -/
def Written (s : SecretRun) : Prop := ∀ name, s.writer name = none → s.store.files name = none

theorem holds_initial (id : String) : initial.Holds id .never where
  keyring := .inl rfl
  file := by intro h; cases h
  inKeyring := by intro password steady h; cases h
  inFile := by intro service password h; cases h

variable {s : SecretRun} {id : String} {last : LastWrite}

theorem password_afterCall (service : SecretService) (last : LastWrite) :
    (last.afterCall service).password = last.password := by
  cases last <;> rfl

theorem saved_of_afterCall {service service' : SecretService} {steady : Bool}
    (h : last.afterCall service = .saved service' password steady) :
    ∃ steady', last = .saved service' password steady' ∧
      (steady = true → steady' = true ∧ (service = .works ↔ service' = .works)) := by
  cases last with
  | never => cases h
  | deleted => cases h
  | saved service₀ password₀ steady₀ =>
    simp only [LastWrite.afterCall, LastWrite.saved.injEq] at h
    obtain ⟨rfl, rfl, rfl⟩ := h
    refine ⟨steady₀, rfl, ?_⟩
    intro hsteady
    simpa using hsteady

theorem Holds.afterCall {s' : SecretRun} (hholds : s.Holds id last) (service : SecretService)
    (hkeyring : s'.store.keyring (passwordKey id) = s.store.keyring (passwordKey id))
    (hfile : s'.writer (sanitizeFileName id) = some id → s.writer (sanitizeFileName id) = some id ∧
        s'.store.files (sanitizeFileName id) = s.store.files (sanitizeFileName id))
    (hkept : service ≠ .works → s.writer (sanitizeFileName id) = some id → s'.writer (sanitizeFileName id) = some id) :
    s'.Holds id (last.afterCall service) where
  keyring := by rw [hkeyring, password_afterCall]; exact hholds.keyring
  file := by
    intro hwriter
    obtain ⟨hbefore, hsame⟩ := hfile hwriter
    rw [hsame, password_afterCall]
    exact hholds.file hbefore
  inKeyring := by
    intro password steady h
    obtain ⟨steady', hlast, -⟩ := saved_of_afterCall h
    rw [hkeyring]
    exact hholds.inKeyring password steady' hlast
  inFile := by
    intro service' password h hdown
    obtain ⟨steady', hlast, hsteady⟩ := saved_of_afterCall h
    obtain ⟨rfl, halike⟩ := hsteady rfl
    have hdown' : service ≠ .works := fun hworks => hdown (halike.mp hworks)
    exact hkept hdown' (hholds.inFile service' password hlast hdown)

theorem savePassword_works (store : ProfileSecretStore) (id password : String) :
    store.savePassword .works id password = { store with
      keyring := Function.update store.keyring (passwordKey id) (some password) } := rfl

variable {service : SecretService}

theorem savePassword_down (hdown : service ≠ .works) (store : ProfileSecretStore) (id password : String) :
    store.savePassword service id password = store.writeLinuxFileFallback id password := by
  cases service with
  | works => exact absurd rfl hdown
  | fails => rfl
  | missing => rfl

theorem deletePassword_down (hdown : service ≠ .works) (store : ProfileSecretStore) (id : String) :
    store.deletePassword service id = store.deleteLinuxFileFallback id := by
  cases service with
  | works => exact absurd rfl hdown
  | fails => rfl
  | missing => rfl

theorem readPassword_down (hdown : service ≠ .works) (store : ProfileSecretStore) (id : String) :
    store.readPassword service id = store.files (sanitizeFileName id) := by
  cases service with
  | works => exact absurd rfl hdown
  | fails => rfl
  | missing => rfl

theorem Holds.allows (hholds : s.Holds id last) (hwritten : s.Written) (hguard : s.Undisturbed (.read service id)) :
    last.Allows service (s.store.readPassword service id) := by
  have hfile : s.MayUseFile id → s.store.files (sanitizeFileName id) = none ∨
      s.store.files (sanitizeFileName id) = last.password := by
    rintro (hnone | hown)
    · exact .inl (hwritten _ hnone)
    · exact .inr (hholds.file hown)
  by_cases hworks : service = .works
  · subst hworks
    show last.Allows .works ((s.store.keyring (passwordKey id)).or _)
    cases hkey : s.store.keyring (passwordKey id) with
    | some password =>
      have hpassword := hholds.keyring
      rw [hkey] at hpassword
      exact ⟨hpassword, by simp⟩
    | none =>
      have hmay : s.MayUseFile id := hguard.resolve_left (fun h => h.2 hkey)
      refine ⟨hfile hmay, ?_⟩
      intro service' password hlast halike
      have hservice : service' = .works := halike.mp rfl
      subst hservice
      have hin := hholds.inKeyring password true hlast
      rw [hkey] at hin
      cases hin
  · have hmay : s.MayUseFile id := hguard.resolve_left (fun h => hworks h.1)
    rw [readPassword_down hworks]
    refine ⟨hfile hmay, ?_⟩
    intro service' password hlast halike
    have hdown : service' ≠ .works := fun h => hworks (halike.mpr h)
    have hown := hholds.inFile service' password hlast hdown
    rw [hholds.file hown, hlast]
    simp [LastWrite.password]

theorem keyring_update_of_ne {id : String} (hne : id ≠ id') (keyring : String → Option String) (value : Option String) :
    Function.update keyring (passwordKey id') value (passwordKey id) = keyring (passwordKey id) :=
  Function.update_of_ne (fun h => hne (passwordKey_inj h)) _ _

theorem holds_save_works (hholds : s.Holds id last) (hguard : s.Undisturbed (.save .works id' password)) :
    SecretRun.Holds ⟨s.store.savePassword .works id' password, s.writer⟩ id
      (last.afterObs id (.saved .works id' password)) := by
  rw [savePassword_works]
  by_cases hid : id' = id
  · subst hid
    have hfile : s.writer (sanitizeFileName id') = some id' →
        s.store.files (sanitizeFileName id') = some password := hguard
    rw [LastWrite.afterObs, if_pos rfl]
    constructor
    · exact .inr (Function.update_self ..)
    · exact hfile
    · rintro password' steady ⟨⟩
      exact Function.update_self ..
    · intro service password' h hdown
      exact absurd (LastWrite.saved.inj h).1.symm hdown
  · rw [LastWrite.afterObs, if_neg hid]
    apply hholds.afterCall
    · exact keyring_update_of_ne (Ne.symm hid) _ _
    · intro hwriter
      exact ⟨hwriter, rfl⟩
    · intro _ hwriter
      exact hwriter

theorem holds_save_down (hdown : service ≠ .works)
    (hholds : s.Holds id last) (hguard : s.Undisturbed (.save service id' password)) :
    SecretRun.Holds ⟨s.store.savePassword service id' password,
      Function.update s.writer (sanitizeFileName id') (some id')⟩ id
      (last.afterObs id (.saved service id' password)) := by
  rw [savePassword_down hdown]
  simp only [Undisturbed, if_neg hdown] at hguard
  by_cases hid : id' = id
  · subst hid
    rw [LastWrite.afterObs, if_pos rfl]
    constructor
    · exact hguard.2
    · intro _
      exact Function.update_self ..
    · intro password' steady h
      exact absurd (LastWrite.saved.inj h).1 hdown
    · intro service' password' h _
      exact Function.update_self ..
  · rw [LastWrite.afterObs, if_neg hid]
    apply hholds.afterCall
    · rfl
    · intro hwriter
      -- the file is not the one that was written: that one has another writer
      by_cases hname : sanitizeFileName id = sanitizeFileName id'
      · rw [hname] at hwriter
        simp only [Function.update_self, Option.some.injEq] at hwriter
        exact absurd hwriter hid
      · simp only [Function.update_of_ne hname] at hwriter
        exact ⟨hwriter, Function.update_of_ne hname ..⟩
    · intro _ hwriter
      have hname : sanitizeFileName id ≠ sanitizeFileName id' := by
        intro hname
        rw [hname] at hwriter
        rcases hguard.1 with hnone | hown
        · rw [hnone] at hwriter; cases hwriter
        · rw [hown] at hwriter; exact hid (Option.some.inj hwriter)
      simp only [Function.update_of_ne hname]
      exact hwriter

theorem holds_delete (hholds : s.Holds id last)
    (hguard : s.Undisturbed (.delete service id')) :
    SecretRun.Holds ⟨s.store.deletePassword service id',
      Function.update s.writer (sanitizeFileName id') none⟩ id
      (last.afterObs id (.deleted service id')) := by
  have hfiles : (s.store.deletePassword service id').files =
      Function.update s.store.files (sanitizeFileName id') none := by
    cases service <;> rfl
  by_cases hid : id' = id
  · subst hid
    have hkeyring : (s.store.deletePassword service id').keyring (passwordKey id') = none := by
      by_cases hworks : service = .works
      · subst hworks
        exact Function.update_self ..
      · rw [deletePassword_down hworks]
        exact (hguard.resolve_left hworks).2
    rw [LastWrite.afterObs, if_pos rfl]
    constructor
    · exact .inl hkeyring
    · intro hwriter
      simp only [Function.update_self] at hwriter
      cases hwriter
    · rintro password steady ⟨⟩
    · rintro service' password ⟨⟩
  · rw [LastWrite.afterObs, if_neg hid]
    apply hholds.afterCall
    · cases service with
      | works => exact keyring_update_of_ne (Ne.symm hid) _ _
      | fails => rfl
      | missing => rfl
    · intro hwriter
      by_cases hname : sanitizeFileName id = sanitizeFileName id'
      · rw [hname] at hwriter
        simp only [Function.update_self] at hwriter
        cases hwriter
      · simp only [Function.update_of_ne hname] at hwriter
        exact ⟨hwriter, by simp only [hfiles, Function.update_of_ne hname]⟩
    · intro hdown hwriter
      have hmay := (hguard.resolve_left hdown).1
      have hname : sanitizeFileName id ≠ sanitizeFileName id' := by
        intro hname
        rw [hname] at hwriter
        rcases hmay with hnone | hown
        · rw [hnone] at hwriter; cases hwriter
        · rw [hown] at hwriter; exact hid (Option.some.inj hwriter)
      simp only [Function.update_of_ne hname]
      exact hwriter

theorem written_update {writer files : String → Option String} (name : String)
    (hwritten : ∀ name, writer name = none → files name = none) {w f : Option String}
    (hnew : w = none → f = none) :
    ∀ name', Function.update writer name w name' = none → Function.update files name f name' = none := by
  intro name' h
  by_cases hname : name' = name
  · subst hname
    rw [Function.update_self] at h ⊢
    exact hnew h
  · rw [Function.update_of_ne hname] at h ⊢
    exact hwritten name' h

theorem holds_step {s' : SecretRun} {call : SecretCall} {o : List SecretObs}
    {last : String → LastWrite} (hholds : ∀ id, s.Holds id (last id)) (hwritten : s.Written)
    (hguard : s.Undisturbed call) (hstep : s.step call = some (s', o)) :
    (∀ id, s'.Holds id (o.foldl (LastWrite.afterObs id) (last id))) ∧ s'.Written := by
  cases call with
  | save service id' password =>
    cases hstep
    by_cases hworks : service = .works
    · subst hworks
      exact ⟨fun id => holds_save_works (hholds id) hguard, hwritten⟩
    · rw [if_neg hworks]
      refine ⟨fun id => holds_save_down hworks (hholds id) hguard, ?_⟩
      rw [savePassword_down hworks]
      exact written_update _ hwritten (fun h => by cases h)
  | read service id' =>
    cases hstep
    refine ⟨fun id => ?_, hwritten⟩
    exact (hholds id).afterCall service rfl (fun h => ⟨h, rfl⟩) (fun _ h => h)
  | delete service id' =>
    cases hstep
    refine ⟨fun id => holds_delete (hholds id) hguard, ?_⟩
    have hfiles : (s.store.deletePassword service id').files =
        Function.update s.store.files (sanitizeFileName id') none := by
      cases service <;> rfl
    intro name
    rw [hfiles]
    exact written_update _ hwritten (fun _ => rfl) name

theorem holds_run {h : List SecretObs} (hreach : Reaches step Undisturbed initial h s) :
    (∀ id, s.Holds id (lastWrite id h)) ∧ s.Written := by
  refine hreach.invariant (I := fun h s => (∀ id, s.Holds id (lastWrite id h)) ∧ s.Written) ?_ ?_
  · exact ⟨holds_initial, fun _ _ => rfl⟩
  · rintro h s call s' o ⟨hholds, hwritten⟩ hguard hstep
    have hnext := holds_step hholds hwritten hguard hstep
    simpa only [lastWrite, List.foldl_append] using hnext

end SecretRun

theorem secret_is_last_saved (h : List SecretObs) (s : SecretRun)
    (hreach : Reaches SecretRun.step SecretRun.Undisturbed .initial h s)
    (before after : List SecretObs) (service : SecretService) (id : String) (answer : Option String)
    (hread : h = before ++ .answered service id answer :: after) :
    (lastWrite id before).Allows service answer := by
  refine hreach.observed (Q := fun before x => ∀ service id answer,
    x = .answered service id answer → (lastWrite id before).Allows service answer) ?_ hread service id
    answer rfl
  intro h s call s' o1 x o2 hreach hguard hstep service id answer hx
  obtain ⟨hholds, hwritten⟩ := SecretRun.holds_run hreach
  subst hx
  cases call with
  | save service' id' password =>
    obtain ⟨-, ho⟩ := some_mk_inj hstep
    cases o1 <;> simp at ho
  | read service' id' =>
    obtain ⟨-, ho⟩ := some_mk_inj hstep
    have ho1 : o1 = [] := by cases o1 <;> simp at ho ⊢
    subst ho1
    obtain ⟨rfl, rfl, rfl⟩ := SecretObs.answered.inj (List.cons.inj ho).1
    rw [List.append_nil]
    exact (hholds _).allows hwritten hguard
  | delete service' id' =>
    obtain ⟨-, ho⟩ := some_mk_inj hstep
    cases o1 <;> simp at ho

/-- A password saved in the keyring and one saved in a file are read back. -/
theorem secret_is_last_saved_twice : ∃ h s,
    Reaches SecretRun.step SecretRun.Undisturbed .initial h s ∧
    (lastWrite "a" (h.take 2)).Allows .works (some "x") ∧
    (lastWrite "b.c" (h.take 3)).Allows .fails (some "y") := by
  obtain ⟨h, s, hreach, hanswers⟩ := Reaches.exists_history SecretRun.step
    (G := SecretRun.Undisturbed) .initial
    (P := fun h _ => h = h.take 2 ++ .answered .works "a" (some "x") :: h.drop 3 ∧
      h = h.take 3 ++ .answered .fails "b.c" (some "y") :: h.drop 4)
    (fun s call => s.Undisturbed call) (fun s call hcheck => of_decide_eq_true hcheck)
    [.save .works "a" "x", .save .fails "b.c" "y", .read .works "a", .read .fails "b.c"]
    (by decide)
  exact ⟨h, s, hreach, secret_is_last_saved h s hreach _ _ _ _ _ hanswers.1,
    secret_is_last_saved h s hreach _ _ _ _ _ hanswers.2⟩

def dottedProfile : SshProfile := quickConnectProfile ⟨"u", "a.b", 22⟩

def underscoredProfile : SshProfile := quickConnectProfile ⟨"u", "a_b", 22⟩

/-- Without a keyring, the password saved for one of them is read for the other. -/
theorem secret_of_other_profile : ¬ ∀ h s,
    Reaches SecretRun.step (fun _ _ => True) .initial h s →
    ∀ before after service id answer, h = before ++ .answered service id answer :: after →
      (lastWrite id before).Allows service answer := by
  intro hclaim
  obtain ⟨h, s, hreach, hanswer, hlast⟩ := Reaches.exists_history SecretRun.step
    (G := fun _ _ => True) .initial
    (P := fun h _ => h = h.take 1 ++ .answered .fails underscoredProfile.id (some "pw") :: h.drop 2 ∧
      (lastWrite underscoredProfile.id (h.take 1)).password = none)
    (fun _ _ => true) (fun _ _ _ => trivial)
    [.save .fails dottedProfile.id "pw", .read .fails underscoredProfile.id] (by decide +kernel)
  have hallows := (hclaim h s hreach _ _ _ _ _ hanswer).1
  rw [hlast] at hallows
  simp at hallows

end Portix.Profiles
