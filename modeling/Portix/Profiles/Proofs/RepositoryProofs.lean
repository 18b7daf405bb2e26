import Portix.Lib.Proofs.JsonProofs
import Portix.Profiles.RdpRepository

/-!
# Saving and deleting profiles

What they do to a list, to its ids and to the other profiles, and what a call of a repository does.
-/

namespace Portix.Profiles

section Lists

variable {α : Type} {id : α → String}

theorem insertProfile_cases (id : α → String) (saved : α) (profiles : List α) :
    (∃ before old after, profiles = before ++ old :: after ∧ id old = id saved ∧
      (∀ item ∈ before, id item ≠ id saved) ∧
      insertProfile id saved profiles = before ++ saved :: after) ∨
    ((∀ item ∈ profiles, id item ≠ id saved) ∧ insertProfile id saved profiles = saved :: profiles) := by
  unfold insertProfile
  cases hfind : profiles.findIdx? fun item => id item = id saved with
  | none =>
    right
    have hnot := List.findIdx?_eq_none_iff.mp hfind
    exact ⟨fun item hitem => of_decide_eq_false (hnot item hitem), rfl⟩
  | some index =>
    left
    obtain ⟨hlt, hid, hbefore⟩ := List.findIdx?_eq_some_iff_getElem.mp hfind
    refine ⟨profiles.take index, profiles[index], profiles.drop (index + 1), ?_, of_decide_eq_true hid, ?_, ?_⟩
    · rw [List.getElem_cons_drop, List.take_append_drop]
    · intro item hitem
      obtain ⟨j, hj, rfl⟩ := List.mem_take_iff_getElem.mp hitem
      have hlt' : j < index := by omega
      have hother := hbefore j hlt'
      simpa using hother
    · exact List.set_eq_take_append_cons_drop.trans (if_pos hlt)

variable {profiles : List α} {saved item : α}

theorem mem_insertProfile (hmem : item ∈ insertProfile id saved profiles) : item = saved ∨ item ∈ profiles := by
  rcases insertProfile_cases id saved profiles with ⟨before, old, after, rfl, _, _, heq⟩ | ⟨_, heq⟩
  · rw [heq, List.mem_append, List.mem_cons] at hmem
    rw [List.mem_append, List.mem_cons]
    tauto
  · rw [heq, List.mem_cons] at hmem
    exact hmem

theorem self_mem_insertProfile (saved : α) (profiles : List α) : saved ∈ insertProfile id saved profiles := by
  rcases insertProfile_cases id saved profiles with ⟨before, old, after, _, _, _, heq⟩ | ⟨_, heq⟩
  · rw [heq]
    exact List.mem_append_right _ (List.mem_cons_self ..)
  · rw [heq]
    exact List.mem_cons_self ..

theorem mem_insertProfile_of_ne (hmem : item ∈ profiles)
    (hne : id item ≠ id saved) : item ∈ insertProfile id saved profiles := by
  rcases insertProfile_cases id saved profiles with
    ⟨before, old, after, rfl, hid, _, heq⟩ | ⟨_, heq⟩
  · rw [heq, List.mem_append, List.mem_cons]
    rw [List.mem_append, List.mem_cons] at hmem
    rcases hmem with hbefore | rfl | hafter
    · exact .inl hbefore
    · exact absurd hid hne
    · exact .inr (.inr hafter)
  · rw [heq]
    exact List.mem_cons_of_mem _ hmem

theorem map_id_insertProfile (id : α → String) (saved : α) (profiles : List α) :
    (insertProfile id saved profiles).map id = profiles.map id ∨
      (id saved ∉ profiles.map id ∧
        (insertProfile id saved profiles).map id = id saved :: profiles.map id) := by
  rcases insertProfile_cases id saved profiles with
    ⟨before, old, after, rfl, hid, _, heq⟩ | ⟨hnew, heq⟩
  · left
    rw [heq, List.map_append, List.map_append, List.map_cons, List.map_cons, hid]
  · right
    refine ⟨?_, by rw [heq, List.map_cons]⟩
    intro hmem
    obtain ⟨item, hitem, hid⟩ := List.mem_map.mp hmem
    exact hnew item hitem hid

theorem nodup_insertProfile (hnodup : (profiles.map id).Nodup) : ((insertProfile id saved profiles).map id).Nodup := by
  rcases map_id_insertProfile id saved profiles with heq | ⟨hnew, heq⟩
  · rwa [heq]
  · rw [heq]
    exact List.nodup_cons.mpr ⟨hnew, hnodup⟩

theorem mem_removeProfile {profileId : String} :
    item ∈ removeProfile id profileId profiles ↔ item ∈ profiles ∧ id item ≠ profileId := by
  unfold removeProfile
  rw [List.mem_filter, decide_eq_true_iff]

theorem nodup_removeProfile {profileId : String} (hnodup : (profiles.map id).Nodup) :
    ((removeProfile id profileId profiles).map id).Nodup :=
  hnodup.sublist (List.filter_sublist.map id)

end Lists

@[simp] theorem SshProfile.saved_id (profile : SshProfile) : profile.saved.id = profile.id := by
  unfold SshProfile.saved
  cases profile.authMethod <;> rfl

namespace SshProfileRepository

variable {service : SecretService} {repository : SshProfileRepository} {profile : SshProfile}

theorem saveProfile_refused (hrefused : profile.refused = true) :
    repository.saveProfile service profile =
      (.error "Profile name and host are required.", repository) := if_pos hrefused

theorem saveProfile_accepted (haccepted : profile.refused = false) :
    repository.saveProfile service profile =
      (.ok profile.saved,
        { profiles := insertProfile SshProfile.id profile.saved repository.profiles
          secrets := profile.storeSecret service repository.secrets
          file := some (profilesText SshProfile.toEntries
            (insertProfile SshProfile.id profile.saved repository.profiles)) }) := by
  unfold saveProfile
  rw [if_neg (Bool.eq_false_iff.mp haccepted)]
  rfl

end SshProfileRepository

namespace RdpProfileRepository

variable {repository : RdpProfileRepository} {profile : RdpProfile}

theorem saveProfile_refused {message : String} (hrefused : profile.refused = some message) :
    repository.saveProfile profile = (.error message, repository) := by
  unfold saveProfile
  rw [hrefused]

theorem saveProfile_accepted (haccepted : profile.refused = none) : repository.saveProfile profile = (.ok profile.saved,
        { profiles := insertProfile RdpProfile.id profile.saved repository.profiles
          file := some (profilesText RdpProfile.toEntries
            (insertProfile RdpProfile.id profile.saved repository.profiles)) }) := by
  unfold saveProfile
  rw [haccepted]
  rfl

end RdpProfileRepository

-- A profile is read back from what was written of it, and what an object says in the right types is written again as
-- it was.

open Lib

@[simp] theorem toTextOr_string (s fallback : String) : (Json.string s).toTextOr fallback = s := rfl

@[simp] theorem toIntOr_int (n fallback : Int64) : (Json.int n).toIntOr fallback = n := by
  show (intTryParse (intText n)).getD fallback = n
  rw [intTryParse_intText]
  rfl

@[simp] theorem isTrue_bool (b : Bool) : (Json.bool b).isTrue = b := rfl

@[simp] theorem asBool?_bool (b : Bool) : (Json.bool b).asBool? = some (some b) := rfl

@[simp] theorem asList?_list (items : List Json) : (Json.list items).asList? = some items := rfl

variable (value : Option String)

@[simp] theorem asString?_ofString? : (Json.ofString? value).asString? = some value := by
  cases value <;> rfl

@[simp] theorem toText?_ofString? : (Json.ofString? value).toText? = value := by
  cases value <;> rfl

@[simp] theorem map_toText_string (texts : List String) :
    texts.map (Json.toText ∘ Json.string) = texts := List.map_id texts

theorem enumValue_name {α : Type} {name : α → String} {values : List α} {item : α} (fallback : α)
    (hmem : item ∈ values) (hinj : ∀ a ∈ values, name a = name item → a = item) :
    Json.enumValue name values (.string (name item)) fallback = item := by
  unfold Json.enumValue
  cases hfind : values.find? fun a => (Json.string (name item)).isString (name a) with
  | none =>
    have hnot := List.find?_eq_none.mp hfind item hmem
    exact absurd (beq_self_eq_true _) hnot
  | some a =>
    have hfound := List.find?_some hfind
    have hname : name item = name a := eq_of_beq hfound
    exact hinj a (List.mem_of_find?_eq_some hfind) hname.symm

@[simp] theorem enumValue_authMethod (m fallback : AuthMethod) :
    Json.enumValue AuthMethod.name AuthMethod.values (.string m.name) fallback = m := by
  apply enumValue_name
  · cases m <;> decide
  · cases m <;> decide

@[simp] theorem enumValue_connectionStatus (s fallback : ConnectionStatus) :
    Json.enumValue ConnectionStatus.name ConnectionStatus.values (.string s.name) fallback = s := by
  apply enumValue_name
  · cases s <;> decide
  · cases s <;> decide

@[simp] theorem enumValue_profileColor (c fallback : ProfileColor) :
    Json.enumValue ProfileColor.name ProfileColor.values (.string c.name) fallback = c := by
  apply enumValue_name
  · cases c <;> decide
  · cases c <;> decide

@[simp] theorem enumValue_rdpStatus (s fallback : RdpProfileStatus) :
    Json.enumValue RdpProfileStatus.name RdpProfileStatus.values (.string s.name) fallback = s := by
  apply enumValue_name
  · cases s <;> decide
  · cases s <;> decide

@[simp] theorem enumValue_rdpColor (c fallback : RdpProfileColor) :
    Json.enumValue RdpProfileColor.name RdpProfileColor.values (.string c.name) fallback = c := by
  apply enumValue_name
  · cases c <;> decide
  · cases c <;> decide

theorem SshProfile.fromEntries_toEntries (profile : SshProfile) : fromEntries profile.toEntries = some profile := by
  simp [fromEntries, toEntries, Json.get, List.lookup_cons]

theorem RdpProfile.fromEntries_toEntries (profile : RdpProfile) :
    fromEntries profile.toEntries = some { profile with password := none } := by
  simp [fromEntries, toEntries, Json.get, List.lookup_cons]

theorem plainItems_strings (texts : List String) : Json.plainItems (texts.map .string) = true := by
  induction texts with
  | nil => rfl
  | cons text rest ih => simpa [Json.plainItems, Json.plain] using ih

theorem SshProfile.plain_toEntries (profile : SshProfile) : (Json.map profile.toEntries).plain = true := by
  have hkeys : (profile.toEntries.map Prod.fst).Nodup := by
    show List.Nodup ["id", "name", "host", "port", "username", "group", "tags", "authMethod",
      "credentialLabel", "defaultPath", "status", "color", "startupCommand", "terminalFontSize",
      "lastUsedLabel", "osIconAsset", "jumpProfileId", "forwardAgent", "runsKubernetes"]
    decide
  simp only [Json.plain, hkeys, decide_true, Bool.and_true]
  simp [toEntries, Json.plainEntries, Json.plain, plainItems_strings]

theorem plain_ofString? : (Json.ofString? value).plain = true := by
  cases value <;> rfl

theorem RdpProfile.plain_toEntries (profile : RdpProfile) : (Json.map profile.toEntries).plain = true := by
  have hkeys : (profile.toEntries.map Prod.fst).Nodup := by
    show List.Nodup ["id", "name", "host", "port", "username", "domain", "group", "tags", "color",
      "desktopWidth", "desktopHeight", "fullScreen", "redirectDrives", "redirectClipboard",
      "localSharePath", "localShareName", "alternateShell", "enableCredSsp", "sourceRdpFilePath",
      "status", "lastUsedLabel"]
    decide
  simp only [Json.plain, hkeys, decide_true, Bool.and_true]
  simp [toEntries, Json.plainEntries, Json.plain, plainItems_strings, plain_ofString?]

section Lists

variable {α : Type} {toEntries : α → JsonMap}
  {fromEntries : JsonMap → Option α} {readDouble : String → String}

theorem plainItems_map (hplain : ∀ a, (Json.map (toEntries a)).plain = true) (list : List α) :
    Json.plainItems (list.map fun a => .map (toEntries a)) = true := by
  induction list with
  | nil => rfl
  | cons a rest ih =>
    rw [List.map_cons, Json.plainItems, hplain a, ih]
    rfl

theorem decode_profilesText (hplain : ∀ a, (Json.map (toEntries a)).plain = true) (list : List α) :
    Json.decode readDouble (profilesText toEntries list) = some (.list (list.map fun a => .map (toEntries a))) := by
  apply Json.decode_encode
  rw [Json.plain]
  exact plainItems_map hplain list

theorem filterMap_asMap? (list : List α) :
    (list.map fun a => Json.map (toEntries a)).filterMap Json.asMap? = list.map toEntries := by
  induction list with
  | nil => rfl
  | cons a rest ih =>
    rw [List.map_cons, List.map_cons, ← ih]
    rfl

theorem mapM_map (f : α → α) (hback : ∀ a, fromEntries (toEntries a) = some (f a)) (list : List α) :
    (list.map toEntries).mapM fromEntries = some (list.map f) := by
  induction list with
  | nil => rfl
  | cons a rest ih =>
    rw [List.map_cons, List.mapM_cons, hback, ih]
    rfl

theorem readProfiles_profilesText (hplain : ∀ a, (Json.map (toEntries a)).plain = true)
    {f : α → α} (hback : ∀ a, fromEntries (toEntries a) = some (f a)) (list : List α) :
    readProfiles readDouble fromEntries (some (profilesText toEntries list)) = list.map f := by
  unfold readProfiles
  rw [Option.bind_some, decode_profilesText hplain]
  simp only [profilesOf, filterMap_asMap?, mapM_map f hback, Option.getD_some]

end Lists

end Portix.Profiles
