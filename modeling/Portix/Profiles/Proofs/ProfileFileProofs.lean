import Portix.Profiles.ProfileFile
import Portix.Profiles.Proofs.RepositoryProofs

/-!
# Saving one profile beside others

What an object says in the right types is written again as it was, if the list it is in was loaded at
all. A cast that throws for one object empties the list, and the next save writes only its own profile.
-/

namespace Portix.Profiles

open Lib

namespace FieldType

/-- A value of the type, read and written again, is the same value. -/
def ReadsBack (type : FieldType) (value written : Json) : Prop :=
  type.accepts value = true → type.namesItem value = true → written = value

variable {value : Json}

theorem readsBack_text (fallback : String) : text.ReadsBack value (.string (value.toTextOr fallback)) := by
  intro htyped _
  cases value with
  | string s => rfl
  | null | bool _ | int _ | double _ | list _ | map _ => cases htyped

theorem readsBack_int (fallback : Int64) : int.ReadsBack value (.int (value.toIntOr fallback)) := by
  intro htyped _
  cases value with
  | int n => rw [toIntOr_int]
  | null | bool _ | double _ | string _ | list _ | map _ => cases htyped

theorem readsBack_isTrue : bool.ReadsBack value (.bool value.isTrue) := by
  intro htyped _
  cases value with
  | bool b => rfl
  | null | int _ | double _ | string _ | list _ | map _ => cases htyped

theorem readsBack_asBool? {answer : Option Bool} (fallback : Bool)
    (hread : value.asBool? = some answer) : bool.ReadsBack value (.bool (answer.getD fallback)) := by
  intro htyped _
  cases value with
  | bool b =>
    cases hread
    rfl
  | null | int _ | double _ | string _ | list _ | map _ => cases htyped

theorem readsBack_toText? : optionalText.ReadsBack value (.ofString? value.toText?) := by
  intro htyped _
  cases value with
  | null => rfl
  | string s => rfl
  | bool _ | int _ | double _ | list _ | map _ => cases htyped

theorem readsBack_asString? {answer : Option String} (hread : value.asString? = some answer) :
    optionalText.ReadsBack value (.ofString? answer) := by
  intro _ _
  cases value with
  | null =>
    cases hread
    rfl
  | string s =>
    cases hread
    rfl
  | bool _ | int _ | double _ | list _ | map _ => cases hread

theorem map_string_toText {items : List Json} (htyped : (items.all fun item => item matches .string _) = true) :
    (items.map Json.toText).map Json.string = items := by
  induction items with
  | nil => rfl
  | cons item rest ih =>
    obtain ⟨hitem, hrest⟩ := Bool.and_eq_true_iff.mp htyped
    rw [List.map_cons, List.map_cons, ih hrest]
    cases item with
    | string s => rfl
    | null | bool _ | int _ | double _ | list _ | map _ => cases hitem

theorem readsBack_texts {items : List Json} (hread : value.asList? = some items) :
    texts.ReadsBack value (.list ((items.map Json.toText).map .string)) := by
  intro htyped _
  cases value with
  | list source =>
    cases hread
    rw [map_string_toText htyped]
  | null | bool _ | int _ | double _ | string _ | map _ => cases htyped

theorem readsBack_name {α : Type} {nameOf : α → String} {values : List α} (fallback : α) :
    (name (values.map nameOf)).ReadsBack value
      (.string (nameOf (Json.enumValue nameOf values value fallback))) := by
  intro htyped hnamed
  cases value with
  | string s =>
    obtain ⟨item, hitem, rfl⟩ := List.mem_map.mp (List.contains_iff_mem.mp hnamed)
    unfold Json.enumValue
    cases hfind : values.find? fun a => (Json.string (nameOf item)).isString (nameOf a) with
    | none => exact absurd (beq_self_eq_true _) (List.find?_eq_none.mp hfind item hitem)
    | some found =>
      have hfound := List.find?_some hfind
      have hsame : nameOf item = nameOf found := eq_of_beq hfound
      rw [Option.getD_some, hsame]
  | null | bool _ | int _ | double _ | list _ | map _ => cases htyped

end FieldType

section Rows

variable {fields : List (String × FieldType)} {entries rows : JsonMap}

/-- Row by row, the fields of an object are read and written again; the id may be another. -/
def ReadsBack (fields : List (String × FieldType)) (entries rows : JsonMap) : Prop :=
  List.Forall₂ (fun field row => row.1 = field.1 ∧
    (field.1 ≠ "id" → field.2.ReadsBack (Json.get entries field.1) row.2)) fields rows

theorem lookup_of_forall₂ {R : String × FieldType → Json → Prop}
    (hrows : List.Forall₂ (fun field row => row.1 = field.1 ∧ R field row.2) fields rows)
    (hnodup : (fields.map Prod.fst).Nodup) {field : String × FieldType} (hmem : field ∈ fields) :
    ∃ value, rows.lookup field.1 = some value ∧ R field value := by
  induction hrows with
  | nil => cases hmem
  | @cons first row fields rows hrow _ ih =>
    rw [List.map_cons, List.nodup_cons] at hnodup
    rcases List.mem_cons.mp hmem with rfl | hrest
    · refine ⟨row.2, ?_, hrow.2⟩
      rw [← hrow.1]
      exact List.lookup_cons_self
    · obtain ⟨value, hvalue, hR⟩ := ih hnodup.2 hrest
      refine ⟨value, ?_, hR⟩
      have hne : (field.1 == row.1) = false := by
        rw [beq_eq_false_iff_ne, hrow.1]
        intro hsame
        exact hnodup.1 (List.mem_map.mpr ⟨field, hrest, hsame⟩)
      rw [List.lookup_cons, hne]
      exact hvalue

theorem sameFields_of_readsBack (hrows : ReadsBack fields entries rows)
    (hnodup : (fields.map Prod.fst).Nodup) (htyped : WellTyped fields entries)
    (hnamed : NamesItems fields entries) : SameFields fields entries rows := by
  intro field hmem hid value hvalue
  obtain ⟨written, hwritten, hback⟩ := lookup_of_forall₂
    (R := fun field value => field.1 ≠ "id" → field.2.ReadsBack (Json.get entries field.1) value) hrows hnodup hmem
  have hget : Json.get entries field.1 = value := by
    unfold Json.get
    rw [hvalue]
    rfl
  rw [hget] at hback
  rw [hwritten, hback hid (htyped field hmem value hvalue) (hnamed field hmem value hvalue)]

end Rows

theorem nodup_sshFields : (sshFields.map Prod.fst).Nodup := by decide

theorem nodup_rdpFields : (rdpFields.map Prod.fst).Nodup := by decide

variable {profile : SshProfile} {object : JsonMap}

theorem SshProfile.readsBack {entries : JsonMap} (hread : fromEntries entries = some profile)
    (id : String) :
    ReadsBack sshFields entries (toEntries { profile with id := id }) := by
  unfold fromEntries at hread
  obtain ⟨tags, htags, hprofile⟩ := Option.map_eq_some_iff.mp hread
  unfold Profiles.ReadsBack sshFields toEntries
  simp only [List.forall₂_cons, List.Forall₂.nil, ← hprofile, ne_eq, not_true_eq_false,
    false_imp_iff, imp_true_iff, true_and, FieldType.readsBack_text, FieldType.readsBack_int,
    FieldType.readsBack_isTrue, FieldType.readsBack_texts htags, FieldType.readsBack_name]

theorem RdpProfile.readsBack {entries : JsonMap} {profile : RdpProfile}
    (hread : fromEntries entries = some profile) :
    ReadsBack rdpFields entries (toEntries profile) := by
  unfold fromEntries at hread
  simp only [Option.bind_eq_bind, Option.bind_eq_some_iff] at hread
  obtain ⟨domain, hdomain, tags, htags, fullScreen, hfullScreen, drives, hdrives, clipboard,
    hclipboard, credSsp, hcredSsp, source, hsource, hprofile⟩ := hread
  unfold Profiles.ReadsBack rdpFields toEntries
  simp only [List.forall₂_cons, List.Forall₂.nil, ← Option.some.inj hprofile, ne_eq,
    not_true_eq_false, imp_true_iff, true_and, FieldType.readsBack_text,
    FieldType.readsBack_int, FieldType.readsBack_texts htags, FieldType.readsBack_name,
    FieldType.readsBack_toText?, FieldType.readsBack_asString? hdomain,
    FieldType.readsBack_asString? hsource, FieldType.readsBack_asBool? _ hfullScreen,
    FieldType.readsBack_asBool? _ hdrives, FieldType.readsBack_asBool? _ hclipboard,
    FieldType.readsBack_asBool? _ hcredSsp]

theorem SshProfile.isSome_fromEntries (entries : JsonMap) :
    (fromEntries entries).isSome = readable entries := by
  unfold fromEntries readable
  rw [Option.isSome_map]

theorem isSome_bind_of {α β : Type} {o : Option α} {f : α → Option β} {b : Bool}
    (hrest : ∀ a, (f a).isSome = b) : (o.bind f).isSome = (o.isSome && b) := by
  cases o with
  | none => rfl
  | some a => exact hrest a

theorem RdpProfile.isSome_fromEntries (entries : JsonMap) :
    (fromEntries entries).isSome = readable entries := by
  have hcasts : (fromEntries entries).isSome =
      ((Json.get entries "domain").asString?.isSome && ((Json.get entries "tags").asList?.isSome &&
        ((Json.get entries "fullScreen").asBool?.isSome &&
          ((Json.get entries "redirectDrives").asBool?.isSome &&
            ((Json.get entries "redirectClipboard").asBool?.isSome &&
              ((Json.get entries "enableCredSsp").asBool?.isSome &&
                ((Json.get entries "sourceRdpFilePath").asString?.isSome && true))))))) := by
    unfold fromEntries
    repeat
      refine isSome_bind_of ?_
      intro _
    rfl
  rw [hcasts]
  unfold readable
  simp only [List.all_cons, List.all_nil, Bool.and_true]
  cases (Json.get entries "tags").asList?.isSome <;>
    cases (Json.get entries "sourceRdpFilePath").asString?.isSome <;>
    simp

theorem SshProfile.id_fromEntries {entries : JsonMap} (hread : fromEntries entries = some profile) :
    profile.id = objectId entries := by
  unfold fromEntries at hread
  obtain ⟨tags, _, rfl⟩ := Option.map_eq_some_iff.mp hread
  rfl

theorem RdpProfile.id_fromEntries {entries : JsonMap} {profile : RdpProfile}
    (hread : fromEntries entries = some profile) : profile.id = objectId entries := by
  unfold fromEntries at hread
  simp only [Option.bind_eq_bind, Option.bind_eq_some_iff] at hread
  obtain ⟨_, _, _, _, _, _, _, _, _, _, _, _, _, _, hprofile⟩ := hread
  rw [← Option.some.inj hprofile]
  rfl

theorem SshProfile.namesItems_toEntries (profile : SshProfile) : NamesItems sshFields profile.toEntries := by
  have hrows : List.Forall₂ (fun field row => row.1 = field.1 ∧ field.2.namesItem row.2 = true)
      sshFields profile.toEntries := by
    unfold sshFields toEntries
    simp only [List.forall₂_cons, List.Forall₂.nil, true_and, and_true, FieldType.namesItem]
    refine ⟨?_, ?_, ?_⟩
    · cases profile.authMethod <;> decide
    · cases profile.status <;> decide
    · cases profile.color <;> decide
  intro field hmem value hvalue
  obtain ⟨written, hwritten, hnamed⟩ := lookup_of_forall₂
    (R := fun field value => field.2.namesItem value = true) hrows nodup_sshFields hmem
  rw [hwritten] at hvalue
  rwa [← Option.some.inj hvalue]

theorem RdpProfile.namesItems_toEntries (profile : RdpProfile) : NamesItems rdpFields profile.toEntries := by
  have hrows : List.Forall₂ (fun field row => row.1 = field.1 ∧ field.2.namesItem row.2 = true)
      rdpFields profile.toEntries := by
    unfold rdpFields toEntries
    simp only [List.forall₂_cons, List.Forall₂.nil, true_and, and_true, FieldType.namesItem]
    refine ⟨?_, ?_⟩
    · cases profile.color <;> decide
    · cases profile.status <;> decide
  intro field hmem value hvalue
  obtain ⟨written, hwritten, hnamed⟩ := lookup_of_forall₂
    (R := fun field value => field.2.namesItem value = true) hrows nodup_rdpFields hmem
  rw [hwritten] at hvalue
  rwa [← Option.some.inj hvalue]

theorem SshProfile.wellTyped_toEntries (profile : SshProfile) : WellTyped sshFields profile.toEntries := by
  have hrows : List.Forall₂ (fun field row => row.1 = field.1 ∧ field.2.accepts row.2 = true)
      sshFields profile.toEntries := by
    unfold sshFields toEntries
    simp [FieldType.accepts]
  intro field hmem value hvalue
  obtain ⟨written, hwritten, haccepts⟩ := lookup_of_forall₂
    (R := fun field value => field.2.accepts value = true) hrows nodup_sshFields hmem
  rw [hwritten] at hvalue
  rwa [← Option.some.inj hvalue]

section Loaded

variable {α : Type} {toEntries : α → JsonMap}
  {fromEntries : JsonMap → Option α} {readDouble : String → String}
  {fields : List (String × FieldType)} {id : α → String}

theorem forall₂_of_mapM {objects : List JsonMap} {profiles : List α}
    (hmap : objects.mapM fromEntries = some profiles) :
    List.Forall₂ (fun entries profile => fromEntries entries = some profile) objects profiles := by
  induction objects generalizing profiles with
  | nil =>
    cases hmap
    exact .nil
  | cons entries rest ih =>
    rw [List.mapM_cons] at hmap
    simp only [Option.bind_eq_bind, Option.bind_eq_some_iff] at hmap
    obtain ⟨profile, hfirst, profiles', hrest, ⟨⟩⟩ := hmap
    exact .cons hfirst (ih hrest)

variable (fromEntries) in
theorem exists_of_readable {objects : List JsonMap}
    (hall : ∀ entries ∈ objects, (fromEntries entries).isSome = true) :
    ∃ profiles, objects.mapM fromEntries = some profiles := by
  induction objects with
  | nil => exact ⟨[], rfl⟩
  | cons entries rest ih =>
    obtain ⟨profile, hfirst⟩ := Option.isSome_iff_exists.mp (hall entries (List.mem_cons_self ..))
    obtain ⟨profiles, hrest⟩ := ih fun e he => hall e (List.mem_cons_of_mem _ he)
    refine ⟨profile :: profiles, ?_⟩
    rw [List.mapM_cons, hfirst, hrest]
    rfl

theorem mapM_eq_none {objects : List JsonMap} {entries : JsonMap}
    (hmem : entries ∈ objects) (hthrows : fromEntries entries = none) :
    objects.mapM fromEntries = none := by
  cases hmap : objects.mapM fromEntries with
  | none => rfl
  | some profiles =>
    exfalso
    have hrows := forall₂_of_mapM hmap
    induction hrows with
    | nil => cases hmem
    | cons hfirst hrest ih =>
      rcases List.mem_cons.mp hmem with rfl | hlater
      · rw [hthrows] at hfirst
        cases hfirst
      · rw [List.mapM_cons, hfirst] at hmap
        simp only [Option.bind_eq_bind, Option.bind_some, Option.bind_eq_some_iff] at hmap
        obtain ⟨profiles', hmap', ⟨⟩⟩ := hmap
        exact ih hlater hmap'

theorem readProfiles_eq (file : Option String) : readProfiles readDouble fromEntries file =
      ((fileObjects readDouble file).mapM fromEntries).getD [] := by
  unfold readProfiles fileObjects profilesOf
  cases file.bind (Json.decode readDouble) with
  | none => rfl
  | some value => cases value <;> rfl

theorem fileObjects_of_decode {text : String} {source : List Json}
    (hdecode : Json.decode readDouble text = some (.list source)) :
    fileObjects readDouble (some text) = source.filterMap Json.asMap? := by
  unfold fileObjects
  rw [Option.bind_some, hdecode]

theorem fileObjects_profilesText (hplain : ∀ a, (Json.map (toEntries a)).plain = true) (profiles : List α) :
    fileObjects readDouble (some (profilesText toEntries profiles)) = profiles.map toEntries := by
  rw [fileObjects_of_decode (decode_profilesText hplain profiles), filterMap_asMap?]

def LoadedAs (fields : List (String × FieldType)) (toEntries : α → JsonMap)
    (id : α → String) (objects : List JsonMap) (ids : List String)
    (profiles : List α) : Prop :=
  ∀ (index : Nat) (entries : JsonMap), objects[index]? = some entries →
    ∃ profile ∈ profiles, ids[index]? = some (id profile) ∧ ReadsBack fields entries (toEntries profile)

variable {objects : List JsonMap} {ids : List String} {profiles : List α} {saved : α}
  {index : Nat} {entries : JsonMap}

theorem stillThere_of_loadedAs (hloaded : LoadedAs fields toEntries id objects ids profiles)
    (hnodup : (fields.map Prod.fst).Nodup)
    (hid : ∀ profile, (toEntries profile).lookup "id" = some (.string (id profile)))
    (hother : OtherObject fields objects ids (id saved) index entries)
    (hnamed : NamesItems fields entries) :
    StillThere fields ((insertProfile id saved profiles).map toEntries) ids index entries := by
  obtain ⟨profile, hmem, hindex, hrows⟩ := hloaded index entries hother.item
  have hne : id profile ≠ id saved := by
    intro hsame
    exact hother.other (by rw [hindex, hsame])
  refine ⟨toEntries profile, List.mem_map.mpr ⟨profile, mem_insertProfile_of_ne hmem hne, rfl⟩, ?_,
    sameFields_of_readsBack hrows hnodup hother.typed hnamed⟩
  rw [hid, hindex]
  rfl

theorem namesItems_of_stillThere (hwritten : ∀ profile, NamesItems fields (toEntries profile))
    (hidType : ∀ field ∈ fields, field.1 = "id" → field.2 = .text)
    (hstill : StillThere fields (profiles.map toEntries) ids index entries) :
    NamesItems fields entries := by
  obtain ⟨entries', hmem, -, hsame⟩ := hstill
  obtain ⟨profile, -, rfl⟩ := List.mem_map.mp hmem
  intro field hfield value hvalue
  by_cases hkey : field.1 = "id"
  · rw [hidType field hfield hkey]
    rfl
  · exact hwritten profile field hfield value (hsame field hfield hkey value hvalue)

theorem not_stillThere_of_empty (hid : ∀ profile, (toEntries profile).lookup "id" = some (.string (id profile)))
    (hother : OtherObject fields objects ids (id saved) index entries)
    (hlength : objects.length = ids.length) :
    ¬StillThere fields ((insertProfile id saved []).map toEntries) ids index entries := by
  rintro ⟨entries', hmem, hlookup, -⟩
  obtain ⟨profile, hprofile, rfl⟩ := List.mem_map.mp hmem
  have hsaved : profile = saved := List.mem_singleton.mp hprofile
  obtain ⟨hlt, -⟩ := List.getElem?_eq_some_iff.mp hother.item
  have hlt' : index < ids.length := by omega
  rw [hid, hsaved, List.getElem?_eq_getElem hlt', Option.map_some, Option.some.injEq, Json.string.injEq] at hlookup
  apply hother.other
  rw [List.getElem?_eq_getElem hlt', hlookup]

/-- Where a list is loaded as a whole or not at all, a save keeps the others just if it was loaded and
they name items of the enumerations. -/
theorem forall_stillThere_iff (readable : JsonMap → Bool)
    (hwhole : (∀ object ∈ objects, readable object = true) → LoadedAs fields toEntries id objects ids profiles)
    (hempty : ∀ object ∈ objects, readable object = false → profiles = [])
    (hnodup : (fields.map Prod.fst).Nodup)
    (hidType : ∀ field ∈ fields, field.1 = "id" → field.2 = .text)
    (hwritten : ∀ profile, NamesItems fields (toEntries profile))
    (hid : ∀ profile, (toEntries profile).lookup "id" = some (.string (id profile)))
    (hlength : objects.length = ids.length) :
    (∀ index entries, OtherObject fields objects ids (id saved) index entries →
      StillThere fields ((insertProfile id saved profiles).map toEntries) ids index entries) ↔
    ∀ index entries, OtherObject fields objects ids (id saved) index entries →
      (∀ object ∈ objects, readable object = true) ∧ NamesItems fields entries := by
  constructor
  · intro hkept index entries hother
    have hstill := hkept index entries hother
    refine ⟨?_, namesItems_of_stillThere hwritten hidType hstill⟩
    intro object hobject
    by_contra hthrows
    rw [hempty object hobject (Bool.eq_false_iff.mpr hthrows)] at hstill
    exact not_stillThere_of_empty hid hother hlength hstill
  · intro hcond index entries hother
    obtain ⟨hreadable, hnamed⟩ := hcond index entries hother
    exact stillThere_of_loadedAs (hwhole hreadable) hnodup hid hother hnamed

end Loaded

variable {clock : Nat → Nat}

theorem length_loadedIds (candidates : List String) :
    ∀ usedIds start, (loadedIds clock usedIds start candidates).length = candidates.length := by
  induction candidates with
  | nil =>
    intro usedIds start
    rfl
  | cons candidate rest ih =>
    intro usedIds start
    rw [loadedIds]
    simp only [List.length_cons, ih]

theorem getElem?_dedupeFrom (clock : Nat → Nat) (profiles : List SshProfile) :
    ∀ (usedIds : List String) (start index : Nat) (profile : SshProfile),
    profiles[index]? = some profile →
    ∃ id, (loadedIds clock usedIds start (profiles.map SshProfile.id))[index]? = some id ∧
      { profile with id := id } ∈ dedupeFrom clock usedIds start profiles := by
  induction profiles with
  | nil =>
    rintro usedIds start index profile ⟨⟩
  | cons first rest ih =>
    intro usedIds start index profile hindex
    rw [List.map_cons, loadedIds, dedupeFrom]
    cases index with
    | zero =>
      cases hindex
      exact ⟨_, rfl, List.mem_cons_self ..⟩
    | succ index =>
      obtain ⟨id, hid, hmem⟩ := ih _ (start + 1) index profile hindex
      exact ⟨id, hid, List.mem_cons_of_mem _ hmem⟩

theorem map_objectId {objects : List JsonMap} {profiles : List SshProfile}
    (hrows : List.Forall₂ (fun entries profile => SshProfile.fromEntries entries = some profile)
      objects profiles) : profiles.map SshProfile.id = objects.map objectId := by
  induction hrows with
  | nil => rfl
  | cons hfirst _ ih => rw [List.map_cons, List.map_cons, ih, SshProfile.id_fromEntries hfirst]

theorem SshProfile.loadedAs {objects : List JsonMap}
    {profiles : List SshProfile} (hmap : objects.mapM fromEntries = some profiles) :
    LoadedAs sshFields toEntries SshProfile.id objects
      (loadedIds clock [] 0 (objects.map objectId)) (dedupeProfileIds clock profiles) := by
  intro index entries hitem
  have hrows := forall₂_of_mapM hmap
  obtain ⟨profile, hprofile, hread⟩ : ∃ profile, profiles[index]? = some profile ∧
      fromEntries entries = some profile := by
    obtain ⟨hlt, rfl⟩ := List.getElem?_eq_some_iff.mp hitem
    have hlt' : index < profiles.length := by
      have hlength := hrows.length_eq
      omega
    exact ⟨profiles[index], List.getElem?_eq_getElem hlt', hrows.get hlt hlt'⟩
  obtain ⟨id, hid, hmem⟩ := getElem?_dedupeFrom clock profiles [] 0 index profile hprofile
  rw [map_objectId hrows] at hid
  exact ⟨_, hmem, hid, SshProfile.readsBack hread id⟩

theorem RdpProfile.loadedAs {objects : List JsonMap} {profiles : List RdpProfile}
    (hmap : objects.mapM fromEntries = some profiles) :
    LoadedAs rdpFields toEntries RdpProfile.id objects (objects.map objectId) profiles := by
  intro index entries hitem
  have hrows := forall₂_of_mapM hmap
  obtain ⟨hlt, hentries⟩ := List.getElem?_eq_some_iff.mp hitem
  have hlt' : index < profiles.length := by
    have hlength := hrows.length_eq
    omega
  have hread : fromEntries entries = some profiles[index] := by
    rw [← hentries]
    exact hrows.get hlt hlt'
  refine ⟨profiles[index], List.getElem_mem hlt', ?_, RdpProfile.readsBack hread⟩
  rw [List.getElem?_map, hitem, Option.map_some, RdpProfile.id_fromEntries hread]

variable {readDouble : String → String} {file : Option String}

theorem SshProfile.dedupe_readProfiles_of_unreadable (hmem : object ∈ fileObjects readDouble file)
    (hthrows : readable object = false) :
    loadProfiles readDouble clock file = [] := by
  have hnone : fromEntries object = none := by
    rw [← Option.isNone_iff_eq_none, ← Option.not_isSome, isSome_fromEntries, hthrows]
    rfl
  unfold loadProfiles
  rw [readProfiles_eq, mapM_eq_none hmem hnone]
  rfl

theorem RdpProfile.loadRdpProfiles_of_unreadable (hmem : object ∈ fileObjects readDouble file)
    (hthrows : readable object = false) :
    loadRdpProfiles readDouble file = [] := by
  have hnone : fromEntries object = none := by
    rw [← Option.isNone_iff_eq_none, ← Option.not_isSome, isSome_fromEntries, hthrows]
    rfl
  unfold loadRdpProfiles
  rw [readProfiles_eq, mapM_eq_none hmem hnone]
  rfl

theorem sshSaveKeepsOthers_iff {secrets : ProfileSecretStore} {service : SecretService} :
    SshSaveKeepsOthers readDouble clock file secrets service profile ↔
      (profile.refused = true ∨ ∀ index entries, OtherObject sshFields (fileObjects readDouble file)
          (loadedIds clock [] 0 ((fileObjects readDouble file).map objectId)) profile.id index entries →
        (∀ object ∈ fileObjects readDouble file, SshProfile.readable object = true) ∧
          NamesItems sshFields entries) := by
  unfold SshSaveKeepsOthers
  cases hrefused : profile.refused with
  | true =>
    rw [SshProfileRepository.saveProfile_refused hrefused]
    simp only [if_true, true_or, iff_true]
    rfl
  | false =>
    rw [SshProfileRepository.saveProfile_accepted hrefused]
    simp only [Bool.false_eq_true, if_false, false_or]
    have hfile : ∀ profiles : List SshProfile,
        fileObjects readDouble (some (profilesText SshProfile.toEntries profiles)) =
          profiles.map SshProfile.toEntries :=
      fileObjects_profilesText SshProfile.plain_toEntries
    simp only [hfile, ← SshProfile.saved_id profile]
    apply forall_stillThere_iff SshProfile.readable
    · intro hall
      obtain ⟨profiles, hmap⟩ := exists_of_readable SshProfile.fromEntries
        fun object hobject => (SshProfile.isSome_fromEntries object).trans (hall object hobject)
      have hloaded : loadProfiles readDouble clock file = dedupeProfileIds clock profiles := by
        unfold loadProfiles
        rw [readProfiles_eq, hmap]
        rfl
      show LoadedAs _ _ _ _ _ (loadProfiles readDouble clock file)
      rw [hloaded]
      exact SshProfile.loadedAs hmap
    · intro object hobject hthrows
      exact SshProfile.dedupe_readProfiles_of_unreadable hobject hthrows
    · exact nodup_sshFields
    · decide
    · exact SshProfile.namesItems_toEntries
    · intro p
      rfl
    · rw [length_loadedIds, List.length_map]

theorem rdpSaveKeepsOthers_iff {profile : RdpProfile} : RdpSaveKeepsOthers readDouble file profile ↔
      (profile.refused.isSome = true ∨ ∀ index entries, OtherObject rdpFields (fileObjects readDouble file)
          ((fileObjects readDouble file).map objectId) profile.id index entries →
        (∀ object ∈ fileObjects readDouble file, RdpProfile.readable object = true) ∧
          NamesItems rdpFields entries) := by
  unfold RdpSaveKeepsOthers
  cases hrefused : profile.refused with
  | some message =>
    rw [RdpProfileRepository.saveProfile_refused hrefused]
    simp only [Option.isSome_some, if_true, true_or, iff_true]
    rfl
  | none =>
    rw [RdpProfileRepository.saveProfile_accepted hrefused]
    simp only [Option.isSome_none, Bool.false_eq_true, if_false, false_or]
    have hfile : ∀ profiles : List RdpProfile,
        fileObjects readDouble (some (profilesText RdpProfile.toEntries profiles)) =
          profiles.map RdpProfile.toEntries :=
      fileObjects_profilesText RdpProfile.plain_toEntries
    have hid : profile.id = profile.saved.id := rfl
    simp only [hfile, hid]
    apply forall_stillThere_iff RdpProfile.readable
    · intro hall
      obtain ⟨profiles, hmap⟩ := exists_of_readable RdpProfile.fromEntries
        fun object hobject => (RdpProfile.isSome_fromEntries object).trans (hall object hobject)
      have hloaded : loadRdpProfiles readDouble file = profiles := by
        unfold loadRdpProfiles
        rw [readProfiles_eq, hmap]
        rfl
      show LoadedAs _ _ _ _ _ (loadRdpProfiles readDouble file)
      rw [hloaded]
      exact RdpProfile.loadedAs hmap
    · intro object hobject hthrows
      exact RdpProfile.loadRdpProfiles_of_unreadable hobject hthrows
    · exact nodup_rdpFields
    · decide
    · exact RdpProfile.namesItems_toEntries
    · intro p
      rfl
    · rw [List.length_map]

/-- A save keeps the others just if it is refused, or wherever there is another well-typed object no
object of the file makes a cast throw and that one names items of the enumerations. -/
theorem save_keeps_others_iff (readDouble : String → String) (clock : Nat → Nat)
    (file rdpFile : Option String) (secrets : ProfileSecretStore) (service : SecretService)
    (profile : SshProfile) (rdpProfile : RdpProfile) :
    (SshSaveKeepsOthers readDouble clock file secrets service profile ↔
      (profile.refused = true ∨ ∀ index entries,
        OtherObject sshFields (fileObjects readDouble file)
          (loadedIds clock [] 0 ((fileObjects readDouble file).map objectId)) profile.id index entries →
        (∀ object ∈ fileObjects readDouble file, SshProfile.readable object = true) ∧
          NamesItems sshFields entries)) ∧
    (RdpSaveKeepsOthers readDouble rdpFile rdpProfile ↔
      (rdpProfile.refused.isSome = true ∨ ∀ index entries,
        OtherObject rdpFields (fileObjects readDouble rdpFile)
          ((fileObjects readDouble rdpFile).map objectId) rdpProfile.id index entries →
        (∀ object ∈ fileObjects readDouble rdpFile, RdpProfile.readable object = true) ∧
          NamesItems rdpFields entries)) :=
  ⟨sshSaveKeepsOthers_iff, rdpSaveKeepsOthers_iff⟩

/-- A file with an object whose tags are a text, before a profile as the program writes it. -/
def fileWithTextTags : String :=
  Json.encode Json.indented (.list
    [.map [("id", .string "a"), ("tags", .string "eu")],
      .map (quickConnectProfile ⟨"u", "h", 22⟩).toEntries])

/-- Saving another profile drops the one that the program had written. -/
theorem save_drops_others :
    ¬SshSaveKeepsOthers id (fun _ => 0) (some fileWithTextTags) .empty .works
      (quickConnectProfile ⟨"v", "h", 22⟩) := by
  have hobjects : fileObjects id (some fileWithTextTags) =
      [[("id", .string "a"), ("tags", .string "eu")],
        (quickConnectProfile ⟨"u", "h", 22⟩).toEntries] := by
    have hdecode : Json.decode id fileWithTextTags = some (.list
        [.map [("id", .string "a"), ("tags", .string "eu")],
          .map (quickConnectProfile ⟨"u", "h", 22⟩).toEntries]) := by
      apply Json.decode_encode
      decide
    exact fileObjects_of_decode hdecode
  rw [sshSaveKeepsOthers_iff, hobjects]
  rintro (hrefused | hcond)
  · revert hrefused
    decide
  · obtain ⟨hreadable, -⟩ := hcond 1 (quickConnectProfile ⟨"u", "h", 22⟩).toEntries
      ⟨rfl, SshProfile.wellTyped_toEntries _, by decide⟩
    have hthrows := hreadable _ (List.mem_cons_self ..)
    revert hthrows
    decide

end Portix.Profiles
