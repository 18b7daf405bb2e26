import Portix.Profiles.Proofs.ProfileFileProofs
import Portix.Profiles.Proofs.RestartProofs

/-!
# What an import keeps

The ids of an import are new and distinct, and the fields are those of the file. A jump host is named
by the id that it had in the file, so a profile finds it where that id is kept.
-/

namespace Portix.Profiles

open Lib

variable {clock : Nat → Nat} {existingIds usedIds : List String} {index : Nat} {raws : List Json}
  {objects : List JsonMap} {entries : JsonMap} {profile : SshProfile}
  {profiles : List SshProfile}

theorem toList_importedId (clock : Nat → Nat) (index : Nat) : (importedId clock index).toList =
      ("profile-import-".toList ++ Nat.toDigits 10 (clock index)) ++ '-' :: Nat.toDigits 10 index := by
  unfold importedId
  rw [Nat.toString_eq_ofList_toDigits, Nat.toString_eq_ofList_toDigits]
  simp [String.toList_append]

theorem importedId_inj {i j : Nat} (h : importedId clock i = importedId clock j) : i = j := by
  rw [← String.toList_inj, toList_importedId, toList_importedId] at h
  exact digits_inj h

theorem usableId_importedId (clock : Nat → Nat) (index : Nat) : UsableId (importedId clock index) :=
  usableId_of_digits (toList_importedId clock index)

theorem importFrom_object {raw : Json} {rest : List Json} (hraw : raw.asMap? = some entries)
    (himport : importFrom clock usedIds index (raw :: rest) = some profiles) :
    ∃ profile imported, SshProfile.fromImported entries = some profile ∧
      importFrom clock (uniqueId clock profile.id usedIds index :: usedIds) (index + 1) rest =
        some imported ∧
      profiles = { profile with
        id := uniqueId clock profile.id usedIds index, status := .offline } :: imported := by
  rw [importFrom, hraw] at himport
  obtain ⟨profile, hread, hrest⟩ := Option.bind_eq_some_iff.mp himport
  obtain ⟨imported, himported, rfl⟩ := Option.map_eq_some_iff.mp hrest
  exact ⟨profile, imported, hread, himported, rfl⟩

theorem id_fromImported (hread : SshProfile.fromImported entries = some profile) : profile.id = objectId entries := by
  obtain ⟨read, hentries, rfl⟩ := Option.map_eq_some_iff.mp hread
  have hid : read.id = objectId entries := SshProfile.id_fromEntries hentries
  exact hid

theorem jump_fromImported (hread : SshProfile.fromImported entries = some profile) :
    profile.jumpProfileId = objectJump entries := by
  obtain ⟨read, hentries, rfl⟩ := Option.map_eq_some_iff.mp hread
  unfold SshProfile.fromEntries at hentries
  obtain ⟨tags, _, rfl⟩ := Option.map_eq_some_iff.mp hentries
  rfl

/-- The profile that is read from an object, with an id of its own. -/
def ReadAs (entries : JsonMap) (profile : SshProfile) : Prop :=
  ∃ read, SshProfile.fromImported entries = some read ∧
    profile = { read with id := profile.id, status := .offline }

theorem readAs_importFrom (raws : List Json) : ∀ {usedIds : List String} {index : Nat}
    {profiles : List SshProfile}, importFrom clock usedIds index raws = some profiles →
    List.Forall₂ ReadAs (raws.filterMap Json.asMap?) profiles := by
  induction raws with
  | nil =>
    rintro usedIds index profiles ⟨⟩
    exact .nil
  | cons raw rest ih =>
    intro usedIds index profiles himport
    cases hraw : raw.asMap? with
    | none =>
      rw [importFrom, hraw] at himport
      rw [List.filterMap_cons_none hraw]
      exact ih himport
    | some entries =>
      obtain ⟨read, imported, hread, himported, rfl⟩ := importFrom_object hraw himport
      rw [List.filterMap_cons_some hraw]
      generalize uniqueId clock read.id usedIds index = id at himported
      exact .cons ⟨read, hread, rfl⟩ (ih himported)

theorem nodup_importFrom (raws : List Json) : ∀ {usedIds : List String} {index : Nat}
    {profiles : List SshProfile}, importFrom clock usedIds index raws = some profiles →
    (∀ i, index ≤ i → importedId clock i ∉ usedIds) →
    (∀ i, ∀ entries ∈ raws.filterMap Json.asMap?, importedId clock i ≠ dartTrim (objectId entries)) →
    (profiles.map SshProfile.id).Nodup ∧ ∀ profile ∈ profiles, profile.id ∉ usedIds := by
  induction raws with
  | nil =>
    intro usedIds index profiles himport _ _
    cases himport
    exact ⟨List.nodup_nil, by simp⟩
  | cons raw rest ih =>
    intro usedIds index profiles himport hunused hfresh
    cases hraw : raw.asMap? with
    | none =>
      rw [importFrom, hraw] at himport
      rw [List.filterMap_cons_none hraw] at hfresh
      exact ih himport (fun i hi => hunused i (by omega)) hfresh
    | some entries =>
      obtain ⟨read, imported, hread, himported, rfl⟩ := importFrom_object hraw himport
      rw [List.filterMap_cons_some hraw] at hfresh
      have hspec := uniqueProfileId_spec read.id ⟨hunused index (Nat.le_refl _), usableId_importedId clock index⟩
      change uniqueId clock read.id usedIds index ∉ usedIds ∧ _ ∧
        (uniqueId clock read.id usedIds index = _ ∨ uniqueId clock read.id usedIds index = _) at hspec
      generalize uniqueId clock read.id usedIds index = id at himported hspec
      obtain ⟨hnew, -, horigin⟩ := hspec
      have hunused' : ∀ i, index + 1 ≤ i → importedId clock i ∉ id :: usedIds := by
        intro i hi hmem
        rcases List.mem_cons.mp hmem with hid | hused
        · rcases horigin with htrim | hgenerated
          · rw [id_fromImported hread] at htrim
            exact hfresh i entries List.mem_cons_self (hid.trans htrim)
          · have hsame := importedId_inj (hid.trans hgenerated)
            omega
        · exact hunused i (by omega) hused
      obtain ⟨hnodup, hout⟩ := ih himported hunused'
        (fun i entries hmem => hfresh i entries (List.mem_cons_of_mem _ hmem))
      constructor
      · rw [List.map_cons, List.nodup_cons]
        refine ⟨?_, hnodup⟩
        intro hmem
        obtain ⟨other, hother, hid⟩ := List.mem_map.mp hmem
        apply hout other hother
        rw [hid]
        exact List.mem_cons_self
      · intro profile hmem
        rcases List.mem_cons.mp hmem with rfl | hrest
        · exact hnew
        · exact fun hused => hout profile hrest (List.mem_cons_of_mem _ hused)

theorem uniqueId_eq_self_iff {id : String} (hne : id ≠ "") (hfresh : importedId clock index ≠ dartTrim id) :
    uniqueId clock id usedIds index = id ↔ dartTrim id = id ∧ id ∉ usedIds := by
  unfold uniqueId uniqueProfileId
  by_cases hown : dartTrim id ≠ "" ∧ dartTrim id ∉ usedIds
  · simp only [if_pos hown]
    constructor
    · intro htrim
      rw [htrim] at hown
      exact ⟨htrim, hown.2⟩
    · exact fun hkept => hkept.1
  · simp only [if_neg hown]
    constructor
    · intro hgenerated
      rw [← hgenerated, (usableId_importedId clock index).1] at hfresh
      exact absurd rfl hfresh
    · rintro ⟨htrim, hnew⟩
      rw [htrim] at hown
      exact absurd ⟨hne, hnew⟩ hown

theorem mem_used_of_trim {id trimmed : String} (htrim : dartTrim id = trimmed) (hne : trimmed ≠ "") :
    trimmed ∈ uniqueId clock id usedIds index :: usedIds := by
  by_cases hused : trimmed ∈ usedIds
  · exact List.mem_cons_of_mem _ hused
  · have hown : dartTrim id ≠ "" ∧ dartTrim id ∉ usedIds := by
      rw [htrim]
      exact ⟨hne, hused⟩
    have htaken : uniqueId clock id usedIds index = dartTrim id := if_pos hown
    rw [htaken, htrim]
    exact List.mem_cons_self

theorem keepsId_cons {first target : JsonMap} {j : Nat} :
    KeepsId usedIds (first :: objects) (j + 1) target ↔
      KeepsId usedIds objects j target ∧ dartTrim (objectId first) ≠ objectId target := by
  constructor
  · rintro ⟨htrim, hnew, hearlier⟩
    exact ⟨⟨htrim, hnew, fun i hi => hearlier (i + 1) (by omega)⟩, hearlier 0 (by omega) first rfl⟩
  · rintro ⟨⟨htrim, hnew, hearlier⟩, hfirst⟩
    refine ⟨htrim, hnew, ?_⟩
    intro i hi earlier hat
    cases i with
    | zero =>
      cases hat
      exact hfirst
    | succ i => exact hearlier i (by omega) earlier hat

theorem keepsId_used {first target : JsonMap} {j : Nat} (hne : objectId target ≠ "")
    (hfresh : importedId clock index ≠ dartTrim (objectId target)) :
    KeepsId (uniqueId clock (objectId first) usedIds index :: usedIds) objects j target ↔
      KeepsId usedIds objects j target ∧ dartTrim (objectId first) ≠ objectId target := by
  constructor
  · rintro ⟨htrim, hnew, hearlier⟩
    refine ⟨⟨htrim, fun hused => hnew (List.mem_cons_of_mem _ hused), hearlier⟩, ?_⟩
    intro hsame
    exact hnew (mem_used_of_trim hsame hne)
  · rintro ⟨⟨htrim, hnew, hearlier⟩, hfirst⟩
    refine ⟨htrim, ?_, hearlier⟩
    rw [List.mem_cons, not_or]
    refine ⟨?_, hnew⟩
    unfold uniqueId uniqueProfileId
    by_cases hown : dartTrim (objectId first) ≠ "" ∧ dartTrim (objectId first) ∉ usedIds
    · simp only [if_pos hown]
      exact fun hsame => hfirst hsame.symm
    · simp only [if_neg hown]
      rw [htrim] at hfresh
      exact fun hsame => hfresh hsame.symm

theorem id_importFrom_iff (raws : List Json) : ∀ {usedIds : List String} {index j : Nat}
    {profiles : List SshProfile} {target : JsonMap} {jump : SshProfile},
    importFrom clock usedIds index raws = some profiles →
    (raws.filterMap Json.asMap?)[j]? = some target → profiles[j]? = some jump → objectId target ≠ "" →
    (∀ i, importedId clock i ≠ dartTrim (objectId target)) →
    (jump.id = objectId target ↔ KeepsId usedIds (raws.filterMap Json.asMap?) j target) := by
  induction raws with
  | nil =>
    rintro usedIds index j profiles target jump _ ⟨⟩
  | cons raw rest ih =>
    intro usedIds index j profiles target jump himport htarget hjump hne hfresh
    cases hraw : raw.asMap? with
    | none =>
      rw [importFrom, hraw] at himport
      rw [List.filterMap_cons_none hraw] at htarget ⊢
      exact ih himport htarget hjump hne hfresh
    | some entries =>
      obtain ⟨read, imported, hread, himported, rfl⟩ := importFrom_object hraw himport
      rw [id_fromImported hread] at himported hjump
      rw [List.filterMap_cons_some hraw] at htarget ⊢
      cases j with
      | zero =>
        cases htarget
        rw [List.getElem?_cons_zero, Option.some.injEq] at hjump
        subst hjump
        dsimp only
        rw [uniqueId_eq_self_iff hne (hfresh index)]
        unfold KeepsId
        simp
      | succ j =>
        rw [keepsId_cons, ← keepsId_used hne (hfresh index)]
        exact ih himported htarget hjump hne hfresh

theorem exports_accepts {type : FieldType} {value : Json} (hexports : type.exports value = true) :
    type.accepts value = true ∧ type.namesItem value = true := by
  unfold FieldType.exports at hexports
  split at hexports
  · rename_i items
    refine ⟨List.all_eq_true.mpr ?_, rfl⟩
    intro item hmem
    have hitem := List.all_eq_true.mp hexports item hmem
    cases item with
    | string tag => rfl
    | null | bool _ | int _ | double _ | list _ | map _ => cases hitem
  · exact Bool.and_eq_true_iff.mp hexports

/-- A value that was exported is written again. -/
def FieldType.WritesBack (type : FieldType) (value written : Json) : Prop :=
  type.exports value = true → written = value

theorem FieldType.ReadsBack.writesBack {type : FieldType} {value written : Json}
    (hreads : type.ReadsBack value written) : type.WritesBack value written :=
  fun hexports => hreads (exports_accepts hexports).1 (exports_accepts hexports).2

theorem writesBack_tags {value : Json} {items : List Json} (hread : value.asList? = some items) :
    FieldType.texts.WritesBack value
      (.list (((items.map Json.toText).filter fun tag => dartTrim tag ≠ "").map .string)) := by
  intro hexports
  cases value with
  | list source =>
    obtain rfl : source = items := Option.some.inj hread
    have hall : ∀ item ∈ source, ∃ tag, item = .string tag ∧ dartTrim tag ≠ "" := by
      intro item hmem
      have hitem := List.all_eq_true.mp hexports item hmem
      cases item with
      | string tag => exact ⟨tag, rfl, of_decide_eq_true hitem⟩
      | null | bool _ | int _ | double _ | list _ | map _ => cases hitem
    have hfilter : (source.map Json.toText).filter (fun tag => dartTrim tag ≠ "") = source.map Json.toText := by
      apply List.filter_eq_self.mpr
      intro tag hmem
      obtain ⟨item, hitem, rfl⟩ := List.mem_map.mp hmem
      obtain ⟨tag, rfl, htag⟩ := hall item hitem
      exact decide_eq_true htag
    rw [hfilter, List.map_map]
    congr 1
    have hid : ∀ item ∈ source, (Json.string ∘ Json.toText) item = id item := by
      intro item hmem
      obtain ⟨tag, rfl, -⟩ := hall item hmem
      rfl
    rw [List.map_congr_left hid, List.map_id]
  | null => cases hexports
  | bool _ | int _ | double _ | string _ | map _ => cases hread

/-- The fields with a value of their own: not the id, the status and the label of a password. -/
def OwnField (profile : SshProfile) (name : String) : Prop :=
  name ≠ "id" ∧ name ≠ "status" ∧ (name = "credentialLabel" → profile.authMethod ≠ .password)

theorem writesBack_label {read : SshProfile} {value : Json} {fallback : String}
    (hlabel : read.credentialLabel = value.toTextOr fallback) (hown : OwnField read "credentialLabel") :
    FieldType.text.WritesBack value
      (.string (if read.authMethod = .password then "" else read.credentialLabel)) := by
  rw [if_neg (hown.2.2 rfl), hlabel]
  exact (FieldType.readsBack_text fallback).writesBack

theorem exported_rows (hread : SshProfile.fromImported entries = some profile) (id : String)
    (status : ConnectionStatus) :
    List.Forall₂ (fun field row => row.1 = field.1 ∧ (OwnField profile field.1 →
        field.2.WritesBack (Json.get entries field.1) row.2))
      exportedFields ({ profile with id := id, status := status } : SshProfile).toExported := by
  obtain ⟨read, hentries, hprofile⟩ := Option.map_eq_some_iff.mp hread
  unfold SshProfile.fromEntries at hentries
  obtain ⟨tags, htags, hread⟩ := Option.map_eq_some_iff.mp hentries
  have hfields : exportedFields = [("id", .text), ("name", .text), ("host", .text), ("port", .int),
      ("username", .text), ("group", .text), ("tags", .texts),
      ("authMethod", .name (AuthMethod.values.map AuthMethod.name)), ("credentialLabel", .text),
      ("defaultPath", .text), ("status", .name (ConnectionStatus.values.map ConnectionStatus.name)),
      ("color", .name (ProfileColor.values.map ProfileColor.name)), ("startupCommand", .text),
      ("terminalFontSize", .int), ("lastUsedLabel", .text), ("osIconAsset", .text),
      ("jumpProfileId", .text), ("runsKubernetes", .bool)] := by decide
  have hlabel : profile.credentialLabel = (Json.get entries "credentialLabel").toTextOr "" := by
    rw [← hprofile, ← hread]
  have hnotId : ¬OwnField profile "id" := fun hown => hown.1 rfl
  have hnotStatus : ¬OwnField profile "status" := fun hown => hown.2.1 rfl
  have hwritesLabel := fun hown => writesBack_label hlabel hown
  rw [hfields]
  unfold SshProfile.toExported
  simp only [List.forall₂_cons, List.Forall₂.nil, true_and, and_true, hnotId, hnotStatus, false_imp_iff]
  simp only [← hprofile, ← hread] at hwritesLabel ⊢
  simp only [(FieldType.readsBack_text _).writesBack, (FieldType.readsBack_int _).writesBack,
    (FieldType.readsBack_name _).writesBack, FieldType.readsBack_isTrue.writesBack, writesBack_tags htags,
    imp_true_iff, true_and, and_true]
  exact hwritesLabel

theorem fieldsKept_of_readAs (hread : ReadAs entries profile) : FieldsKept objects entries profile := by
  obtain ⟨read, hentries, hprofile⟩ := hread
  have hnodup : (exportedFields.map Prod.fst).Nodup := by decide
  intro field hmem hid hstatus hpassword _ value hvalue hexports
  obtain ⟨written, hwritten, hback⟩ := lookup_of_forall₂
    (R := fun field value => OwnField read field.1 → field.2.WritesBack (Json.get entries field.1) value)
    (exported_rows hentries profile.id .offline) hnodup hmem
  have hget : Json.get entries field.1 = value := by
    unfold Json.get
    rw [hvalue]
    rfl
  have hmethod : profile.authMethod = read.authMethod := by rw [hprofile]
  rw [hget] at hback
  rw [hmethod] at hpassword
  rw [hprofile, hwritten, hback ⟨hid, hstatus, hpassword⟩ hexports]

theorem importFrom_of_ok {readDouble : String → String} {path : String} {file : Option String}
    (himport : importProfiles readDouble clock path file existingIds = .ok profiles) :
    ∃ raws, importFrom clock existingIds 0 raws = some profiles ∧
      importedObjects readDouble file = raws.filterMap Json.asMap? := by
  cases file with
  | none => cases himport
  | some text =>
    unfold importProfiles at himport
    unfold importedObjects
    rw [Option.bind_some]
    simp only at himport
    split at himport
    · cases himport
    · rename_i decoded hdecode
      rw [hdecode, Option.bind_some]
      split at himport
      · cases himport
      · rename_i raws hraws
        rw [hraws, Option.getD_some]
        split at himport
        · cases himport
        · rename_i imported hfrom
          cases himport
          exact ⟨raws, hfrom, rfl⟩

theorem exists_of_forall₂ {α β : Type} {R : α → β → Prop} {as : List α} {bs : List β} {i : Nat} {a : α}
    (hall : List.Forall₂ R as bs) (hat : as[i]? = some a) : ∃ b, bs[i]? = some b ∧ R a b := by
  induction hall generalizing i with
  | nil => cases hat
  | cons hfirst _ ih =>
    cases i with
    | zero =>
      cases hat
      exact ⟨_, rfl, hfirst⟩
    | succ i => exact ih hat

/-- An import keeps the jump hosts of a file exactly if those that are named keep their ids. -/
theorem import_keeps_jumps_iff (readDouble : String → String) (clock : Nat → Nat) (path : String)
    (file : Option String) (existingIds : List String) (profiles : List SshProfile)
    (hfresh : FreshImportIds clock existingIds (importedObjects readDouble file))
    (himport : importProfiles readDouble clock path file existingIds = .ok profiles) :
    ImportedRight existingIds (importedObjects readDouble file) profiles ↔
      JumpHostsKeepIds existingIds (importedObjects readDouble file) := by
  obtain ⟨raws, hfrom, hobjects⟩ := importFrom_of_ok himport
  rw [hobjects] at hfresh ⊢
  have hread := readAs_importFrom raws hfrom
  have hid : ∀ {j : Nat} {target : JsonMap} {jump : SshProfile},
      (raws.filterMap Json.asMap?)[j]? = some target → profiles[j]? = some jump → objectId target ≠ "" →
      (jump.id = objectId target ↔ KeepsId existingIds (raws.filterMap Json.asMap?) j target) :=
    fun htarget hjump hne => id_importFrom_iff raws hfrom htarget hjump hne
      fun i => (hfresh i).2 _ (List.mem_of_getElem? htarget)
  have hjumpOf : ∀ {entries : JsonMap} {profile : SshProfile}, ReadAs entries profile →
      profile.jumpProfileId = objectJump entries := by
    rintro entries profile ⟨read, hentries, hprofile⟩
    have hjump : read.jumpProfileId = objectJump entries := jump_fromImported hentries
    rw [hprofile]
    exact hjump
  constructor
  · intro hright j entries target hmem htarget hnames
    obtain ⟨i, hat⟩ := List.getElem?_of_mem hmem
    obtain ⟨profile, hprofile, hentries⟩ := exists_of_forall₂ hread hat
    obtain ⟨jump, hjump, -⟩ := exists_of_forall₂ hread htarget
    have hsame := hright.jumps i j entries target profile jump hat htarget hprofile hjump hnames
    have hne : objectId target ≠ "" := by
      rw [← hnames.1]
      exact hnames.2
    apply (hid htarget hjump hne).mp
    rw [← hsame, hjumpOf hentries, hnames.1]
  · intro hkept
    obtain ⟨hnodup, hnew⟩ := nodup_importFrom raws hfrom (fun i _ => (hfresh i).1) fun i => (hfresh i).2
    refine ⟨hnodup, hnew, hread.imp fun _ _ => fieldsKept_of_readAs, ?_⟩
    intro i j entries target profile jump hat htarget hprofile hjump hnames
    obtain ⟨profile', hprofile', hentries⟩ := exists_of_forall₂ hread hat
    cases hprofile'.symm.trans hprofile
    have hne : objectId target ≠ "" := by
      rw [← hnames.1]
      exact hnames.2
    rw [hjumpOf hentries, hnames.1]
    exact ((hid htarget hjump hne).mpr
      (hkept j entries target (List.mem_of_getElem? hat) htarget hnames)).symm

theorem importProfiles_of {readDouble : String → String} {clock : Nat → Nat} {path text : String}
    {existingIds : List String} {decoded : Json} {raws : List Json} {imported : List SshProfile}
    (hdecode : Json.decode readDouble text = some decoded) (hraws : rawProfiles decoded = some raws)
    (hfrom : importFrom clock existingIds 0 raws = some imported) :
    importProfiles readDouble clock path (some text) existingIds = .ok imported := by
  unfold importProfiles
  simp only [hdecode, hraws, hfrom]

def jumpObjects : List JsonMap :=
  [[("id", .string "web"), ("host", .string "10.0.0.5"), ("jumpProfileId", .string "bastion")],
    [("id", .string "bastion"), ("host", .string "203.0.113.9"), ("port", .int 2222)]]

def jumpFile : String :=
  Json.encode Json.indented (.map [("profiles", .list (jumpObjects.map .map))])

theorem decode_jumpFile : Json.decode id jumpFile = some (.map [("profiles", .list (jumpObjects.map .map))]) :=
  Json.decode_encode id Json.indented (by decide)

theorem importedObjects_jumpFile : importedObjects id (some jumpFile) = jumpObjects := by
  unfold importedObjects
  rw [Option.bind_some, decode_jumpFile]
  rfl

theorem importProfiles_jumpFile (existingIds : List String) {imported : List SshProfile}
    (hfrom : importFrom (fun _ => 0) existingIds 0 (jumpObjects.map .map) = some imported) :
    importProfiles id (fun _ => 0) "portix-profile.json" (some jumpFile) existingIds = .ok imported :=
  importProfiles_of decode_jumpFile rfl hfrom

theorem freshImportIds_jumpFile : FreshImportIds (fun _ => 0) ["bastion"] jumpObjects := by
  have hfirst : ∀ index, (importedId (fun _ => 0) index).toList.head? = some 'p' := by
    intro index
    rw [toList_importedId]
    rfl
  intro index
  constructor
  · intro hmem
    have hid := hfirst index
    rw [List.mem_singleton.mp hmem] at hid
    revert hid
    decide
  · intro entries hmem hid
    have hall : ∀ entries ∈ jumpObjects, (dartTrim (objectId entries)).toList.head? ≠ some 'p' := by decide
    apply hall entries hmem
    rw [← hid]
    exact hfirst index

/-- Both ids are kept where neither of them exists. -/
theorem import_keeps_jumps_two : ∃ profiles,
    importProfiles id (fun _ => 0) "portix-profile.json" (some jumpFile) [] = .ok profiles ∧
      ImportedRight [] jumpObjects profiles := by
  have hfrom : (importFrom (fun _ => 0) [] 0 (jumpObjects.map .map)).isSome = true := by decide
  obtain ⟨profiles, hfrom⟩ := Option.isSome_iff_exists.mp hfrom
  have himport := importProfiles_jumpFile [] hfrom
  refine ⟨profiles, himport, ?_⟩
  have hiff := import_keeps_jumps_iff id (fun _ => 0) "portix-profile.json" (some jumpFile) [] profiles
    (by
      rw [importedObjects_jumpFile]
      exact fun index => ⟨List.not_mem_nil, (freshImportIds_jumpFile index).2⟩) himport
  rw [importedObjects_jumpFile] at hiff
  apply hiff.mpr
  intro j entries target _ htarget hnames
  match j with
  | 0 =>
    cases htarget
    have hno : ∀ entries ∈ jumpObjects, objectJump entries ≠ "web" := by decide
    exact absurd hnames.1 (hno entries ‹_›)
  | 1 =>
    cases htarget
    refine ⟨by decide, List.not_mem_nil, ?_⟩
    intro i hi earlier hat
    obtain rfl : i = 0 := by omega
    cases hat
    decide
  | j + 2 => cases htarget

/-- The second profile gets another id, and the first one still names it by the old one. -/
theorem import_loses_jump : ¬∀ (readDouble : String → String) (clock : Nat → Nat) (path : String)
    (file : Option String) (existingIds : List String) (profiles : List SshProfile),
    FreshImportIds clock existingIds (importedObjects readDouble file) →
    importProfiles readDouble clock path file existingIds = .ok profiles →
    ImportedRight existingIds (importedObjects readDouble file) profiles := by
  intro hall
  have hfrom : (importFrom (fun _ => 0) ["bastion"] 0 (jumpObjects.map .map)).any (fun profiles =>
      profiles.map (fun profile => (profile.id, profile.jumpProfileId)) =
        [("web", "bastion"), ("profile-import-0-1", "")]) = true := by decide
  obtain ⟨profiles, hfrom, hids⟩ := (Option.any_eq_true _ _).mp hfrom
  have hright := hall id (fun _ => 0) "portix-profile.json" (some jumpFile) ["bastion"] profiles
    (by
      rw [importedObjects_jumpFile]
      exact freshImportIds_jumpFile)
    (importProfiles_jumpFile ["bastion"] hfrom)
  rw [importedObjects_jumpFile] at hright
  obtain ⟨profile, rest, rfl, hfirst, hrest⟩ := List.map_eq_cons_iff.mp (of_decide_eq_true hids)
  obtain ⟨jump, rest, rfl, hsecond, -⟩ := List.map_eq_cons_iff.mp hrest
  have hsame := hright.jumps 0 1 _ _ profile jump rfl rfl rfl rfl (by decide)
  rw [(Prod.mk.inj hfirst).2, (Prod.mk.inj hsecond).1] at hsame
  revert hsame
  decide

end Portix.Profiles
