import Portix.Profiles.RdpRepository

/-!
# The objects of a profiles file

Which fields the profile stores write and of which types, and what it takes for an object of a file to
be still there after a profile was saved.
-/

namespace Portix.Profiles

open Lib

inductive FieldType where
  | text
  | name (names : List String)
  | int
  | bool
  | texts
  | optionalText
  deriving DecidableEq

namespace FieldType

def accepts : FieldType → Json → Bool
  | .text, .string _ => true
  | .name _, .string _ => true
  | .int, .int _ => true
  | .bool, .bool _ => true
  | .texts, .list items => items.all (fun item => item matches .string _)
  | .optionalText, .string _ => true
  | .optionalText, .null => true
  | _, _ => false

def namesItem : FieldType → Json → Bool
  | .name names, .string value => names.contains value
  | _, _ => true

end FieldType

def sshFields : List (String × FieldType) :=
  [("id", .text),
    ("name", .text),
    ("host", .text),
    ("port", .int),
    ("username", .text),
    ("group", .text),
    ("tags", .texts),
    ("authMethod", .name (AuthMethod.values.map AuthMethod.name)),
    ("credentialLabel", .text),
    ("defaultPath", .text),
    ("status", .name (ConnectionStatus.values.map ConnectionStatus.name)),
    ("color", .name (ProfileColor.values.map ProfileColor.name)),
    ("startupCommand", .text),
    ("terminalFontSize", .int),
    ("lastUsedLabel", .text),
    ("osIconAsset", .text),
    ("jumpProfileId", .text),
    ("forwardAgent", .bool),
    ("runsKubernetes", .bool)]

def rdpFields : List (String × FieldType) :=
  [("id", .text),
    ("name", .text),
    ("host", .text),
    ("port", .int),
    ("username", .text),
    ("domain", .optionalText),
    ("group", .text),
    ("tags", .texts),
    ("color", .name (RdpProfileColor.values.map RdpProfileColor.name)),
    ("desktopWidth", .int),
    ("desktopHeight", .int),
    ("fullScreen", .bool),
    ("redirectDrives", .bool),
    ("redirectClipboard", .bool),
    ("localSharePath", .optionalText),
    ("localShareName", .text),
    ("alternateShell", .text),
    ("enableCredSsp", .bool),
    ("sourceRdpFilePath", .optionalText),
    ("status", .name (RdpProfileStatus.values.map RdpProfileStatus.name)),
    ("lastUsedLabel", .text)]

variable (readDouble : String → String) (file : Option String)

def fileObjects : List JsonMap :=
  match file.bind (Json.decode readDouble) with
  | some (.list source) => source.filterMap Json.asMap?
  | _ => []

variable (entries : JsonMap)

def objectId : String := (Json.get entries "id").toTextOr ""

/-- The ids that the SSH profiles of a list of ids go by once they are loaded. -/
def loadedIds (clock : Nat → Nat) (usedIds : List String) (index : Nat) : List String → List String
  | [] => []
  | candidate :: rest =>
    let id := uniqueProfileId (generatedId clock index) candidate usedIds
    id :: loadedIds clock (id :: usedIds) (index + 1) rest

def SshProfile.readable : Bool :=
  (Json.get entries "tags").asList?.isSome

def RdpProfile.readable : Bool :=
  (Json.get entries "tags").asList?.isSome &&
    (["domain", "sourceRdpFilePath"].all fun key => (Json.get entries key).asString?.isSome) &&
    ["fullScreen", "redirectDrives", "redirectClipboard", "enableCredSsp"].all fun key =>
      (Json.get entries key).asBool?.isSome

section Objects

variable (fields : List (String × FieldType))

/-- Each field that the store writes has its type where the object has the field. -/
def WellTyped (entries : JsonMap) : Prop :=
  ∀ field ∈ fields, ∀ value, entries.lookup field.1 = some value → field.2.accepts value = true

/-- Each text for an enumeration names an item of it. -/
def NamesItems (entries : JsonMap) : Prop :=
  ∀ field ∈ fields, ∀ value, entries.lookup field.1 = some value → field.2.namesItem value = true

/-- The second object has the fields of the first one, their ids apart. -/
def SameFields (entries entries' : JsonMap) : Prop :=
  ∀ field ∈ fields, field.1 ≠ "id" → ∀ value, entries.lookup field.1 = some value →
    entries'.lookup field.1 = some value

structure OtherObject (objects : List JsonMap) (ids : List String) (profileId : String)
    (index : Nat) (entries : JsonMap) : Prop where
  item : objects[index]? = some entries
  typed : WellTyped fields entries
  other : ids[index]? ≠ some profileId

/-- The object at an index is among the objects of a file, under the id it goes by. -/
def StillThere (objects : List JsonMap) (ids : List String) (index : Nat)
    (entries : JsonMap) : Prop :=
  ∃ entries' ∈ objects, entries'.lookup "id" = ids[index]?.map Json.string ∧
    SameFields fields entries entries'

end Objects

variable (clock : Nat → Nat)

/-- A save that is refused leaves the file as it is; any other leaves the other well-typed objects of
the file there. -/
def SshSaveKeepsOthers (file : Option String)
    (secrets : ProfileSecretStore) (service : SecretService) (profile : SshProfile) : Prop :=
  let objects := fileObjects readDouble file
  let ids := loadedIds clock [] 0 (objects.map objectId)
  let after := ((SshRun.start readDouble clock file secrets).repository.saveProfile service profile).2
  if profile.refused then after.file = file
  else ∀ index entries, OtherObject sshFields objects ids profile.id index entries →
    StillThere sshFields (fileObjects readDouble after.file) ids index entries

def RdpSaveKeepsOthers (profile : RdpProfile) :
    Prop :=
  let objects := fileObjects readDouble file
  let ids := objects.map objectId
  let after := ((RdpRun.start readDouble file).repository.saveProfile profile).2
  if profile.refused.isSome then after.file = file
  else ∀ index entries, OtherObject rdpFields objects ids profile.id index entries →
    StillThere rdpFields (fileObjects readDouble after.file) ids index entries

-- `exportProfiles` and `importProfiles` of `profile_file_controller.dart`: what a file of profiles holds, the ids
-- that its profiles get, and the profiles that name each other as jump hosts.

namespace SshProfile

def toExported (profile : SshProfile) : JsonMap :=
  [("id", .string profile.id),
    ("name", .string profile.name),
    ("host", .string profile.host),
    ("port", .int profile.port),
    ("username", .string profile.username),
    ("group", .string profile.group),
    ("tags", .list (profile.tags.map .string)),
    ("authMethod", .string profile.authMethod.name),
    ("credentialLabel", .string (if profile.authMethod = .password then "" else profile.credentialLabel)),
    ("defaultPath", .string profile.defaultPath),
    ("status", .string ConnectionStatus.offline.name),
    ("color", .string profile.color.name),
    ("startupCommand", .string profile.startupCommand),
    ("terminalFontSize", .int profile.terminalFontSize),
    ("lastUsedLabel", .string profile.lastUsedLabel),
    ("osIconAsset", .string profile.osIconAsset),
    ("jumpProfileId", .string profile.jumpProfileId),
    ("runsKubernetes", .bool profile.runsKubernetes)]

/-- `ProfileFileController._profileFromJson`, which reads what the store reads but for blank tags and
the agent; `none` is the `TypeError` of a cast. -/
def fromImported (json : JsonMap) : Option SshProfile :=
  (fromEntries json).map fun profile => { profile with
    tags := profile.tags.filter fun tag => dartTrim tag ≠ ""
    -- Lends the local agent's keys to the server: never something a file can switch on.
    forwardAgent := false }

end SshProfile

def exportedFields : List (String × FieldType) :=
  sshFields.filter fun field => field.1 ≠ "forwardAgent"

/-- A value as `exportProfiles` writes it. The tags of a profile are not blank. -/
def FieldType.exports : FieldType → Json → Bool
  | .texts, .list items => items.all fun item => match item with
    | .string tag => dartTrim tag ≠ ""
    | _ => false
  | type, value => type.accepts value && type.namesItem value

/-- Why a file of profiles is refused. -/
inductive ImportError where
  | fileNotFound (message path : String)
  | notJson
  | format (message : String)
  | cast

/-- The items of a file: those under `profiles`, those of a list, or the one object. -/
def rawProfiles : Json → Option (List Json)
  | .map entries => match Json.get entries "profiles" with
    | .list profiles => some profiles
    | _ => some [.map entries]
  | .list profiles => some profiles
  | _ => none

def importedId (index : Nat) : String :=
  "profile-import-" ++ toString (clock index) ++ "-" ++ toString index

def uniqueId (candidate : String) (usedIds : List String) (index : Nat) : String :=
  uniqueProfileId (importedId clock index) candidate usedIds

def importFrom (clock : Nat → Nat) (usedIds : List String) (index : Nat) :
    List Json → Option (List SshProfile)
  | [] => some []
  | raw :: rest => match raw.asMap? with
    | none => importFrom clock usedIds (index + 1) rest
    | some json => (SshProfile.fromImported json).bind fun profile =>
      let id := uniqueId clock profile.id usedIds index
      (importFrom clock (id :: usedIds) (index + 1) rest).map fun imported =>
        { profile with id := id, status := .offline } :: imported

def importProfiles (path : String)
    (file : Option String) (existingIds : List String) : Except ImportError (List SshProfile) :=
  match file with
  | none => .error (.fileNotFound "Profile file not found" (dartTrim path))
  | some text => match Json.decode readDouble text with
    | none => .error .notJson
    | some decoded => match rawProfiles decoded with
      | none => .error (.format "Unsupported Portix profile file.")
      | some raws => match importFrom clock existingIds 0 raws with
        | none => .error .cast
        | some imported => .ok imported

def importedObjects : List JsonMap :=
  (((file.bind (Json.decode readDouble)).bind rawProfiles).getD []).filterMap Json.asMap?

def objectJump : String := (Json.get entries "jumpProfileId").toTextOr ""

/-- One object names another as its jump host; an empty name is a direct connection. -/
def NamesJump (entries target : JsonMap) : Prop :=
  objectJump entries = objectId target ∧ objectJump entries ≠ ""

instance (entries target : JsonMap) : Decidable (NamesJump entries target) :=
  inferInstanceAs (Decidable (_ ∧ _))

/-- A profile has the exported fields of its object: not the id, the status and the label of a
password, and the jump host only where it is none of the file. -/
def FieldsKept (objects : List JsonMap) (entries : JsonMap)
    (profile : SshProfile) : Prop :=
  ∀ field ∈ exportedFields, field.1 ≠ "id" → field.1 ≠ "status" →
    (field.1 = "credentialLabel" → profile.authMethod ≠ .password) →
    (field.1 = "jumpProfileId" → ∀ target ∈ objects, ¬NamesJump entries target) →
    ∀ value, entries.lookup field.1 = some value → field.2.exports value = true →
      profile.toExported.lookup field.1 = some value

/-- The profiles of an import: their ids are new, and they are those of the file. -/
structure ImportedRight (existingIds : List String) (objects : List JsonMap)
    (profiles : List SshProfile) : Prop where
  distinct : (profiles.map SshProfile.id).Nodup
  fresh : ∀ profile ∈ profiles, profile.id ∉ existingIds
  fields : List.Forall₂ (FieldsKept objects) objects profiles
  jumps : ∀ (i j : Nat) (entries target : JsonMap) (profile jump : SshProfile),
    objects[i]? = some entries → objects[j]? = some target →
    profiles[i]? = some profile → profiles[j]? = some jump →
    NamesJump entries target → profile.jumpProfileId = jump.id

variable (existingIds : List String)

def FreshImportIds (objects : List JsonMap) : Prop :=
  ∀ index, importedId clock index ∉ existingIds ∧
    ∀ entries ∈ objects, importedId clock index ≠ dartTrim (objectId entries)

/-- Nothing is to be done about the id of the object at an index: it is trimmed, does not exist yet,
and no object before it has it too. -/
def KeepsId (objects : List JsonMap) (index : Nat)
    (entries : JsonMap) : Prop :=
  dartTrim (objectId entries) = objectId entries ∧ objectId entries ∉ existingIds ∧
    ∀ i < index, ∀ earlier, objects[i]? = some earlier →
      dartTrim (objectId earlier) ≠ objectId entries

/-- Every object that another one names as its jump host keeps its id. -/
def JumpHostsKeepIds (objects : List JsonMap) : Prop :=
  ∀ (j : Nat) (entries target : JsonMap), entries ∈ objects → objects[j]? = some target →
    NamesJump entries target → KeepsId existingIds objects j target

end Portix.Profiles
