import Portix.Lib.Json
import Portix.Profiles.SecretStore
import Portix.Profiles.SshProfile

/-!
# The repository of SSH profiles

`SshProfileRepository` of `ssh_profile_repository.dart`: the list in memory, the file it is written to
and the secrets. What a call does to the three is given step by step; `saveProfile` and `deleteProfile`
are calls that nothing comes between.
-/

namespace Portix.Profiles

open Lib

namespace SshProfile

def toEntries (profile : SshProfile) : JsonMap :=
  [("id", .string profile.id),
    ("name", .string profile.name),
    ("host", .string profile.host),
    ("port", .int profile.port),
    ("username", .string profile.username),
    ("group", .string profile.group),
    ("tags", .list (profile.tags.map .string)),
    ("authMethod", .string profile.authMethod.name),
    ("credentialLabel", .string profile.credentialLabel),
    ("defaultPath", .string profile.defaultPath),
    ("status", .string profile.status.name),
    ("color", .string profile.color.name),
    ("startupCommand", .string profile.startupCommand),
    ("terminalFontSize", .int profile.terminalFontSize),
    ("lastUsedLabel", .string profile.lastUsedLabel),
    ("osIconAsset", .string profile.osIconAsset),
    ("jumpProfileId", .string profile.jumpProfileId),
    ("forwardAgent", .bool profile.forwardAgent),
    ("runsKubernetes", .bool profile.runsKubernetes)]

def fromEntries (json : JsonMap) : Option SshProfile :=
  (Json.get json "tags").asList?.map fun tags =>
    { id := (Json.get json "id").toTextOr ""
      name := (Json.get json "name").toTextOr ""
      host := (Json.get json "host").toTextOr ""
      port := (Json.get json "port").toIntOr 22
      username := (Json.get json "username").toTextOr ""
      group := (Json.get json "group").toTextOr "Production"
      tags := tags.map Json.toText
      authMethod := Json.enumValue AuthMethod.name AuthMethod.values (Json.get json "authMethod") .sshKey
      credentialLabel := (Json.get json "credentialLabel").toTextOr ""
      defaultPath := (Json.get json "defaultPath").toTextOr "~"
      status := Json.enumValue ConnectionStatus.name ConnectionStatus.values (Json.get json "status") .offline
      color := Json.enumValue ProfileColor.name ProfileColor.values (Json.get json "color") .green
      startupCommand := (Json.get json "startupCommand").toTextOr ""
      terminalFontSize := (Json.get json "terminalFontSize").toIntOr 14
      lastUsedLabel := (Json.get json "lastUsedLabel").toTextOr "recently"
      osIconAsset := (Json.get json "osIconAsset").toTextOr ""
      jumpProfileId := (Json.get json "jumpProfileId").toTextOr ""
      forwardAgent := (Json.get json "forwardAgent").isTrue
      runsKubernetes := (Json.get json "runsKubernetes").isTrue }

end SshProfile

variable {α : Type}

/-- The items of a list that was read that are objects (`whereType<Map>`), each as a profile:
`none` if the cast of one of them throws. -/
def profilesOf (fromEntries : JsonMap → Option α) (source : List Json) :
    Option (List α) := (source.filterMap Json.asMap?).mapM fromEntries

/-- The list that a file holds; empty if there is no file, or anything goes wrong. -/
def readProfiles (readDouble : String → String)
    (fromEntries : JsonMap → Option α) (file : Option String) : List α :=
  match file.bind (Json.decode readDouble) with
  | some (.list source) => (profilesOf fromEntries source).getD []
  | _ => []

def generatedId (clock : Nat → Nat) (index : Nat) : String :=
  "profile-" ++ toString (clock index) ++ "-" ++ toString index

def uniqueProfileId (generated candidate : String) (usedIds : List String) : String :=
  let normalized := dartTrim candidate
  if normalized ≠ "" ∧ normalized ∉ usedIds then normalized else generated

def dedupeFrom (clock : Nat → Nat) (usedIds : List String) (index : Nat) :
    List SshProfile → List SshProfile
  | [] => []
  | profile :: rest =>
    let id := uniqueProfileId (generatedId clock index) profile.id usedIds
    { profile with id := id } :: dedupeFrom clock (id :: usedIds) (index + 1) rest

def dedupeProfileIds (clock : Nat → Nat) (profiles : List SshProfile) : List SshProfile :=
  dedupeFrom clock [] 0 profiles

/-- `_loadProfiles`. `clock` gives the time at each index, in microseconds. -/
def loadProfiles (readDouble : String → String) (clock : Nat → Nat) (file : Option String) :
    List SshProfile :=
  dedupeProfileIds clock (readProfiles readDouble SshProfile.fromEntries file)

/-- An id as the form, the import and quick connect make them: not blank, nothing to trim. -/
def UsableId (id : String) : Prop := dartTrim id = id ∧ id ≠ ""

instance (id : String) : Decidable (UsableId id) := inferInstanceAs (Decidable (_ ∧ _))

/-- The ids of a list of profiles are usable and distinct. -/
def GoodIds (profiles : List SshProfile) : Prop :=
  (profiles.map SshProfile.id).Nodup ∧ ∀ profile ∈ profiles, UsableId profile.id

/-- No id that may be made up is the id of a profile. -/
def FreshIds (clock : Nat → Nat) (profiles : List SshProfile) : Prop :=
  ∀ index, ∀ profile ∈ profiles, generatedId clock index ≠ dartTrim profile.id

/-- A profile in a list by its id: it takes the place of the one with its id, else it comes first. -/
def insertProfile (id : α → String) (saved : α) (profiles : List α) : List α :=
  match profiles.findIdx? fun item => id item = id saved with
  | some index => profiles.set index saved
  | none => saved :: profiles

def removeProfile (id : α → String) (profileId : String) (profiles : List α) : List α :=
  profiles.filter fun item => id item ≠ profileId

def profilesText (toEntries : α → JsonMap) (profiles : List α) : String :=
  Json.encode Json.indented (.list (profiles.map fun profile => .map (toEntries profile)))

def savedPasswordPlaceholder : String := "Saved password"

namespace SshProfile

variable (profile : SshProfile)

def refused : Bool := dartTrim profile.name = "" || dartTrim profile.host = ""

def typedPassword : Option String :=
  let password := dartTrim profile.credentialLabel
  if password ≠ "" ∧ password ≠ savedPasswordPlaceholder then some password else none

def saved : SshProfile :=
  match profile.authMethod with
  | .password => { profile with credentialLabel := savedPasswordPlaceholder, status := .offline }
  | .sshKey => { profile with status := .offline }

def storeSecret (service : SecretService) (secrets : ProfileSecretStore) :
    ProfileSecretStore :=
  match profile.authMethod with
  | .password => match profile.typedPassword with
    | some password => secrets.savePassword service profile.id password
    | none => secrets
  | .sshKey => secrets.deletePassword service profile.id

end SshProfile

/-- The profiles in memory, the passwords, and the file. -/
structure SshProfileRepository where
  profiles : List SshProfile
  secrets : ProfileSecretStore
  file : Option String

namespace SshProfileRepository

def persistProfiles (repository : SshProfileRepository) : SshProfileRepository :=
  { repository with file := some (profilesText SshProfile.toEntries repository.profiles) }

def saveProfile (service : SecretService) (repository : SshProfileRepository) (profile : SshProfile) :
    Except String SshProfile × SshProfileRepository :=
  if profile.refused then (.error "Profile name and host are required.", repository)
  else (.ok profile.saved, persistProfiles { repository with
    secrets := profile.storeSecret service repository.secrets
    profiles := insertProfile SshProfile.id profile.saved repository.profiles })

def deleteProfile (repository : SshProfileRepository) (id : String) : SshProfileRepository :=
  persistProfiles { repository with profiles := removeProfile SshProfile.id id repository.profiles }

def restart (readDouble : String → String) (clock : Nat → Nat) (repository : SshProfileRepository) :
    SshProfileRepository :=
  { repository with profiles := loadProfiles readDouble clock repository.file }

end SshProfileRepository

/-- A call that completes before the next one. Logins store a secret with `ProfileCredentials.savePassword`;
the service is how the Secret Service answers at that moment. -/
inductive RepositoryCall where
  | save (service : SecretService) (profile : SshProfile)
  | delete (id : String)
  | savePassword (service : SecretService) (profileId password : String)
  | restart (clock : Nat → Nat)

/-- The repository, and whether the list in memory was ever written to the file. -/
structure SshRun where
  repository : SshProfileRepository
  written : Bool

namespace SshRun

variable (readDouble : String → String)

def start (clock : Nat → Nat) (file : Option String) (secrets : ProfileSecretStore) : SshRun where
  repository := ⟨loadProfiles readDouble clock file, secrets, file⟩
  written := false

def step (s : SshRun) (call : RepositoryCall) : Option (SshRun × List RepositoryCall) :=
  match call with
  | .save service profile =>
    some (⟨(s.repository.saveProfile service profile).2, s.written || !profile.refused⟩, [call])
  | .delete id => some (⟨s.repository.deleteProfile id, true⟩, [call])
  | .savePassword service profileId password =>
    some ({ s with repository.secrets :=
      s.repository.secrets.savePassword service profileId password }, [call])
  | .restart clock => some ({ s with repository := s.repository.restart readDouble clock }, [call])

/-- Profiles are saved under usable ids, and the list was written before the program is started again. -/
def Proper (s : SshRun) : RepositoryCall → Prop
  | .save _ profile => UsableId profile.id
  | .delete _ => True
  | .savePassword _ _ _ => True
  | .restart _ => s.written = true

end SshRun

-- What a call of the repository may do to the secret of a profile: when the user has asked for the secret to go,
-- which writes leave it as it is read, and when a profile that goes leaves its secret behind.

section Staying

variable (service : SecretService) (id password : String) (secrets : ProfileSecretStore)

/-- The secret is read from the keyring, not from the file. -/
def ReadFromKeyring : Prop := service = .works ∧ secrets.keyring (passwordKey id) ≠ none

/-- Writing a password with the service as it answers then leaves the secret that is read: it is the
same one, or it goes to where this one is not read from. -/
def WriteSpares (service' : SecretService) (id' password' : String) : Prop :=
  password' = password ∨
    if service' = .works then id' = id → service ≠ .works
    else sanitizeFileName id' = sanitizeFileName id → ReadFromKeyring service id secrets

/-- So does clearing the slot of a profile. -/
def ClearSpares (service' : SecretService) (id' : String) : Prop :=
  sanitizeFileName id' = sanitizeFileName id →
    ReadFromKeyring service id secrets ∧ (id' = id → service' ≠ .works)

end Staying

namespace SshRun

/-- The profile is saved with another authentication method than it is stored with. -/
def ChangesAuthMethod (s : SshRun) (profile : SshProfile) : Prop :=
  ∃ stored, (s.repository.profiles.find? fun item => item.id = profile.id) = some stored ∧
    stored.authMethod ≠ profile.authMethod

/-- The user has asked for the secret of a profile to go: the profile is deleted, another secret is
entered for it, or it is saved with another authentication method. -/
def Releases (id password : String) (s : SshRun) : RepositoryCall → Prop
  | .save _ profile => profile.refused = false ∧ profile.id = id ∧
      (s.ChangesAuthMethod profile ∨
        profile.authMethod = .password ∧ profile.typedPassword ≠ none ∧
          profile.credentialLabel ≠ password)
  | .delete id' => id' = id
  | .savePassword _ id' password' => id' = id ∧ password' ≠ password
  | .restart _ => False

/-- What a call writes or clears leaves the secret of a profile as it is read. -/
def Spares (service : SecretService) (id password : String) (s : SshRun) : RepositoryCall → Prop
  | .save service' profile => profile.refused = true ∨ match profile.authMethod with
    | .password => ∀ typed, profile.typedPassword = some typed →
      WriteSpares service id password s.repository.secrets service' profile.id typed
    | .sshKey => ClearSpares service id s.repository.secrets service' profile.id
  | .delete _ => True
  | .savePassword service' id' password' =>
    WriteSpares service id password s.repository.secrets service' id' password'
  | .restart _ => True

/-- The repository holds a profile with the id. -/
def Has (s : SshRun) (id : String) : Prop := id ∈ s.repository.profiles.map SshProfile.id

instance (s : SshRun) (id : String) : Decidable (s.Has id) := inferInstanceAs (Decidable (_ ∈ _))

/-- A secret is read only under the id of a profile. -/
def NoOrphan (s : SshRun) : Prop :=
  ∀ service id, s.repository.secrets.readPassword service id ≠ none → s.Has id

/-- A password that goes to a file is read by profiles only. -/
def OwnsFile (s : SshRun) (id : String) : Prop :=
  ∀ id', sanitizeFileName id' = sanitizeFileName id → id' = id ∨ s.Has id'

/-- A call leaves no secret without its profile: a password goes to a file that only profiles of the
repository read, the profile that is deleted has no secret, and at a restart the file names every
profile that has one. Logins store secrets for profiles of the repository. -/
def Tidy (readDouble : String → String) (s : SshRun) : RepositoryCall → Prop
  | .save service profile => profile.refused = true ∨ profile.authMethod = .sshKey ∨
      profile.typedPassword = none ∨ service = .works ∨ s.OwnsFile profile.id
  | .delete id => ∀ service, s.repository.secrets.readPassword service id = none
  | .savePassword service id _ => s.Has id ∧ (service = .works ∨ s.OwnsFile id)
  | .restart _ => ∀ service id, s.repository.secrets.readPassword service id ≠ none →
      id ≠ "" ∧ ∃ item ∈ readProfiles readDouble SshProfile.fromEntries s.repository.file,
        dartTrim item.id = id

end SshRun

end Portix.Profiles
