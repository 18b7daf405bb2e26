import Portix.Lib.Text
import Portix.Lib.Machine

/-!
# The secrets of profiles

`ProfileSecretStore` of `profile_secret_store.dart` on Linux: the keyring of the Secret Service, and a
directory of files, one for each profile, where the service does not answer.
-/

namespace Portix.Profiles

open Lib

/-- Whether the keyring of the desktop is there and works. -/
inductive SecretService where
  | works
  | fails
  | missing
  deriving DecidableEq

/-- The passwords in the keyring, and those in files. -/
structure ProfileSecretStore where
  keyring : String → Option String
  files : String → Option String

def passwordKey (profileId : String) : String := "portix.ssh_profile." ++ profileId ++ ".password"

def isFileNameChar (c : Char) : Bool :=
  (97 ≤ c.toNat && c.toNat ≤ 122) || (65 ≤ c.toNat && c.toNat ≤ 90) || c.isDigit || c == '_' || c == '-'

def sanitizeFileName (id : String) : String :=
  String.ofList (id.toList.flatMap fun c =>
    if isFileNameChar c then [c] else if c.toNat < 0x10000 then ['_'] else ['_', '_'])

namespace ProfileSecretStore

def empty : ProfileSecretStore := ⟨fun _ => none, fun _ => none⟩

variable (store : ProfileSecretStore)

def writeLinuxFileFallback (profileId password : String) :
    ProfileSecretStore :=
  { store with files := Function.update store.files (sanitizeFileName profileId) (some password) }

def readLinuxFileFallback (profileId : String) : Option String :=
  store.files (sanitizeFileName profileId)

def deleteLinuxFileFallback (profileId : String) : ProfileSecretStore :=
  { store with files := Function.update store.files (sanitizeFileName profileId) none }

variable (service : SecretService)

def savePassword (store : ProfileSecretStore) (profileId password : String) :
    ProfileSecretStore :=
  match service with
  | .works =>
    { store with keyring := Function.update store.keyring (passwordKey profileId) (some password) }
  | .fails => store.writeLinuxFileFallback profileId password
  | .missing => store.writeLinuxFileFallback profileId password

def readPassword (store : ProfileSecretStore) (profileId : String) :
    Option String :=
  match service with
  | .works => (store.keyring (passwordKey profileId)).or (store.readLinuxFileFallback profileId)
  | .fails => store.readLinuxFileFallback profileId
  | .missing => store.readLinuxFileFallback profileId

def deletePassword (store : ProfileSecretStore) (profileId : String) :
    ProfileSecretStore :=
  match service with
  | .works =>
    { store with keyring := Function.update store.keyring (passwordKey profileId) none }.deleteLinuxFileFallback
      profileId
  | .fails => store.deleteLinuxFileFallback profileId
  | .missing => store.deleteLinuxFileFallback profileId

end ProfileSecretStore

inductive SecretCall where
  | save (service : SecretService) (profileId password : String)
  | read (service : SecretService) (profileId : String)
  | delete (service : SecretService) (profileId : String)

inductive SecretObs where
  | saved (service : SecretService) (profileId password : String)
  | answered (service : SecretService) (profileId : String) (answer : Option String)
  | deleted (service : SecretService) (profileId : String)
  deriving DecidableEq

structure SecretRun where
  store : ProfileSecretStore
  writer : String → Option String

namespace SecretRun

def initial : SecretRun := ⟨.empty, fun _ => none⟩

def step (s : SecretRun) : SecretCall → Option (SecretRun × List SecretObs)
  | .save service id password =>
    let writer := if service = .works then s.writer
      else Function.update s.writer (sanitizeFileName id) (some id)
    some (⟨s.store.savePassword service id password, writer⟩, [.saved service id password])
  | .read service id => some (s, [.answered service id (s.store.readPassword service id)])
  | .delete service id =>
    some (⟨s.store.deletePassword service id,
      Function.update s.writer (sanitizeFileName id) none⟩, [.deleted service id])

end SecretRun

/-- The last write for a profile; after a save, whether the service has answered alike ever since. -/
inductive LastWrite where
  | never
  | deleted
  | saved (service : SecretService) (password : String) (steady : Bool)

namespace LastWrite

def password : LastWrite → Option String
  | .saved _ password _ => some password
  | .never => none
  | .deleted => none

def afterCall (service : SecretService) : LastWrite → LastWrite
  | .saved service' password steady =>
    .saved service' password (steady && (decide (service = .works) == decide (service' = .works)))
  | .never => .never
  | .deleted => .deleted

def afterObs (id : String) (last : LastWrite) : SecretObs → LastWrite
  | .saved service id' password =>
    if id' = id then .saved service password true else last.afterCall service
  | .answered service _ _ => last.afterCall service
  | .deleted service id' => if id' = id then .deleted else last.afterCall service

/-- The answer is nothing or what was saved last, nothing after a delete, and something after a save
if the service has answered alike since the save. -/
def Allows (service : SecretService) (answer : Option String) (last : LastWrite) : Prop :=
  (answer = none ∨ answer = last.password) ∧
    ∀ service' password, last = .saved service' password true →
      (service = .works ↔ service' = .works) → answer ≠ none

end LastWrite

def lastWrite (id : String) (h : List SecretObs) : LastWrite := h.foldl (LastWrite.afterObs id) .never

end Portix.Profiles
