import Portix.Lib.Persist
import Portix.Profiles.SshRepository

/-!
# The repository of RDP profiles

`domain/entities/rdp/rdp_profile.dart` and `RdpProfileRepository` of `rdp_profile_repository.dart`:
the list in memory and the file it is written to.
-/

namespace Portix.Profiles

open Lib

inductive RdpProfileStatus where
  | offline
  | connecting
  | connected
  | error
  | draft
  deriving DecidableEq

namespace RdpProfileStatus

def values : List RdpProfileStatus := [.offline, .connecting, .connected, .error, .draft]

def name : RdpProfileStatus → String
  | .offline => "offline"
  | .connecting => "connecting"
  | .connected => "connected"
  | .error => "error"
  | .draft => "draft"

end RdpProfileStatus

inductive RdpProfileColor where
  | blue
  | cyan
  | green
  | amber
  | pink
  deriving DecidableEq

namespace RdpProfileColor

def values : List RdpProfileColor := [.blue, .cyan, .green, .amber, .pink]

def name : RdpProfileColor → String
  | .blue => "blue"
  | .cyan => "cyan"
  | .green => "green"
  | .amber => "amber"
  | .pink => "pink"

end RdpProfileColor

def defaultLocalShareName : String := "PORTIX"

structure RdpProfile where
  id : String
  name : String
  host : String
  port : Int64
  username : String
  group : String
  tags : List String
  color : RdpProfileColor
  password : Option String := none
  domain : Option String := none
  desktopWidth : Int64 := 1280
  desktopHeight : Int64 := 800
  fullScreen : Bool := false
  redirectDrives : Bool := false
  redirectClipboard : Bool := true
  alternateShell : String := ""
  enableCredSsp : Bool := false
  sourceRdpFilePath : Option String := none
  status : RdpProfileStatus := .offline
  lastUsedLabel : String := "never"
  localSharePath : Option String := none
  localShareName : String := defaultLocalShareName
  deriving DecidableEq

namespace RdpProfile

variable (profile : RdpProfile)

def toEntries : JsonMap :=
  [("id", .string profile.id),
    ("name", .string profile.name),
    ("host", .string profile.host),
    ("port", .int profile.port),
    ("username", .string profile.username),
    ("domain", .ofString? profile.domain),
    ("group", .string profile.group),
    ("tags", .list (profile.tags.map .string)),
    ("color", .string profile.color.name),
    ("desktopWidth", .int profile.desktopWidth),
    ("desktopHeight", .int profile.desktopHeight),
    ("fullScreen", .bool profile.fullScreen),
    ("redirectDrives", .bool profile.redirectDrives),
    ("redirectClipboard", .bool profile.redirectClipboard),
    ("localSharePath", .ofString? profile.localSharePath),
    ("localShareName", .string profile.localShareName),
    ("alternateShell", .string profile.alternateShell),
    ("enableCredSsp", .bool profile.enableCredSsp),
    ("sourceRdpFilePath", .ofString? profile.sourceRdpFilePath),
    ("status", .string profile.status.name),
    ("lastUsedLabel", .string profile.lastUsedLabel)]

def fromEntries (json : JsonMap) : Option RdpProfile := do
  let domain ← (Json.get json "domain").asString?
  let tags ← (Json.get json "tags").asList?
  let fullScreen ← (Json.get json "fullScreen").asBool?
  let redirectDrives ← (Json.get json "redirectDrives").asBool?
  let redirectClipboard ← (Json.get json "redirectClipboard").asBool?
  let enableCredSsp ← (Json.get json "enableCredSsp").asBool?
  let sourceRdpFilePath ← (Json.get json "sourceRdpFilePath").asString?
  some
    { id := (Json.get json "id").toTextOr ""
      name := (Json.get json "name").toTextOr ""
      host := (Json.get json "host").toTextOr ""
      port := (Json.get json "port").toIntOr 3389
      username := (Json.get json "username").toTextOr ""
      domain := domain
      group := (Json.get json "group").toTextOr "RDP"
      tags := tags.map Json.toText
      color := Json.enumValue RdpProfileColor.name RdpProfileColor.values (Json.get json "color") .blue
      desktopWidth := (Json.get json "desktopWidth").toIntOr 1280
      desktopHeight := (Json.get json "desktopHeight").toIntOr 800
      fullScreen := fullScreen.getD false
      redirectDrives := redirectDrives.getD false
      redirectClipboard := redirectClipboard.getD true
      localSharePath := (Json.get json "localSharePath").toText?
      localShareName := (Json.get json "localShareName").toTextOr defaultLocalShareName
      alternateShell := (Json.get json "alternateShell").toTextOr ""
      enableCredSsp := enableCredSsp.getD false
      sourceRdpFilePath := sourceRdpFilePath
      status := Json.enumValue RdpProfileStatus.name RdpProfileStatus.values (Json.get json "status")
        .offline
      lastUsedLabel := (Json.get json "lastUsedLabel").toTextOr "never" }

def refused : Option String :=
  if dartTrim profile.name = "" then some "Profile name is required."
  else if dartTrim profile.host = "" then some "Host / IP is required."
  else none

def saved : RdpProfile := { profile with status := .offline }

end RdpProfile

def loadRdpProfiles (readDouble : String → String) (file : Option String) : List RdpProfile :=
  readProfiles readDouble RdpProfile.fromEntries file

/-- The profiles in memory, and the file. -/
structure RdpProfileRepository where
  profiles : List RdpProfile
  file : Option String

namespace RdpProfileRepository

variable (repository : RdpProfileRepository)

def persist : RdpProfileRepository :=
  { repository with file := some (profilesText RdpProfile.toEntries repository.profiles) }

def saveProfile (profile : RdpProfile) :
    Except String RdpProfile × RdpProfileRepository :=
  match profile.refused with
  | some message => (.error message, repository)
  | none => (.ok profile.saved, persist { repository with
      profiles := insertProfile RdpProfile.id profile.saved repository.profiles })

def deleteProfile (id : String) : RdpProfileRepository :=
  persist { repository with profiles := removeProfile RdpProfile.id id repository.profiles }

def restart (readDouble : String → String) (repository : RdpProfileRepository) :
    RdpProfileRepository :=
  { repository with profiles := loadRdpProfiles readDouble repository.file }

end RdpProfileRepository

inductive RdpRepositoryCall where
  | save (profile : RdpProfile)
  | delete (id : String)
  | restart

/-- The repository, and whether the list in memory was ever written to the file. -/
structure RdpRun where
  repository : RdpProfileRepository
  written : Bool

namespace RdpRun

variable (readDouble : String → String)

def start (file : Option String) : RdpRun where
  repository := ⟨loadRdpProfiles readDouble file, file⟩
  written := false

def step (s : RdpRun) (call : RdpRepositoryCall) : Option (RdpRun × List RdpRepositoryCall) :=
  match call with
  | .save profile =>
    some (⟨(s.repository.saveProfile profile).2, s.written || profile.refused.isNone⟩, [call])
  | .delete id => some (⟨s.repository.deleteProfile id, true⟩, [call])
  | .restart => some ({ s with repository := s.repository.restart readDouble }, [call])

def Proper (s : RdpRun) : RdpRepositoryCall → Prop
  | .save _ => True
  | .delete _ => True
  | .restart => s.written = true

end RdpRun

-- Calls of a repository that overlap: the list in memory changes, its text is made after the directory of the file
-- was created, and the file is rewritten from there. Before the list changes, `saveProfile` waits and stores the
-- secret.

inductive ProfileChange (α : Type) where
  | save (profile : α)
  | delete (id : String)

namespace SshProfileRepository

def changeList : ProfileChange SshProfile → List SshProfile → Option (List SshProfile)
  | .save profile, profiles =>
    if profile.refused then none else some (insertProfile SshProfile.id profile.saved profiles)
  | .delete id, profiles => some (removeProfile SshProfile.id id profiles)

def fileBytes (profiles : List SshProfile) : List UInt8 :=
  utf8 (profilesText SshProfile.toEntries profiles)

def loadFile (readDouble : String → String) (clock : Nat → Nat) (file : Option (List UInt8)) :
    List SshProfile := loadProfiles readDouble clock (file.bind ofUtf8)

def GivesBack (readDouble : String → String) (file : Option (List UInt8))
    (profiles : List SshProfile) : Prop := ∀ clock, loadFile readDouble clock file = profiles

def Usable : ProfileChange SshProfile → Prop
  | .save profile => UsableId profile.id
  | .delete _ => True

end SshProfileRepository

namespace RdpProfileRepository

def changeList : ProfileChange RdpProfile → List RdpProfile → Option (List RdpProfile)
  | .save profile, profiles =>
    if profile.refused.isSome then none else some (insertProfile RdpProfile.id profile.saved profiles)
  | .delete id, profiles => some (removeProfile RdpProfile.id id profiles)

def fileBytes (profiles : List RdpProfile) : List UInt8 :=
  utf8 (profilesText RdpProfile.toEntries profiles)

def loadFile (readDouble : String → String) (file : Option (List UInt8)) : List RdpProfile :=
  loadRdpProfiles readDouble (file.bind ofUtf8)

def GivesBack (readDouble : String → String) (file : Option (List UInt8))
    (profiles : List RdpProfile) : Prop :=
  loadFile readDouble file = profiles.map fun profile => { profile with password := none }

end RdpProfileRepository

end Portix.Profiles
