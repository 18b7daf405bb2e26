import Portix.Lib.Settings
import Portix.Profiles.RdpRepository

/-!
# Import of .rdp files

`RdpFileParser.parse` of `domain/entities/rdp/rdp_file_parser.dart`.
-/

namespace Portix.Profiles

open Lib

def rdpFileEntries (content : String) : List (String × String) :=
  (splitChar '\n' content).filterMap (Settings.parseLine dartTrim)

def parseRdpFileLines (content : String) : String → Option String :=
  Settings.collect (rdpFileEntries content)

def isUuidDigit (c : Char) : Bool := (hexValue c).isSome

/-- The text starts with the pattern of `_deriveName`: a dot and a UUID. -/
def startsWithUuid (cs : List Char) : Bool :=
  let group := fun (start length : Nat) =>
    decide (((cs.drop start).takeWhile isUuidDigit).length ≥ length)
  let separator := fun (i : Nat) (c : Char) => cs[i]? == some c
  separator 0 '.' && group 1 8 && separator 9 '-' && group 10 4 && separator 14 '-' && group 15 4 &&
    separator 19 '-' && group 20 4 && separator 24 '-' && group 25 12

/-- `replaceAll` of the pattern by nothing; the counter says how much of a match is still to be left out. -/
def removeUuids : Nat → List Char → List Char
  | _, [] => []
  | pending + 1, _ :: rest => removeUuids pending rest
  | 0, c :: rest => if startsWithUuid (c :: rest) then removeUuids 36 rest else c :: removeUuids 0 rest

def lastPiece (c : Char) (s : String) : String := ((splitChar c s).getLast?).getD ""

def deriveName (filePath : Option String) (host alternateShell : String) : String :=
  let fallback :=
    if alternateShell ≠ "" then alternateShell
    else if host = "" then "New RDP" else "RDP – " ++ host
  match filePath with
  | none => fallback
  | some path =>
    let fileName := (lastPiece '\\' (lastPiece '/' path)).toList
    let withoutExt := if ".rdp".toList <:+ fileName then fileName.take (fileName.length - 4) else fileName
    let cleanName := dartTrim (String.ofList (removeUuids 0 withoutExt))
    if path ≠ "" ∧ cleanName ≠ "" then cleanName else fallback

def addressOf (fullAddress : String) : Option String → String × Int64
  | some portText => (dartTrim fullAddress, (intTryParse (dartTrim portText)).getD 3389)
  | none => match splitChar ':' fullAddress with
    | host :: port :: _ => (dartTrim host, (intTryParse (dartTrim port)).getD 3389)
    | [host] => (dartTrim host, 3389)
    | [] => ("", 3389)

def accountOf (username : String) : Option String × String :=
  if containsChar username '\\' then
    match splitChar '\\' username with
    | domain :: rest => (some (dartTrim domain), dartTrim (String.intercalate "\\" rest))
    | [] => (none, "")
  else (none, username)

def parseRdp (toLowerCase : String → String) (content profileId : String) (filePath : Option String) :
    RdpProfile :=
  let settings := parseRdpFileLines content
  let alternateShell := (settings "alternate shell").getD ""
  let driveStoreRedirect := (settings "drivestoredirect").getD ""
  let redirectDrives :=
    decide ((intTryParse ((settings "redirectdrives").getD "0")).getD 0 = 1) ||
      decide (dartTrim driveStoreRedirect ≠ "")
  let (host, port) := addressOf ((settings "full address").getD "") (settings "server port")
  let (domain, username) := accountOf ((settings "username").getD "")
  { id := profileId
    name := deriveName filePath host alternateShell
    host := host
    port := port
    username := username
    domain := domain
    group := if "psm".toList <:+: (toLowerCase alternateShell).toList then "CyberArk PSM" else "RDP"
    tags := if alternateShell ≠ "" then ["cyberark", "psm"] else []
    color := .cyan
    desktopWidth := (intTryParse ((settings "desktopwidth").getD "")).getD 1280
    desktopHeight := (intTryParse ((settings "desktopheight").getD "")).getD 800
    fullScreen := (intTryParse ((settings "screen mode id").getD "1")).getD 1 = 2
    redirectDrives := redirectDrives
    redirectClipboard := true
    localSharePath := if redirectDrives then some "~/PortixShare" else none
    alternateShell := alternateShell
    enableCredSsp := (intTryParse ((settings "EnableCredSspSupport").getD "0")).getD 0 = 1
    sourceRdpFilePath := filePath
    status := .offline }

structure RdpSetting where
  key : String
  type : String
  value : String

def RdpSetting.line (setting : RdpSetting) : String := setting.key ++ ":" ++ setting.type ++ ":" ++ setting.value

def switchText (on : Bool) : String := if on then "1" else "0"

variable (profile : RdpProfile)

def accountText : String :=
  if profile.domain.getD "" ≠ "" then profile.domain.getD "" ++ "\\" ++ profile.username else profile.username

def rdpSettings : List RdpSetting :=
  [⟨"full address", "s", profile.host⟩, ⟨"server port", "i", intText profile.port⟩,
    ⟨"username", "s", accountText profile⟩] ++
  (if profile.alternateShell ≠ "" then [⟨"alternate shell", "s", profile.alternateShell⟩] else []) ++
  [⟨"desktopwidth", "i", intText profile.desktopWidth⟩, ⟨"desktopheight", "i", intText profile.desktopHeight⟩,
    ⟨"screen mode id", "i", if profile.fullScreen then "2" else "1"⟩,
    ⟨"redirectdrives", "i", switchText profile.redirectDrives⟩] ++
  (if profile.redirectDrives then [⟨"drivestoredirect", "s", "*"⟩] else []) ++
  [⟨"redirectclipboard", "i", switchText profile.redirectClipboard⟩, ⟨"redirectsmartcards", "i", "0"⟩,
    ⟨"EnableCredSspSupport", "i", switchText profile.enableCredSsp⟩, ⟨"redirectcomports", "i", "0"⟩,
    ⟨"remoteapplicationmode", "i", "0"⟩, ⟨"use multimon", "i", "0"⟩, ⟨"span monitors", "i", "0"⟩]

def serializeRdp : String :=
  "\n".intercalate ((rdpSettings profile).map RdpSetting.line)

/-- The back-slash between a domain and a user name is the first one that is written. -/
def FirstBackslash : Prop :=
  if profile.domain.getD "" ≠ "" then '\\' ∉ (profile.domain.getD "").toList
  else '\\' ∉ profile.username.toList

/-- The settings of a connection are the same; an empty domain is none. -/
structure SameConnection (a b : RdpProfile) : Prop where
  host : a.host = b.host
  port : a.port = b.port
  username : a.username = b.username
  domain : a.domain.getD "" = b.domain.getD ""
  alternateShell : a.alternateShell = b.alternateShell
  desktopWidth : a.desktopWidth = b.desktopWidth
  desktopHeight : a.desktopHeight = b.desktopHeight
  fullScreen : a.fullScreen = b.fullScreen
  redirectDrives : a.redirectDrives = b.redirectDrives
  redirectClipboard : a.redirectClipboard = b.redirectClipboard
  enableCredSsp : a.enableCredSsp = b.enableCredSsp

/-- A text on one line, without white space around it. -/
structure OneLine (text : String) : Prop where
  unbroken : '\n' ∉ text.toList
  trimmed : dartTrim text = text

/-- The texts of a connection are on one line each. -/
structure OneLineTexts (profile : RdpProfile) : Prop where
  host : OneLine profile.host
  username : OneLine profile.username
  domain : OneLine (profile.domain.getD "")
  alternateShell : OneLine profile.alternateShell

end Portix.Profiles
