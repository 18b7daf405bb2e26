import Portix.Profiles.RdpFileParser

/-!
# The two parsers of RDP files

`parse_rdp_file` of `domain/profile.rs` and the app each read the settings of a file. What each of them finds under a
key, when both find the same settings, and where the lines alone make sure that the texts are the same.
-/

namespace Portix.Rdp

open Lib

/-- What `parse_rdp_file` makes of a file; the other fields of the profile are always the same. -/
structure ParsedProfile where
  id : String
  name : String
  host : String
  port : UInt16
  username : String
  domain : Option String
  desktopWidth : UInt16
  desktopHeight : UInt16
  fullScreen : Bool
  enableCredSsp : Bool
  alternateShell : Option String
  sourceRdpContent : Option String
  redirectDrives : Bool

def rdpEntries (content : String) : List (String × String) :=
  (lines content).filterMap (Settings.parseLine trim)

section

variable (toLowercase : String → String)

def parseRdpLines (content : String) : String → Option String :=
  Settings.collect ((rdpEntries content).map fun entry => (toLowercase entry.1, entry.2))

def containsPsm (shell : String) : Bool :=
  decide ("psm".toList <:+: (toLowercase shell).toList)

def hostAndPort (fullAddress : String) : Option String → String × UInt16
  | some portText => (trim fullAddress, (parseU16 (trim portText)).getD 3389)
  | none => match splitFirst ':' fullAddress with
    | some (host, port) => (trim host, (parseU16 (trim port)).getD 3389)
    | none => (trim fullAddress, 3389)

def domainAndUser (username : String) : Option String × String :=
  match splitFirst '\\' username with
  | some (domain, user) => (some (trim domain), trim user)
  | none => (none, username)

def parseRdpFile (content profileId : String) (profileName : Option String) :
    ParsedProfile :=
  let settings := parseRdpLines toLowercase content
  let alternateShell := settings "alternate shell"
  let screenModeId := ((settings "screen mode id").bind parseI32).getD 1
  let originalCredSsp := ((settings "enablecredsspsupport").bind parseI32).getD 1 = 1
  let (host, port) := hostAndPort ((settings "full address").getD "") (settings "server port")
  let (domain, username) := domainAndUser ((settings "username").getD "")
  { id := profileId
    name := match profileName with
      | some name => name
      | none => if alternateShell.isSome then "CyberArk – " ++ host else "RDP – " ++ host
    host := host
    port := port
    username := username
    domain := domain
    desktopWidth := ((settings "desktopwidth").bind parseU16).getD 1280
    desktopHeight := ((settings "desktopheight").bind parseU16).getD 800
    fullScreen := screenModeId = 2
    -- A PSM requires CredSSP, whatever the file says.
    enableCredSsp := alternateShell.any (containsPsm toLowercase) || decide originalCredSsp
    alternateShell := alternateShell
    sourceRdpContent := some content
    redirectDrives := ((settings "redirectdrives").bind parseI32).getD 0 = 1 }

end

def backendText (toLowercase : String → String) (content key : String) : Option String :=
  Settings.lastValue (fun k => toLowercase k == key) (rdpEntries content)

def appText (content key : String) : Option String :=
  Settings.lastValue (· == key) (Profiles.rdpFileEntries content)

def hostText (texts : String → Option String) : String :=
  let address := (texts "full address").getD ""
  if (texts "server port").isSome then address else beforeFirst ':' address

def behindColon (texts : String → Option String) : Option String :=
  (splitFirst ':' ((texts "full address").getD "")).map Prod.snd

def backendPortText (texts : String → Option String) : Option String :=
  (texts "server port").or (behindColon texts)

def appPortText (texts : String → Option String) : Option String :=
  (texts "server port").or ((behindColon texts).map (beforeFirst ':'))

/-- Two texts name the same domain and user. -/
def UsersAgree (backend app : String) : Prop :=
  match splitFirst '\\' backend, splitFirst '\\' app with
  | some (domain, user), some (domain', user') =>
    trim domain = dartTrim domain' ∧ trim user = dartTrim user'
  | none, none => backend = app
  | _, _ => False

/-- The texts of the settings that are texts agree. -/
structure TextsAgree (backend app : String → Option String) : Prop where
  host : trim (hostText backend) = dartTrim (hostText app)
  user : UsersAgree ((backend "username").getD "") ((app "username").getD "")
  alternateShell : (backend "alternate shell").getD "" = (app "alternate shell").getD ""

/-- A size that the app reads is read by the backend too, if it has 16 bits. -/
def SizesAgree (default : Int) (backend app : Option String) : Prop :=
  ∀ n : Int, ((app.bind intTryParse).map Int64.toInt).getD default = n → 0 ≤ n → n ≤ 65535 →
    ((backend.bind parseU16).map fun m => (m.toNat : Int)).getD default = n

/-- The numbers of the settings agree. -/
structure NumbersAgree (toLowercase : String → String) (backend app : String → Option String) : Prop where
  port : (((backendPortText backend).bind fun text => parseU16 (trim text)).map
      fun n => (n.toNat : Int)).getD 3389 =
    (((appPortText app).bind fun text => intTryParse (dartTrim text)).map Int64.toInt).getD 3389
  desktopWidth : SizesAgree 1280 (backend "desktopwidth") (app "desktopwidth")
  desktopHeight : SizesAgree 800 (backend "desktopheight") (app "desktopheight")
  fullScreen : (backend "screen mode id").bind parseI32 = some 2 ↔
    (app "screen mode id").bind intTryParse = some 2
  redirectDrives : (backend "redirectdrives").bind parseI32 = some 1 ↔
    (app "redirectdrives").bind intTryParse = some 1 ∨
      ∃ drives, app "drivestoredirect" = some drives ∧ dartTrim drives ≠ ""
  enableCredSsp : ((∃ shell, backend "alternate shell" = some shell ∧ containsPsm toLowercase shell) ∨
      (backend "enablecredsspsupport").bind parseI32 = none ∨
      (backend "enablecredsspsupport").bind parseI32 = some 1) ↔
    (app "EnableCredSspSupport").bind intTryParse = some 1

/-- The two profiles say the same; a size that has no 16 bits is not compared. -/
structure SameSettings (backend : ParsedProfile) (app : Profiles.RdpProfile) : Prop where
  host : backend.host = app.host
  port : (backend.port.toNat : Int) = app.port.toInt
  username : backend.username = app.username
  domain : backend.domain = app.domain
  alternateShell : backend.alternateShell.getD "" = app.alternateShell
  desktopWidth : 0 ≤ app.desktopWidth.toInt → app.desktopWidth.toInt ≤ 65535 →
    (backend.desktopWidth.toNat : Int) = app.desktopWidth.toInt
  desktopHeight : 0 ≤ app.desktopHeight.toInt → app.desktopHeight.toInt ≤ 65535 →
    (backend.desktopHeight.toNat : Int) = app.desktopHeight.toInt
  fullScreen : backend.fullScreen = app.fullScreen
  redirectDrives : backend.redirectDrives = app.redirectDrives
  enableCredSsp : backend.enableCredSsp = app.enableCredSsp

/-- A text without a byte order mark. -/
def Unmarked (s : String) : Prop := ∀ c ∈ s.toList, c.toNat ≠ 0xFEFF

/-- The keys that are looked up, as the backend and as the app spell them. -/
def sharedKeys : List (String × String) :=
  [("full address", "full address"), ("server port", "server port"), ("username", "username"),
    ("alternate shell", "alternate shell"), ("desktopwidth", "desktopwidth"),
    ("desktopheight", "desktopheight"), ("screen mode id", "screen mode id"),
    ("redirectdrives", "redirectdrives"), ("enablecredsspsupport", "EnableCredSspSupport")]

/-- No byte order mark, and no key that only one of the parsers takes for one of its own. -/
structure SpelledAlike (toLowercase : String → String) (content : String) : Prop where
  unmarked : Unmarked content
  keys : ∀ entry ∈ rdpEntries content, ∀ key ∈ sharedKeys, toLowercase entry.1 = key.1 ↔ entry.1 = key.2

end Portix.Rdp
