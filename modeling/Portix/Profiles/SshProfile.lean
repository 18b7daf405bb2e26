import Portix.Lib.Regex

/-!
# SSH profiles

`domain/entities/ssh/ssh_profile.dart`, and the profiles that quick connect makes
(`quick_connect.dart`). `copyWith` is the update of a structure.
-/

namespace Portix.Profiles

inductive AuthMethod where
  | sshKey
  | password
  deriving DecidableEq

namespace AuthMethod

def values : List AuthMethod := [.sshKey, .password]

def name : AuthMethod → String
  | .sshKey => "sshKey"
  | .password => "password"

end AuthMethod

inductive ConnectionStatus where
  | online
  | offline
  | draft
  | error
  deriving DecidableEq

namespace ConnectionStatus

def values : List ConnectionStatus := [.online, .offline, .draft, .error]

def name : ConnectionStatus → String
  | .online => "online"
  | .offline => "offline"
  | .draft => "draft"
  | .error => "error"

end ConnectionStatus

inductive ProfileColor where
  | green
  | cyan
  | blue
  | pink
  | amber
  deriving DecidableEq

namespace ProfileColor

def values : List ProfileColor := [.green, .cyan, .blue, .pink, .amber]

def name : ProfileColor → String
  | .green => "green"
  | .cyan => "cyan"
  | .blue => "blue"
  | .pink => "pink"
  | .amber => "amber"

end ProfileColor

structure SshProfile where
  id : String
  name : String
  host : String
  port : Int64
  username : String
  group : String
  tags : List String
  authMethod : AuthMethod
  credentialLabel : String
  defaultPath : String
  status : ConnectionStatus
  color : ProfileColor
  startupCommand : String := ""
  terminalFontSize : Int64 := 14
  lastUsedLabel : String := "recently"
  osIconAsset : String := ""
  jumpProfileId : String := ""
  forwardAgent : Bool := false
  runsKubernetes : Bool := false
  deriving DecidableEq

structure QuickConnectTarget where
  user : String
  host : String
  port : Nat

def quickConnectLabel (target : QuickConnectTarget) : String :=
  let host := if Lib.containsChar target.host ':' then "[" ++ target.host ++ "]" else target.host
  let port := if target.port = 22 then "" else ":" ++ toString target.port
  target.user ++ "@" ++ host ++ port

def quickConnectProfile (target : QuickConnectTarget) : SshProfile where
  id := "quick-" ++ quickConnectLabel target
  name := quickConnectLabel target
  host := target.host
  port := Int64.ofNat target.port
  username := target.user
  group := "Quick connect"
  tags := []
  authMethod := .password
  credentialLabel := ""
  defaultPath := "~"
  status := .offline
  color := .cyan

-- `parseQuickConnect` of `controller/quick_connect.dart`. An address is what one would type after `ssh`.

open Lib Regex

deriving instance DecidableEq for QuickConnectTarget

def isUserChar (c : Char) : Bool := c != '@' && !isRegExpSpace c

def isIpv6Char (c : Char) : Bool :=
  c.isDigit || decide ('a' ≤ c ∧ c ≤ 'f') || decide ('A' ≤ c ∧ c ≤ 'F') || c == ':' || c == '.'

def isHostChar (c : Char) : Bool := c.isAlphanum || c == '.' || c == '_' || c == '-'

def sshPattern : Regex := opt (seqs [lit 's', lit 's', lit 'h', plus isRegExpSpace])

def userPattern : Regex := opt (seqs [group 1 (plus isUserChar), lit '@'])

def hostPattern : Regex := group 2 (alt (seqs [lit '[', plus isIpv6Char, lit ']']) (plus isHostChar))

def portPattern (n : Nat) : Regex := group n (many Char.isDigit 1 (some 5))

def quickConnect : Regex :=
  seqs [sshPattern, userPattern, hostPattern, opt (seqs [lit ':', portPattern 3]),
    opt (seqs [plus isRegExpSpace, lit '-', lit 'p', star isRegExpSpace, portPattern 4])]

def parseQuickConnect (input defaultUser : String) : Option QuickConnectTarget :=
  match fullMatch quickConnect (dartTrim input).toList with
  | none => none
  | some captures =>
    let host := (captures.lookup 2).getD []
    let looksLikeHost :=
      host.contains '.' || host.head? == some '[' || host == "localhost".toList || (captures.lookup 1).isSome
    if !looksLikeHost then none
    else
      let host := if host.head? = some '[' then (host.drop 1).take (host.length - 2) else host
      let port := Nat.ofDigitChars 10 (((captures.lookup 4).or (captures.lookup 3)).getD "22".toList) 0
      if port < 1 ∨ port > 65535 then none
      else some ⟨((captures.lookup 1).map String.ofList).getD defaultUser, String.ofList host, port⟩

example : parseQuickConnect " ssh root@box -p 2200" "me" = some ⟨"root", "box", 2200⟩ := by decide

/-- A default user: no `@` and no white space. -/
def IsDefaultUser (user : String) : Prop := ∀ c ∈ user.toList, c ≠ '@' ∧ isDartWhitespace c = false

def nextLine : Char := Char.ofNat 0x85

/-- The input names a user, or there is a default one; and the name does not start with U+0085, as it can where it
comes after `ssh`. -/
def LabelReadsBack (input defaultUser : String) : Prop :=
  ('@' ∈ (dartTrim input).toList ∨ defaultUser ≠ "") ∧
    ¬∃ blanks rest, blanks ≠ [] ∧ (∀ c ∈ blanks, isRegExpSpace c = true) ∧
      (dartTrim input).toList = ['s', 's', 'h'] ++ blanks ++ nextLine :: rest

end Portix.Profiles
