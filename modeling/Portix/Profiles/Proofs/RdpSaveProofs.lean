import Portix.Profiles.RdpFileParser

/-!
# Saving and opening .rdp files

What `serialize` writes is read back line by line (`rdpFileEntries_serialize`). Two fields may be lost: the
clipboard setting, which is not read, and a user name that is split in another place than it was joined.
-/

namespace Portix.Profiles

open Lib

variable {profile : RdpProfile} {setting : RdpSetting} {text : String}

theorem firstIs_of_trimmed (htrim : dartTrim text = text) : firstIs isDartWhitespace text = false := by
  rw [← htrim]
  exact firstIs_trimBy _ _

theorem lastIs_of_trimmed (htrim : dartTrim text = text) : lastIs isDartWhitespace text = false := by
  rw [← htrim]
  exact lastIs_trimBy _ _

section Joined

variable {before separator : String} {c : Char}

theorem lastIs_joined (hseparator : separator.toList = [c]) (hc : isDartWhitespace c = false)
    (htrim : dartTrim text = text) : lastIs isDartWhitespace (before ++ separator ++ text) = false := by
  unfold lastIs
  rw [String.toList_append, String.toList_append, hseparator]
  by_cases hempty : text.toList = []
  · rw [hempty, List.append_nil, List.getLast?_concat, Option.any_some]
    exact hc
  · rw [List.getLast?_append_of_ne_nil _ hempty]
    exact lastIs_of_trimmed htrim

theorem firstIs_joined (hseparator : separator.toList = [c]) (hc : isDartWhitespace c = false)
    (htrim : dartTrim before = before) : firstIs isDartWhitespace (before ++ separator ++ text) = false := by
  unfold firstIs
  rw [String.toList_append, String.toList_append, hseparator]
  cases hempty : before.toList with
  | nil => exact hc
  | cons d rest =>
    have hfirst := firstIs_of_trimmed htrim
    unfold firstIs at hfirst
    rw [hempty] at hfirst
    exact hfirst

theorem dartTrim_joined (hseparator : separator.toList = [c]) (hc : isDartWhitespace c = false)
    (hbefore : dartTrim before = before) (htrim : dartTrim text = text) :
    dartTrim (before ++ separator ++ text) = before ++ separator ++ text :=
  trimBy_eq_self_of (firstIs_joined hseparator hc hbefore) (lastIs_joined hseparator hc htrim)

theorem splitFirst_joined (hseparator : separator.toList = [c]) (hbefore : c ∉ before.toList) :
    splitFirst c (before ++ separator ++ text) = some (before, text) := by
  apply splitFirst_of_toList _ hbefore
  rw [String.toList_append, String.toList_append, hseparator, List.append_assoc, List.singleton_append]

end Joined

/-- A setting whose line is read as it was written. -/
structure Written (setting : RdpSetting) : Prop where
  key : OneLine setting.key
  noColon : ':' ∉ setting.key.toList
  type : OneLine setting.type
  typeNoColon : ':' ∉ setting.type.toList
  value : OneLine setting.value

theorem parseLine_line (hwritten : Written setting) :
    Settings.parseLine dartTrim setting.line = some (setting.key, setting.value) := by
  have hseparator : ":".toList = [':'] := rfl
  have hcolon : isDartWhitespace ':' = false := by decide
  have hrest := dartTrim_joined hseparator hcolon hwritten.type.trimmed hwritten.value.trimmed
  have hline : setting.line = setting.key ++ ":" ++ (setting.type ++ ":" ++ setting.value) := by
    simp only [RdpSetting.line, String.append_assoc]
  have hkey : splitFirst ':' (setting.key ++ ":" ++ (setting.type ++ ":" ++ setting.value)) =
      some (setting.key, setting.type ++ ":" ++ setting.value) := splitFirst_joined hseparator hwritten.noColon
  have hvalue : splitFirst ':' (setting.type ++ ":" ++ setting.value) = some (setting.type, setting.value) :=
    splitFirst_joined hseparator hwritten.typeNoColon
  have htrim := dartTrim_joined hseparator hcolon hwritten.key.trimmed hrest
  have hne : setting.line ≠ "" := by
    intro hempty
    rw [← hline, hempty] at hkey
    cases hkey
  unfold Settings.parseLine
  rw [hline, htrim, ← hline, if_neg hne, hline, hkey, Option.map_some]
  dsimp only
  rw [hvalue, hwritten.key.trimmed]
  dsimp only
  rw [hwritten.value.trimmed]

theorem newline_notMem_line (hwritten : Written setting) : '\n' ∉ setting.line.toList := by
  unfold RdpSetting.line
  simp only [String.toList_append, List.mem_append, not_or]
  exact ⟨⟨⟨⟨hwritten.key.unbroken, by decide⟩, hwritten.type.unbroken⟩, by decide⟩, hwritten.value.unbroken⟩

theorem oneLine_intText (n : Int64) : OneLine (intText n) where
  unbroken := by
    unfold intText intChars
    rw [String.toList_ofList]
    intro hmem
    have hdigit : ∀ k : Nat, '\n' ∉ Nat.toDigits 10 k := by
      intro k hin
      exact absurd (isDigit_of_mem_digits hin) (by decide)
    split at hmem
    · rcases List.mem_cons.mp hmem with hminus | hin
      · exact absurd hminus (by decide)
      · exact hdigit _ hin
    · exact hdigit _ hmem
  trimmed := dartTrim_intText n

theorem oneLine_accountText (htexts : OneLineTexts profile) : OneLine (accountText profile) := by
  unfold accountText
  split
  · refine ⟨?_, dartTrim_joined rfl (by decide) htexts.domain.trimmed htexts.username.trimmed⟩
    simp only [String.toList_append, List.mem_append, not_or]
    exact ⟨⟨htexts.domain.unbroken, by decide⟩, htexts.username.unbroken⟩
  · exact htexts.username

theorem oneLine_digit {digit : Char} (hdigit : digit.isDigit = true) : OneLine (String.singleton digit) where
  unbroken := by
    rw [String.toList_singleton, List.mem_singleton]
    rintro rfl
    exact absurd hdigit (by decide)
  trimmed := by
    have hblank := isDartWhitespace_of_isDigit hdigit
    apply trimBy_eq_self_of
    · unfold firstIs
      rw [String.toList_singleton]
      exact hblank
    · unfold lastIs
      rw [String.toList_singleton]
      exact hblank

theorem oneLine_switchText (on : Bool) : OneLine (switchText on) := by
  cases on with
  | true => exact oneLine_digit (show '1'.isDigit = true by decide)
  | false => exact oneLine_digit (show '0'.isDigit = true by decide)

/-- The keys of a file can be told from its types, and its types from its values. -/
def wellNamed (key type : String) : Bool :=
  '\n' ∉ key.toList ∧ dartTrim key = key ∧ ':' ∉ key.toList ∧ '\n' ∉ type.toList ∧ dartTrim type = type ∧
    ':' ∉ type.toList

theorem written_of_wellNamed {key type value : String} (hnamed : wellNamed key type = true)
    (hvalue : OneLine value) : Written ⟨key, type, value⟩ := by
  obtain ⟨hunbroken, htrimmed, hcolon, hunbroken', htrimmed', hcolon'⟩ := of_decide_eq_true hnamed
  exact ⟨⟨hunbroken, htrimmed⟩, hcolon, ⟨hunbroken', htrimmed'⟩, hcolon', hvalue⟩

theorem written_ite {condition : Prop} [Decidable condition] (hwritten : condition → Written setting) :
    ∀ other ∈ (if condition then [setting] else []), Written other := by
  intro other hmem
  split at hmem
  · rename_i hholds
    obtain rfl := List.mem_singleton.mp hmem
    exact hwritten hholds
  · cases hmem

theorem written_rdpSettings (htexts : OneLineTexts profile) : ∀ setting ∈ rdpSettings profile, Written setting := by
  have hzero : OneLine "0" := oneLine_switchText false
  have hmode : OneLine (if profile.fullScreen then "2" else "1") := by
    split
    · exact oneLine_digit (show '2'.isDigit = true by decide)
    · exact oneLine_switchText true
  unfold rdpSettings
  simp only [List.forall_mem_append, List.forall_mem_cons]
  refine ⟨⟨⟨⟨⟨?_, ?_, ?_, ?_⟩, ?_⟩, ?_, ?_, ?_, ?_, ?_⟩, ?_⟩, ?_, ?_, ?_, ?_, ?_, ?_, ?_, ?_⟩
  · exact written_of_wellNamed (by decide) htexts.host
  · exact written_of_wellNamed (by decide) (oneLine_intText _)
  · exact written_of_wellNamed (by decide) (oneLine_accountText htexts)
  · simp
  · exact written_ite fun _ => written_of_wellNamed (by decide) htexts.alternateShell
  · exact written_of_wellNamed (by decide) (oneLine_intText _)
  · exact written_of_wellNamed (by decide) (oneLine_intText _)
  · exact written_of_wellNamed (by decide) hmode
  · exact written_of_wellNamed (by decide) (oneLine_switchText _)
  · simp
  · exact written_ite fun _ => written_of_wellNamed (by decide) ⟨by decide, by decide⟩
  · exact written_of_wellNamed (by decide) (oneLine_switchText _)
  · exact written_of_wellNamed (by decide) hzero
  · exact written_of_wellNamed (by decide) (oneLine_switchText _)
  · exact written_of_wellNamed (by decide) hzero
  · exact written_of_wellNamed (by decide) hzero
  · exact written_of_wellNamed (by decide) hzero
  · exact written_of_wellNamed (by decide) hzero
  · simp

theorem rdpSettings_ne_nil (profile : RdpProfile) : rdpSettings profile ≠ [] := by
  unfold rdpSettings
  simp

theorem filterMap_parseLine {settings : List RdpSetting} (hwritten : ∀ setting ∈ settings, Written setting) :
    (settings.map RdpSetting.line).filterMap (Settings.parseLine dartTrim) =
      settings.map fun setting => (setting.key, setting.value) := by
  induction settings with
  | nil => rfl
  | cons setting settings ih =>
    have hrest := ih fun other hmem => hwritten other (List.mem_cons_of_mem _ hmem)
    have hfirst := parseLine_line (hwritten setting List.mem_cons_self)
    rw [List.map_cons, List.filterMap_cons_some hfirst, List.map_cons, hrest]

theorem rdpFileEntries_serialize (htexts : OneLineTexts profile) : rdpFileEntries (serializeRdp profile) =
      (rdpSettings profile).map fun setting => (setting.key, setting.value) := by
  have hwritten := written_rdpSettings htexts
  have hlines : splitChar '\n' (serializeRdp profile) = (rdpSettings profile).map RdpSetting.line := by
    apply splitChar_intercalate '\n'
    · intro line hmem
      obtain ⟨setting, hsetting, rfl⟩ := List.mem_map.mp hmem
      exact newline_notMem_line (hwritten setting hsetting)
    · exact fun hnil => rdpSettings_ne_nil profile (List.map_eq_nil_iff.mp hnil)
  unfold rdpFileEntries
  rw [hlines]
  exact filterMap_parseLine hwritten

theorem text_serialize (htexts : OneLineTexts profile) (key : String) : parseRdpFileLines (serializeRdp profile) key =
      Settings.lastValue (· == key) ((rdpSettings profile).map fun setting => (setting.key, setting.value)) := by
  unfold parseRdpFileLines
  rw [rdpFileEntries_serialize htexts]
  exact Settings.collect_eq_lastValue _ key

/-- What a file gives for each key that is read. -/
structure Texts (profile : RdpProfile) (texts : String → Option String) : Prop where
  fullAddress : texts "full address" = some profile.host
  serverPort : texts "server port" = some (intText profile.port)
  username : texts "username" = some (accountText profile)
  alternateShell : (texts "alternate shell").getD "" = profile.alternateShell
  desktopWidth : texts "desktopwidth" = some (intText profile.desktopWidth)
  desktopHeight : texts "desktopheight" = some (intText profile.desktopHeight)
  screenModeId : texts "screen mode id" = some (if profile.fullScreen then "2" else "1")
  redirectDrives : texts "redirectdrives" = some (switchText profile.redirectDrives)
  driveStoreRedirect : (texts "drivestoredirect").getD "" = if profile.redirectDrives then "*" else ""
  enableCredSsp : texts "EnableCredSspSupport" = some (switchText profile.enableCredSsp)

theorem texts_serialize (htexts : OneLineTexts profile) : Texts profile (parseRdpFileLines (serializeRdp profile)) := by
  constructor
  all_goals
    rw [text_serialize htexts]
    unfold rdpSettings
    by_cases hshell : profile.alternateShell = ""
    · by_cases hdrives : profile.redirectDrives = true
      · simp [hshell, hdrives, Settings.lastValue]
      · simp [hshell, hdrives, Settings.lastValue]
    · by_cases hdrives : profile.redirectDrives = true
      · simp [hshell, hdrives, Settings.lastValue]
      · simp [hshell, hdrives, Settings.lastValue]

theorem accountOf_eq (username : String) : accountOf username = match splitFirst '\\' username with
      | some (domain, user) => (some (dartTrim domain), dartTrim user)
      | none => (none, username) := by
  unfold accountOf containsChar
  cases hsplit : splitFirst '\\' username with
  | none =>
    have hnone : username.toList.contains '\\' = false := by
      simpa using splitFirst_eq_none_iff.mp hsplit
    rw [hnone]
    rfl
  | some parts =>
    obtain ⟨domain, user⟩ := parts
    have hsome : username.toList.contains '\\' = true := by
      rw [(toList_of_splitFirst hsplit).1]
      simp
    have hjoin : "\\".intercalate (splitChar '\\' user) = user := intercalate_splitChar '\\' user
    rw [hsome, splitChar_of_splitFirst hsplit]
    dsimp only
    rw [if_pos rfl, hjoin]

theorem accountOf_accountText (htexts : OneLineTexts profile) :
    ((accountOf (accountText profile)).1.getD "" = profile.domain.getD "" ∧
      (accountOf (accountText profile)).2 = profile.username) ↔ FirstBackslash profile := by
  unfold FirstBackslash accountText
  rw [accountOf_eq]
  by_cases hdomain : profile.domain.getD "" ≠ ""
  · rw [if_pos hdomain, if_pos hdomain]
    constructor
    · rintro ⟨hsame, -⟩ hmem
      obtain ⟨parts, hsplit⟩ : ∃ parts,
          splitFirst '\\' (profile.domain.getD "" ++ "\\" ++ profile.username) = some parts := by
        apply Option.ne_none_iff_exists'.mp
        rw [Ne, splitFirst_eq_none_iff]
        simp
      rw [hsplit] at hsame
      have hfirst := (toList_of_splitFirst hsplit).2
      rw [← hsame] at hmem
      exact hfirst ((trimBy_sublist _ _).subset hmem)
    · intro hfirst
      rw [splitFirst_joined rfl hfirst]
      exact ⟨htexts.domain.trimmed, htexts.username.trimmed⟩
  · rw [if_neg hdomain, if_neg hdomain]
    cases hsplit : splitFirst '\\' profile.username with
    | none => exact ⟨fun _ => splitFirst_eq_none_iff.mp hsplit, fun _ => ⟨(not_not.mp hdomain).symm, rfl⟩⟩
    | some parts =>
      obtain ⟨before, after⟩ := parts
      obtain ⟨htext, -⟩ := toList_of_splitFirst hsplit
      constructor
      · rintro ⟨-, hsame⟩
        have hlength := (trimBy_sublist isDartWhitespace after).length_le
        have hshort : (dartTrim after).toList.length = profile.username.toList.length := by rw [← hsame]
        rw [htext, List.length_append, List.length_cons] at hshort
        unfold dartTrim at hshort
        omega
      · intro hnone
        rw [htext] at hnone
        exact absurd (by simp) hnone

theorem address_serialize (htexts : OneLineTexts profile) :
    addressOf profile.host (some (intText profile.port)) = (profile.host, profile.port) := by
  show (dartTrim profile.host, (intTryParse (dartTrim (intText profile.port))).getD 3389) = _
  rw [htexts.host.trimmed, dartTrim_intText, intTryParse_intText]
  rfl

theorem intTryParse_switchText (on : Bool) : (decide ((intTryParse (switchText on)).getD 0 = 1)) = on := by
  cases on with
  | true => decide
  | false => decide

section Opened

variable (toLowerCase : String → String) (profileId : String) (filePath : Option String)

/-- What is read of a file is what was written, but for the account. -/
structure Reopened (opened profile : RdpProfile) : Prop where
  host : opened.host = profile.host
  port : opened.port = profile.port
  domain : opened.domain = (accountOf (accountText profile)).1
  username : opened.username = (accountOf (accountText profile)).2
  alternateShell : opened.alternateShell = profile.alternateShell
  desktopWidth : opened.desktopWidth = profile.desktopWidth
  desktopHeight : opened.desktopHeight = profile.desktopHeight
  fullScreen : opened.fullScreen = profile.fullScreen
  redirectDrives : opened.redirectDrives = profile.redirectDrives
  redirectClipboard : opened.redirectClipboard = true
  enableCredSsp : opened.enableCredSsp = profile.enableCredSsp

theorem fullScreen_text (on : Bool) : decide ((intTryParse (if on then "2" else "1")).getD 1 = 2) = on := by
  cases on with
  | true => decide
  | false => decide

theorem redirectDrives_text (on : Bool) : (decide ((intTryParse (switchText on)).getD 0 = 1) ||
    decide (dartTrim (if on then "*" else "") ≠ "")) = on := by
  cases on with
  | true => decide
  | false => decide

theorem reopened_of_texts {content : String} (htexts : OneLineTexts profile)
    (hread : Texts profile (parseRdpFileLines content)) :
    Reopened (parseRdp toLowerCase content profileId filePath) profile := by
  have haddress := address_serialize htexts
  constructor
  case redirectDrives =>
    simp only [parseRdp, hread.redirectDrives, hread.driveStoreRedirect, Option.getD_some]
    exact redirectDrives_text _
  case fullScreen =>
    simp only [parseRdp, hread.screenModeId, Option.getD_some]
    exact fullScreen_text _
  all_goals
    simp only [parseRdp, hread.fullAddress, hread.serverPort, hread.username, hread.alternateShell, hread.desktopWidth,
      hread.desktopHeight, hread.enableCredSsp, Option.getD_some, haddress, intTryParse_intText,
      intTryParse_switchText]

/-- A connection is the same after it was saved and opened, exactly if its clipboard is redirected and its
account is split where it was joined. -/
theorem open_saved_iff (profile : RdpProfile) (htexts : OneLineTexts profile) :
    SameConnection (parseRdp toLowerCase (serializeRdp profile) profileId filePath) profile ↔
      profile.redirectClipboard = true ∧ FirstBackslash profile := by
  have hread := texts_serialize htexts
  revert hread
  generalize serializeRdp profile = content
  intro hread
  have hopened := reopened_of_texts toLowerCase profileId filePath htexts hread
  constructor
  · intro hsame
    refine ⟨hsame.redirectClipboard.symm.trans hopened.redirectClipboard,
      (accountOf_accountText htexts).mp ⟨?_, ?_⟩⟩
    · rw [← hopened.domain]
      exact hsame.domain
    · rw [← hopened.username]
      exact hsame.username
  · rintro ⟨hclipboard, hfirst⟩
    obtain ⟨hsameDomain, hsameUser⟩ := (accountOf_accountText htexts).mpr hfirst
    exact {
      host := hopened.host
      port := hopened.port
      username := hopened.username.trans hsameUser
      domain := by
        rw [hopened.domain]
        exact hsameDomain
      alternateShell := hopened.alternateShell
      desktopWidth := hopened.desktopWidth
      desktopHeight := hopened.desktopHeight
      fullScreen := hopened.fullScreen
      redirectDrives := hopened.redirectDrives
      redirectClipboard := hopened.redirectClipboard.trans hclipboard.symm
      enableCredSsp := hopened.enableCredSsp }

end Opened

def domainProfile (redirectClipboard : Bool) : RdpProfile where
  id := "p"
  name := "Office"
  host := "10.0.0.5"
  port := 3390
  username := "jdoe"
  group := "RDP"
  tags := []
  color := .blue
  domain := some "CORP"
  redirectClipboard := redirectClipboard

theorem oneLineTexts_domainProfile (redirectClipboard : Bool) : OneLineTexts (domainProfile redirectClipboard) where
  host := ⟨by simp [domainProfile], show dartTrim "10.0.0.5" = "10.0.0.5" by decide⟩
  username := ⟨by simp [domainProfile], show dartTrim "jdoe" = "jdoe" by decide⟩
  domain := ⟨by simp [domainProfile], show dartTrim "CORP" = "CORP" by decide⟩
  alternateShell := ⟨by simp [domainProfile], show dartTrim "" = "" by decide⟩

theorem open_saved_iff_domain : OneLineTexts (domainProfile true) ∧
    SameConnection (parseRdp id (serializeRdp (domainProfile true)) "q" none) (domainProfile true) :=
  ⟨oneLineTexts_domainProfile true,
    (open_saved_iff id "q" none (domainProfile true) (oneLineTexts_domainProfile true)).mpr
      ⟨rfl, by simp [FirstBackslash, domainProfile]⟩⟩

/-- A profile without the clipboard is opened with it. -/
theorem clipboard_turned_on : ¬∀ (toLowerCase : String → String) (profileId : String)
    (filePath : Option String) (profile : RdpProfile), OneLineTexts profile →
      SameConnection (parseRdp toLowerCase (serializeRdp profile) profileId filePath) profile := by
  intro hall
  have htexts := oneLineTexts_domainProfile false
  have hsame := (hall id "q" none (domainProfile false) htexts).redirectClipboard
  have hopened := (reopened_of_texts id "q" none htexts (texts_serialize htexts)).redirectClipboard
  rw [hopened] at hsame
  cases hsame

end Portix.Profiles
