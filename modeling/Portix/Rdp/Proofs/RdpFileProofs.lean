import Mathlib.Data.List.Find
import Portix.Profiles.Proofs.RdpSaveProofs
import Portix.Rdp.RdpFile

/-!
# What the two parsers make of a file

When both find the same settings, and where the lines alone make sure that the texts are the same.
-/

namespace Portix.Rdp

open Lib

theorem parseRdpLines_eq (toLowercase : String → String) (content : String) :
    parseRdpLines toLowercase content = backendText toLowercase content := by
  funext key
  rw [parseRdpLines, Settings.collect_eq_lastValue, Settings.lastValue_map, backendText]

theorem parseRdpFileLines_eq (content : String) : Profiles.parseRdpFileLines content = appText content := by
  funext key
  rw [Profiles.parseRdpFileLines, Settings.collect_eq_lastValue, appText]

section Settings

variable {texts : String → Option String}

theorem hostAndPort_eq (texts : String → Option String) :
    hostAndPort ((texts "full address").getD "") (texts "server port") =
      (trim (hostText texts),
        ((backendPortText texts).bind fun text => parseU16 (trim text)).getD 3389) := by
  unfold hostAndPort hostText backendPortText behindColon beforeFirst
  cases texts "server port" with
  | some port => simp only [Option.isSome_some, if_true, Option.some_or, Option.bind_some]
  | none =>
    simp only [Option.isSome_none, Bool.false_eq_true, if_false, Option.none_or]
    cases splitFirst ':' ((texts "full address").getD "") with
    | none => simp only [Option.map_none, Option.bind_none, Option.getD_none]
    | some parts => simp only [Option.map_some, Option.bind_some]

theorem addressOf_eq (texts : String → Option String) :
    Profiles.addressOf ((texts "full address").getD "") (texts "server port") =
      (dartTrim (hostText texts),
        ((appPortText texts).bind fun text => intTryParse (dartTrim text)).getD 3389) := by
  unfold Profiles.addressOf hostText appPortText behindColon
  cases texts "server port" with
  | some port => simp only [Option.isSome_some, if_true, Option.some_or, Option.bind_some]
  | none =>
    simp only [Option.isSome_none, Bool.false_eq_true, if_false, Option.none_or]
    cases hsplit : splitFirst ':' ((texts "full address").getD "") with
    | none =>
      have hhost : beforeFirst ':' ((texts "full address").getD "") = (texts "full address").getD "" := by
        rw [beforeFirst, hsplit]
      rw [splitChar_of_splitFirst_none hsplit, hhost]
      simp only [Option.map_none, Option.bind_none, Option.getD_none]
    | some parts =>
      obtain ⟨host, rest⟩ := parts
      obtain ⟨pieces, hpieces⟩ := splitChar_eq_cons ':' rest
      have hhost : beforeFirst ':' ((texts "full address").getD "") = host := by
        rw [beforeFirst, hsplit]
      rw [splitChar_of_splitFirst hsplit, hpieces, hhost]
      simp only [Option.map_some, Option.bind_some]

theorem getD_eq_iff {α : Type} {o : Option α} {default value : α} (hne : default ≠ value) :
    o.getD default = value ↔ o = some value := by
  cases o with
  | none => simpa using hne
  | some _ => simp

theorem getD_eq_default_iff {α : Type} {o : Option α} {default : α} :
    o.getD default = default ↔ o = none ∨ o = some default := by
  cases o <;> simp

theorem trim_getD_iff {o : Option String} : dartTrim (o.getD "") ≠ "" ↔ ∃ text, o = some text ∧ dartTrim text ≠ "" := by
  cases o with
  | none =>
    have hempty : dartTrim "" = "" := by decide
    simp [hempty]
  | some _ => simp

theorem intTryParse_getD_iff {o : Option String} {text : String} {default value : Int64}
    (htext : (intTryParse text).getD default ≠ value) (hne : default ≠ value) :
    (intTryParse (o.getD text)).getD default = value ↔ o.bind intTryParse = some value := by
  cases o with
  | none =>
    rw [Option.getD_none, Option.bind_none]
    exact ⟨fun h => absurd h htext, fun h => nomatch h⟩
  | some _ =>
    rw [Option.getD_some, Option.bind_some]
    exact getD_eq_iff hne

theorem toNat_getD (o : Option UInt16) (default : UInt16) :
    ((o.getD default).toNat : Int) = (o.map fun n => (n.toNat : Int)).getD default.toNat := by
  cases o <;> rfl

theorem toInt_getD (o : Option Int64) (default : Int64) :
    (o.getD default).toInt = (o.map Int64.toInt).getD default.toInt := by
  cases o <;> rfl

theorem intTryParse_getD_empty (o : Option String) (default : Int64) :
    (intTryParse (o.getD "")).getD default = (o.bind intTryParse).getD default := by
  cases o with
  | none =>
    have hempty : intTryParse "" = none := by decide
    rw [Option.getD_none, hempty, Option.bind_none]
  | some _ => simp only [Option.getD_some, Option.bind_some]

theorem sizesAgree_iff (default : Nat) {small : UInt16} {big : Int64} (hsmall : small.toNat = default)
    (hbig : big.toInt = default) (backend app : Option String) :
    SizesAgree default backend app ↔
      (0 ≤ ((intTryParse (app.getD "")).getD big).toInt →
        ((intTryParse (app.getD "")).getD big).toInt ≤ 65535 →
        (((backend.bind parseU16).getD small).toNat : Int) = ((intTryParse (app.getD "")).getD big).toInt) := by
  rw [SizesAgree, intTryParse_getD_empty, toInt_getD, toNat_getD, hsmall, hbig]
  exact ⟨fun h => h _ rfl, fun h n hn => hn ▸ h⟩

theorem usersAgree_iff (backend app : String) :
    UsersAgree backend app ↔ (domainAndUser backend).2 = (Profiles.accountOf app).2 ∧
      (domainAndUser backend).1 = (Profiles.accountOf app).1 := by
  rw [Profiles.accountOf_eq, domainAndUser, UsersAgree]
  cases splitFirst '\\' backend <;> cases splitFirst '\\' app <;> simp [and_comm]

end Settings

section Same

variable {toLowercase toLowerCase : String → String} {content profileId : String}
  {profileName filePath : Option String}

theorem sameSettings_iff : SameSettings (parseRdpFile toLowercase content profileId profileName)
        (Profiles.parseRdp toLowerCase content profileId filePath) ↔
      TextsAgree (backendText toLowercase content) (appText content) ∧
        NumbersAgree toLowercase (backendText toLowercase content) (appText content) := by
  obtain ⟨backend, hbackend⟩ : ∃ backend, parseRdpLines toLowercase content = backend := ⟨_, rfl⟩
  obtain ⟨app, happ⟩ : ∃ app, Profiles.parseRdpFileLines content = app := ⟨_, rfl⟩
  rw [← parseRdpLines_eq, ← parseRdpFileLines_eq, hbackend, happ]
  have hb := hostAndPort_eq backend
  have ha := addressOf_eq app
  have hhost : (parseRdpFile toLowercase content profileId profileName).host =
      (Profiles.parseRdp toLowerCase content profileId filePath).host ↔
      trim (hostText backend) = dartTrim (hostText app) := by
    simp only [parseRdpFile, Profiles.parseRdp, hbackend, happ, hb, ha]
  have hport : ((parseRdpFile toLowercase content profileId profileName).port.toNat : Int) =
      (Profiles.parseRdp toLowerCase content profileId filePath).port.toInt ↔
      (((backendPortText backend).bind fun text => parseU16 (trim text)).map fun n => (n.toNat : Int)).getD 3389 =
      (((appPortText app).bind fun text => intTryParse (dartTrim text)).map Int64.toInt).getD 3389 := by
    simp only [parseRdpFile, Profiles.parseRdp, hbackend, happ, hb, ha, toNat_getD, toInt_getD]
    rfl
  have huser : ((parseRdpFile toLowercase content profileId profileName).username =
        (Profiles.parseRdp toLowerCase content profileId filePath).username ∧
      (parseRdpFile toLowercase content profileId profileName).domain =
        (Profiles.parseRdp toLowerCase content profileId filePath).domain) ↔
      UsersAgree ((backend "username").getD "") ((app "username").getD "") := by
    rw [usersAgree_iff]
    simp only [parseRdpFile, Profiles.parseRdp, hbackend, happ]
  have hshell : (parseRdpFile toLowercase content profileId profileName).alternateShell.getD "" =
      (Profiles.parseRdp toLowerCase content profileId filePath).alternateShell ↔
      (backend "alternate shell").getD "" = (app "alternate shell").getD "" := by
    simp only [parseRdpFile, Profiles.parseRdp, hbackend, happ]
  have hwidth : SizesAgree 1280 (backend "desktopwidth") (app "desktopwidth") ↔
      (0 ≤ (Profiles.parseRdp toLowerCase content profileId filePath).desktopWidth.toInt →
        (Profiles.parseRdp toLowerCase content profileId filePath).desktopWidth.toInt ≤ 65535 →
        ((parseRdpFile toLowercase content profileId profileName).desktopWidth.toNat : Int) =
          (Profiles.parseRdp toLowerCase content profileId filePath).desktopWidth.toInt) := by
    simp only [parseRdpFile, Profiles.parseRdp, hbackend, happ]
    exact sizesAgree_iff 1280 rfl rfl _ _
  have hheight : SizesAgree 800 (backend "desktopheight") (app "desktopheight") ↔
      (0 ≤ (Profiles.parseRdp toLowerCase content profileId filePath).desktopHeight.toInt →
        (Profiles.parseRdp toLowerCase content profileId filePath).desktopHeight.toInt ≤ 65535 →
        ((parseRdpFile toLowercase content profileId profileName).desktopHeight.toNat : Int) =
          (Profiles.parseRdp toLowerCase content profileId filePath).desktopHeight.toInt) := by
    simp only [parseRdpFile, Profiles.parseRdp, hbackend, happ]
    exact sizesAgree_iff 800 rfl rfl _ _
  have hscreen : (parseRdpFile toLowercase content profileId profileName).fullScreen =
      (Profiles.parseRdp toLowerCase content profileId filePath).fullScreen ↔
      ((backend "screen mode id").bind parseI32 = some 2 ↔
        (app "screen mode id").bind intTryParse = some 2) := by
    simp only [parseRdpFile, Profiles.parseRdp, hbackend, happ, decide_eq_decide]
    rw [getD_eq_iff (by decide), intTryParse_getD_iff (by decide) (by decide)]
  have hdrives : (parseRdpFile toLowercase content profileId profileName).redirectDrives =
      (Profiles.parseRdp toLowerCase content profileId filePath).redirectDrives ↔
      ((backend "redirectdrives").bind parseI32 = some 1 ↔
        (app "redirectdrives").bind intTryParse = some 1 ∨
          ∃ drives, app "drivestoredirect" = some drives ∧ dartTrim drives ≠ "") := by
    rw [Bool.eq_iff_iff]
    simp only [parseRdpFile, Profiles.parseRdp, hbackend, happ, Bool.or_eq_true, decide_eq_true_eq]
    rw [getD_eq_iff (by decide), intTryParse_getD_iff (by decide) (by decide), trim_getD_iff]
  have hcredSsp : (parseRdpFile toLowercase content profileId profileName).enableCredSsp =
      (Profiles.parseRdp toLowerCase content profileId filePath).enableCredSsp ↔
      (((∃ shell, backend "alternate shell" = some shell ∧ containsPsm toLowercase shell) ∨
        (backend "enablecredsspsupport").bind parseI32 = none ∨
        (backend "enablecredsspsupport").bind parseI32 = some 1) ↔
      (app "EnableCredSspSupport").bind intTryParse = some 1) := by
    rw [Bool.eq_iff_iff]
    simp only [parseRdpFile, Profiles.parseRdp, hbackend, happ, Bool.or_eq_true, decide_eq_true_eq, Option.any_eq_true]
    rw [getD_eq_default_iff, intTryParse_getD_iff (by decide) (by decide)]
  constructor
  · intro h
    exact ⟨⟨hhost.mp h.host, huser.mp ⟨h.username, h.domain⟩, hshell.mp h.alternateShell⟩,
      ⟨hport.mp h.port, hwidth.mpr h.desktopWidth, hheight.mpr h.desktopHeight, hscreen.mp h.fullScreen,
        hdrives.mp h.redirectDrives, hcredSsp.mp h.enableCredSsp⟩⟩
  · rintro ⟨htexts, hnumbers⟩
    obtain ⟨husername, hdomain⟩ := huser.mpr htexts.user
    exact ⟨hhost.mpr htexts.host, hport.mpr hnumbers.port, husername, hdomain,
      hshell.mpr htexts.alternateShell, hwidth.mp hnumbers.desktopWidth, hheight.mp hnumbers.desktopHeight,
      hscreen.mpr hnumbers.fullScreen, hdrives.mpr hnumbers.redirectDrives,
      hcredSsp.mpr hnumbers.enableCredSsp⟩

end Same

section Unmarked

variable {s t : String} {c : Char}

theorem Unmarked.of_subset (hs : Unmarked s) (hsubset : t.toList ⊆ s.toList) : Unmarked t :=
  fun c hc => hs c (hsubset hc)

theorem dropWhile_congr {α : Type} {p q : α → Bool} {l : List α} (h : ∀ x ∈ l, p x = q x) :
    l.dropWhile p = l.dropWhile q := by
  induction l with
  | nil => rfl
  | cons x rest ih =>
    rw [List.dropWhile_cons, List.dropWhile_cons, h x List.mem_cons_self,
      ih fun y hy => h y (List.mem_cons_of_mem _ hy)]

theorem dartTrim_eq_trim (hs : Unmarked s) : dartTrim s = trim s := by
  have hsame : ∀ c ∈ s.toList, isDartWhitespace c = isWhitespace c := by
    intro c hc
    rw [isDartWhitespace, beq_eq_false_iff_ne.mpr (hs c hc), Bool.or_false]
  unfold dartTrim trim trimBy List.rdropWhile
  rw [dropWhile_congr hsame, dropWhile_congr]
  intro c hc
  exact hsame c ((List.dropWhile_suffix _).subset (List.mem_reverse.mp hc))

theorem Unmarked.trim (hs : Unmarked s) : Unmarked (trim s) := hs.of_subset (trimBy_sublist _ s).subset

theorem Unmarked.splitFirst {before after : String} (hs : Unmarked s)
    (h : splitFirst c s = some (before, after)) : Unmarked before ∧ Unmarked after := by
  have hlist := (toList_of_splitFirst h).1
  exact ⟨hs.of_subset (by rw [hlist]; simp), hs.of_subset (by rw [hlist]; simp)⟩

theorem Unmarked.beforeFirst (hs : Unmarked s) : Unmarked (beforeFirst c s) := by
  unfold Lib.beforeFirst
  split
  case h_1 before after h => exact (hs.splitFirst h).1
  case h_2 => exact hs

theorem parseLine_eq (hs : Unmarked s) : Settings.parseLine dartTrim s = Settings.parseLine trim s := by
  unfold Settings.parseLine
  rw [dartTrim_eq_trim hs]
  dsimp only
  split
  · rfl
  cases hsplit : splitFirst ':' (Lib.trim s) with
  | none => rfl
  | some parts =>
    obtain ⟨key, rest⟩ := parts
    obtain ⟨hkey, hrest⟩ := hs.trim.splitFirst hsplit
    simp only [Option.map_some, dartTrim_eq_trim hkey]
    cases hvalue : Lib.splitFirst ':' rest with
    | none => simp only [dartTrim_eq_trim hrest]
    | some value => simp only [dartTrim_eq_trim (hrest.splitFirst hvalue).2]

theorem unmarked_parseLine {entry : String × String} (hs : Unmarked s)
    (h : Settings.parseLine trim s = some entry) : Unmarked entry.2 := by
  unfold Settings.parseLine at h
  dsimp only at h
  split at h
  · cases h
  rw [Option.map_eq_some_iff] at h
  obtain ⟨⟨key, rest⟩, hsplit, rfl⟩ := h
  have hrest := (hs.trim.splitFirst hsplit).2
  dsimp only
  split
  case h_1 type value hvalue => exact (hrest.splitFirst hvalue).2.trim
  case h_2 => exact hrest.trim

end Unmarked

section Lines

variable {content : String}

theorem trimBy_concat {p : Char → Bool} {c : Char} (hc : p c = true) (cs : List Char) :
    trimBy p (String.ofList (cs ++ [c])) = trimBy p (String.ofList cs) := by
  unfold trimBy
  rw [String.toList_ofList, String.toList_ofList, List.dropWhile_append]
  split
  case isTrue hnil =>
    rw [List.isEmpty_iff] at hnil
    rw [hnil, List.dropWhile_cons_of_pos hc]
    rfl
  case isFalse => rw [List.rdropWhile_concat_pos _ _ _ hc]

theorem parseLine_congr {trim : String → String} {s t : String} (h : trim s = trim t) :
    Settings.parseLine trim s = Settings.parseLine trim t := by
  unfold Settings.parseLine
  rw [h]

theorem parseLine_empty : Settings.parseLine trim (String.ofList []) = none := by decide

theorem rdpEntries_eq (content : String) :
    rdpEntries content = (splitChar '\n' content).filterMap (Settings.parseLine trim) := by
  have hreturn : ∀ piece : List Char, Settings.parseLine trim
          (String.ofList (if piece.getLast? = some '\r' then piece.dropLast else piece)) =
        Settings.parseLine trim (String.ofList piece) := by
    intro piece
    split
    case isTrue hlast =>
      obtain ⟨rest, rfl⟩ := List.getLast?_eq_some_iff.mp hlast
      rw [List.dropLast_concat]
      exact parseLine_congr (trimBy_concat (by decide) rest).symm
    case isFalse => rfl
  have hlast : ∀ pieces : List (List Char), (if pieces.getLast? = some [] then pieces.dropLast else pieces).filterMap
          (fun piece => Settings.parseLine trim (String.ofList piece)) =
        pieces.filterMap fun piece => Settings.parseLine trim (String.ofList piece) := by
    intro pieces
    split
    case isTrue hempty =>
      obtain ⟨rest, rfl⟩ := List.getLast?_eq_some_iff.mp hempty
      have hnone : [[]].filterMap (fun piece => Settings.parseLine trim (String.ofList piece)) = [] :=
        List.filterMap_cons_none parseLine_empty
      rw [List.dropLast_concat, List.filterMap_append, hnone, List.append_nil]
    case isFalse => rfl
  unfold rdpEntries lines splitChar
  rw [List.filterMap_map, List.filterMap_map]
  simp only [Function.comp_def, hreturn]
  exact hlast _

theorem unmarked_piece {line : String} (hcontent : Unmarked content) (hline : line ∈ splitChar '\n' content) :
    Unmarked line := by
  unfold splitChar at hline
  obtain ⟨piece, hpiece, rfl⟩ := List.mem_map.mp hline
  refine hcontent.of_subset ?_
  rw [String.toList_ofList]
  exact subset_of_mem_splitOn hpiece

theorem rdpFileEntries_eq (hcontent : Unmarked content) : Profiles.rdpFileEntries content = rdpEntries content := by
  rw [rdpEntries_eq, Profiles.rdpFileEntries]
  exact List.filterMap_congr fun line hline => parseLine_eq (unmarked_piece hcontent hline)

theorem unmarked_of_mem_rdpEntries {entry : String × String} (hcontent : Unmarked content)
    (hentry : entry ∈ rdpEntries content) : Unmarked entry.2 := by
  rw [rdpEntries_eq, List.mem_filterMap] at hentry
  obtain ⟨line, hline, hparse⟩ := hentry
  exact unmarked_parseLine (unmarked_piece hcontent hline) hparse

end Lines

section SpelledAlike

variable {toLowercase : String → String} {content : String}

theorem SpelledAlike.text_eq (h : SpelledAlike toLowercase content) (key : String × String)
    (hkey : key ∈ sharedKeys) : backendText toLowercase content key.1 = appText content key.2 := by
  unfold backendText appText Settings.lastValue
  rw [rdpFileEntries_eq h.unmarked]
  refine congrArg (Option.map Prod.snd) (List.find?_congr ?_)
  intro entry hentry
  rw [Bool.eq_iff_iff, beq_iff_eq, beq_iff_eq]
  exact h.keys entry (List.mem_reverse.mp hentry) key hkey

theorem unmarked_getD_appText (hcontent : Unmarked content) (key : String) :
    Unmarked ((appText content key).getD "") := by
  cases htext : appText content key with
  | none =>
    intro c hc
    exact absurd hc (by simp)
  | some text =>
    unfold appText Settings.lastValue at htext
    obtain ⟨entry, hfind, rfl⟩ := Option.map_eq_some_iff.mp htext
    rw [rdpFileEntries_eq hcontent] at hfind
    exact unmarked_of_mem_rdpEntries hcontent (List.mem_reverse.mp (List.mem_of_find?_eq_some hfind))

theorem usersAgree_self {username : String} (h : Unmarked username) : UsersAgree username username := by
  unfold UsersAgree
  cases hsplit : splitFirst '\\' username with
  | none => rfl
  | some parts =>
    obtain ⟨hdomain, huser⟩ := h.splitFirst hsplit
    exact ⟨(dartTrim_eq_trim hdomain).symm, (dartTrim_eq_trim huser).symm⟩

theorem SpelledAlike.textsAgree (h : SpelledAlike toLowercase content) :
    TextsAgree (backendText toLowercase content) (appText content) := by
  have haddress : backendText toLowercase content "full address" = appText content "full address" :=
    h.text_eq ("full address", "full address") (by decide)
  have hport : backendText toLowercase content "server port" = appText content "server port" :=
    h.text_eq ("server port", "server port") (by decide)
  have husername : backendText toLowercase content "username" = appText content "username" :=
    h.text_eq ("username", "username") (by decide)
  have hshell : backendText toLowercase content "alternate shell" = appText content "alternate shell" :=
    h.text_eq ("alternate shell", "alternate shell") (by decide)
  have hhost : hostText (backendText toLowercase content) = hostText (appText content) := by
    rw [hostText, hostText, haddress, hport]
  have hunmarked : Unmarked (hostText (appText content)) := by
    have hfull := unmarked_getD_appText h.unmarked "full address"
    unfold hostText
    dsimp only
    split
    · exact hfull
    · exact hfull.beforeFirst
  constructor
  case host => rw [hhost, dartTrim_eq_trim hunmarked]
  case user =>
    rw [husername]
    exact usersAgree_self (unmarked_getD_appText h.unmarked "username")
  case alternateShell => rw [hshell]

end SpelledAlike

/-- A text of decimal digits. -/
structure Digits (text : String) : Prop where
  nonempty : text.toList ≠ []
  digits : ∀ c ∈ text.toList, c.isDigit = true

def decimalValue (text : String) : Nat := Nat.ofDigitChars 10 text.toList 0

theorem toInt_int64Of {i : Int} (hlow : -2 ^ 63 ≤ i) (hhigh : i < 2 ^ 63) :
    (int64Of i).map Int64.toInt = some i := by
  rw [int64Of, if_pos ⟨hlow, hhigh⟩, Option.map_some, Int64.toInt_ofInt_of_le hlow hhigh]

namespace Digits

variable {text : String}

theorem trimBy_eq (h : Digits text) {p : Char → Bool} (hp : ∀ c, c.isDigit = true → p c = false) :
    trimBy p text = text := by
  refine trimBy_eq_self_of ?_ ?_
  · rw [firstIs, Option.any_eq_false]
    exact fun c hc => by simp [hp c (h.digits c (List.mem_of_mem_head? hc))]
  · rw [lastIs, Option.any_eq_false]
    exact fun c hc => by simp [hp c (h.digits c (List.mem_of_mem_getLast? hc))]

theorem cons (h : Digits text) : ∃ c rest, text.toList = c :: rest ∧ c ≠ '-' ∧ c ≠ '+' := by
  obtain ⟨c, rest, heq⟩ := List.exists_cons_of_ne_nil h.nonempty
  have hrange := isDigit_iff.mp (h.digits c (heq ▸ List.mem_cons_self))
  refine ⟨c, rest, heq, ?_, ?_⟩
  · rintro rfl
    revert hrange
    decide
  · rintro rfl
    revert hrange
    decide

theorem parseInteger_eq (h : Digits text) {upper : Int} {lower : Int} (hlower : lower ≤ 0) :
    parseInteger lower upper text =
      if (decimalValue text : Int) ≤ upper then some (decimalValue text : Int) else none := by
  obtain ⟨c, rest, heq, hminus, hplus⟩ := h.cons
  have hgood : ¬(text.toList = [] ∨ ¬text.toList.all Char.isDigit) := by
    simpa [h.nonempty] using h.digits
  have hlow : lower ≤ (decimalValue text : Int) := by omega
  unfold parseInteger
  split
  next negative digits hsign =>
    split at hsign
    next rest' hcons => exact absurd (List.cons.inj (heq.symm.trans hcons)).1 hminus
    next rest' hcons => exact absurd (List.cons.inj (heq.symm.trans hcons)).1 hplus
    next =>
      cases hsign
      rw [if_neg hgood]
      simp only [Bool.false_eq_true, if_false]
      exact if_congr (and_iff_right hlow) rfl rfl

theorem intTryParse_eq (h : Digits text) : intTryParse text = int64Of (decimalValue text) := by
  obtain ⟨c, rest, heq, hminus, hplus⟩ := h.cons
  have hgood : ¬(text.toList = [] ∨ ¬text.toList.all Char.isDigit) := by
    simpa [h.nonempty] using h.digits
  have htrim : dartTrim text = text := h.trimBy_eq fun _ => isDartWhitespace_of_isDigit
  have hsign : splitSign text.toList = (false, text.toList) := by
    rw [heq, splitSign, if_neg hminus, if_neg hplus]
  unfold intTryParse
  simp only [htrim, hsign, hexDigits?_of_all h.digits, if_neg hgood]
  rfl

theorem parseU16_eq (h : Digits text) (hfits : decimalValue text ≤ 65535) :
    (parseU16 text).map (fun n => (n.toNat : Int)) = some (decimalValue text : Int) := by
  have hsize : decimalValue text < UInt16.size := Nat.lt_succ_of_le hfits
  rw [parseU16, h.parseInteger_eq (le_refl 0), if_pos (by omega), Option.map_some, Option.map_some,
    Int.toNat_natCast, UInt16.toNat_ofNat_of_lt' hsize]

/-- A port or a size of digits is read as the same number, if it has 16 bits. -/
theorem reads (h : Digits text) (hfits : decimalValue text ≤ 65535) :
    (parseU16 (trim text)).map (fun n => (n.toNat : Int)) = some (decimalValue text : Int) ∧
      (intTryParse (dartTrim text)).map Int64.toInt = some (decimalValue text : Int) ∧
      parseI32 text = some (decimalValue text : Int) := by
  have htrim : trim text = text := h.trimBy_eq fun c hc => by
    have hspace := isDartWhitespace_of_isDigit hc
    simp only [isDartWhitespace, Bool.or_eq_false_iff] at hspace
    exact hspace.1
  have hdart : dartTrim text = text := h.trimBy_eq fun _ => isDartWhitespace_of_isDigit
  refine ⟨?_, ?_, ?_⟩
  · rw [htrim, h.parseU16_eq hfits]
  · rw [hdart, h.intTryParse_eq, toInt_int64Of (by omega) (by omega)]
  · rw [parseI32, h.parseInteger_eq (by decide), if_pos (by omega)]

/-- A size of digits that does not have 16 bits is not compared, or both take the default. -/
theorem sizesAgree (h : Digits text) (default : Int) : SizesAgree default (some text) (some text) := by
  intro n hn hlow hhigh
  rw [Option.bind_some, h.intTryParse_eq] at hn
  by_cases hfits : decimalValue text ≤ 65535
  · rw [toInt_int64Of (by omega) (by omega), Option.getD_some] at hn
    rw [Option.bind_some, h.parseU16_eq hfits, Option.getD_some, hn]
  · rw [Option.bind_some, parseU16, h.parseInteger_eq (le_refl 0), if_neg (by omega)]
    by_cases hbig : (decimalValue text : Int) < 2 ^ 63
    · rw [toInt_int64Of (by omega) hbig, Option.getD_some] at hn
      omega
    · rw [int64Of, if_neg (by omega)] at hn
      exact hn

end Digits

/-- The parsers agree exactly when the texts and the numbers of the lines that each of them finds do; where
all keys are spelled as the app looks them up, both find the same lines, and only numbers can differ. -/
theorem parsers_agree_iff (toLowercase toLowerCase : String → String) (content profileId : String)
    (profileName filePath : Option String) :
    (SameSettings (parseRdpFile toLowercase content profileId profileName)
        (Profiles.parseRdp toLowerCase content profileId filePath) ↔
      TextsAgree (backendText toLowercase content) (appText content) ∧
        NumbersAgree toLowercase (backendText toLowercase content) (appText content)) ∧
    (SpelledAlike toLowercase content →
      (∀ key ∈ sharedKeys, backendText toLowercase content key.1 = appText content key.2) ∧
        TextsAgree (backendText toLowercase content) (appText content)) :=
  ⟨sameSettings_iff, fun h => ⟨fun key hkey => h.text_eq key hkey, h.textsAgree⟩⟩

def plainFile : String :=
  "full address:s:10.0.0.5:3390\r\nusername:s:CORP\\anna\r\ndesktopwidth:i:1920\r\nEnableCredSspSupport:i:1"

def asciiLowercase (s : String) : String := String.ofList (s.toList.map Char.toLower)

theorem unmarked_plainFile : Unmarked plainFile := by
  have hall : plainFile.toList.all (fun c => decide (c.toNat ≠ 0xFEFF)) = true := by decide
  exact fun c hc => of_decide_eq_true (List.all_eq_true.mp hall c hc)

theorem parsers_agree_iff_plain :
    SameSettings (parseRdpFile asciiLowercase plainFile "id" none)
      (Profiles.parseRdp asciiLowercase plainFile "id" none) := by
  have hspelled : SpelledAlike asciiLowercase plainFile :=
    ⟨unmarked_plainFile, by decide⟩
  have hwidth : backendText asciiLowercase plainFile "desktopwidth" = some "1920" ∧
      appText plainFile "desktopwidth" = some "1920" := by decide
  have hheight : backendText asciiLowercase plainFile "desktopheight" = none ∧
      appText plainFile "desktopheight" = none := by decide
  have hdrives : appText plainFile "redirectdrives" = none ∧ appText plainFile "drivestoredirect" = none ∧
      backendText asciiLowercase plainFile "redirectdrives" = none := by decide
  have hshell : backendText asciiLowercase plainFile "alternate shell" = none := by decide
  have hnumbers : NumbersAgree asciiLowercase (backendText asciiLowercase plainFile) (appText plainFile) := by
    constructor
    case port => decide
    case desktopWidth =>
      rw [hwidth.1, hwidth.2]
      exact Digits.sizesAgree ⟨by decide, List.all_eq_true.mp (by decide)⟩ 1280
    case desktopHeight =>
      rw [hheight.1, hheight.2]
      exact fun n hn _ _ => hn
    case fullScreen => decide
    case redirectDrives => simp [hdrives.1, hdrives.2.1, hdrives.2.2]
    case enableCredSsp =>
      rw [hshell]
      simp only [reduceCtorEq, false_and, exists_false, false_or]
      decide
  have hagree := parsers_agree_iff asciiLowercase asciiLowercase plainFile "id" none none
  exact hagree.1.mpr ⟨(hagree.2 hspelled).2, hnumbers⟩

def smallLettersFile : String := "full address:s:host\nusername:s:u\nenablecredsspsupport:i:1"

theorem parsers_disagree_on_case :
    ¬SameSettings (parseRdpFile asciiLowercase smallLettersFile "id" none)
      (Profiles.parseRdp asciiLowercase smallLettersFile "id" none) := by
  intro h
  exact absurd h.enableCredSsp (by decide)

end Portix.Rdp
