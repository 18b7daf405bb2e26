import Mathlib.Data.List.ModifyLast
import Portix.Kubernetes.KubeLogs

/-!
# Searches in logs

`LogQuery` and `filterLogLines` of `kube_logs.dart`, and the grammar of its searches.
-/

namespace Portix.Kubernetes.LogQuery

open Lib

/-- A piece of a query: whether it excludes, and whether it was in quotes. -/
structure Token where
  text : String
  exclude : Bool
  phrase : Bool
  deriving DecidableEq

def excludes : List Char → Bool
  | '-' :: c :: _ => !isDartWhitespace c
  | _ => false

/-- A text in quotes and what comes after it: the first quote closes it, if the end or white space follows. -/
def readPhrase : List Char → Option (String × List Char)
  | '"' :: rest => match rest.dropWhile (· ≠ '"') with
    | [] => none
    | _ :: after =>
      if after.head?.all isDartWhitespace then some (String.ofList (rest.takeWhile (· ≠ '"')), after) else none
  | _ => none

def readStart (exclude : Bool) (start : List Char) : Token × List Char :=
  match readPhrase start with
  | some (text, rest) => (⟨text, exclude, true⟩, rest)
  | none => (⟨String.ofList (start.takeWhile (!isDartWhitespace ·)), exclude, false⟩,
      start.dropWhile (!isDartWhitespace ·))

/-- One round of the loop of `_tokens` at a character that is no white space. -/
def readToken (q : List Char) : Token × List Char :=
  if excludes q then readStart true q.tail else readStart false q

theorem readPhrase_eq_some {start rest : List Char} {text : String} (h : readPhrase start = some (text, rest)) :
    start = '"' :: (text.toList ++ '"' :: rest) ∧ '"' ∉ text.toList ∧ rest.head?.all isDartWhitespace = true := by
  unfold readPhrase at h
  split at h
  case h_2 => cases h
  case h_1 body =>
    have hsplit := List.takeWhile_append_dropWhile (p := (· ≠ '"')) (l := body)
    have hfirst := List.head?_dropWhile_not (· ≠ '"') body
    split at h
    case h_1 => cases h
    case h_2 quote after hafter =>
      split at h
      case isFalse => cases h
      case isTrue hspace =>
        rw [Option.some.injEq, Prod.mk.injEq] at h
        obtain ⟨rfl, rfl⟩ := h
        rw [hafter] at hsplit hfirst
        obtain rfl : quote = '"' := by simpa using hfirst
        rw [String.toList_ofList]
        refine ⟨congrArg _ hsplit.symm, fun hmem => ?_, hspace⟩
        simpa using List.mem_takeWhile_imp hmem

theorem length_readStart (exclude : Bool) {c : Char} (rest : List Char) (hc : isDartWhitespace c = false) :
    (readStart exclude (c :: rest)).2.length < (c :: rest).length := by
  unfold readStart
  split
  case h_1 text after h =>
    rw [(readPhrase_eq_some h).1, List.length_cons, List.length_append, List.length_cons]
    exact Nat.lt_succ_of_le (Nat.le_trans (Nat.le_succ _) (Nat.le_add_left _ _))
  case h_2 =>
    rw [List.dropWhile_cons_of_pos (by rw [hc]; rfl)]
    exact Nat.lt_succ_of_le (List.dropWhile_sublist _).length_le

theorem length_readToken {c : Char} {rest : List Char} (hc : isDartWhitespace c = false) :
    (readToken (c :: rest)).2.length < (c :: rest).length := by
  unfold readToken
  split
  case isFalse => exact length_readStart false rest hc
  case isTrue hexcludes =>
    unfold excludes at hexcludes
    split at hexcludes
    case h_2 => cases hexcludes
    case h_1 d after heq =>
      cases heq
      exact Nat.lt_succ_of_lt (length_readStart true after (by simpa using hexcludes))

def tokens : List Char → List Token
  | [] => []
  | c :: rest =>
    if _hc : isDartWhitespace c = true then tokens rest
    else (readToken (c :: rest)).1 :: tokens (readToken (c :: rest)).2
termination_by q => q.length
decreasing_by
  · exact Nat.lt_succ_self _
  · exact length_readToken (Bool.eq_false_iff.mpr _hc)

example : tokens "\"a b\" -\"c\" \"d\":\"06\" -".toList =
    [⟨"a b", false, true⟩, ⟨"c", true, true⟩, ⟨"\"d\":\"06\"", false, false⟩, ⟨"-", false, false⟩] := by
  decide +kernel

section Terms

variable (lower : String → String) (compile : String → Option (String → Bool))

/-- A term of a query; one that is a regular expression has its matcher. -/
structure Term where
  text : String
  regex : Option (String → Bool)
  exclude : Bool

def pattern (text : String) : Option String := stripPrefix "re:" text

/-- `_term`: `compile` is `RegExp`, none where it throws, and `lower` is `toLowerCase`. -/
def term (text : String) (exclude : Bool) : Term :=
  match (pattern text).bind compile with
  | some regex => ⟨"", some regex, exclude⟩
  | none => ⟨lower text, none, exclude⟩

def Token.isOr (token : Token) : Bool := !token.phrase && !token.exclude && token.text == "OR"

def parseToken (groups : List (List Term)) (token : Token) : List (List Term) :=
  if token.isOr then groups ++ [[]]
  else if token.text = "" then groups
  else groups.modifyLast (· ++ [term lower compile token.text token.exclude])

def parse (query : String) : List (List Term) :=
  ((tokens query.toList).foldl (parseToken lower compile) [[]]).filter (!·.isEmpty)

def Term.holds (term : Term) (text lowered : String) : Bool :=
  (match term.regex with
    | some regex => regex text
    | none => decide (term.text.toList <:+: lowered.toList)) != term.exclude

def matchesGroups (groups : List (List Term)) (text lowered : String) : Bool :=
  if groups.isEmpty then true else groups.any fun terms => terms.all fun term => term.holds text lowered

def queryMatches (query text : String) : Bool := matchesGroups (parse lower compile query) text (lower text)

end Terms

section Lines

variable (lower : String → String) (compile : String → Option (String → Bool))
variable {κ ι : Type} [DecidableEq κ] (line : κ → LogLine ι)

/-- `_lowered`: the lowered texts of some lines, each found by the line itself. -/
abbrev Lowered (κ : Type) := List (κ × String)

def lowerLine (lowered : Lowered κ) (k : κ) : String × Lowered κ :=
  match lowered.lookup k with
  | some text => (text, lowered)
  | none => (lower (line k).text, (k, lower (line k).text) :: lowered)

def matchesLine (query : String) (lowered : Lowered κ) (k : κ) : Bool × Lowered κ :=
  (matchesGroups (parse lower compile query) (line k).text (lowerLine lower line lowered k).1,
    (lowerLine lower line lowered k).2)

def isInRange (since upTo : Option Int) (line : LogLine ι) : Bool :=
  line.time.all fun time => since.all (decide <| · ≤ time) && upTo.all (decide <| time ≤ ·)

def keepsLine (query : Option String) (lowered : Lowered κ) (k : κ) : Bool × Lowered κ :=
  match query with
  | none => (true, lowered)
  | some text => matchesLine lower compile line text lowered k

def filterLoop (since upTo : Option Int) (query : Option String) : Lowered κ → List κ → List κ × Lowered κ
  | lowered, [] => ([], lowered)
  | lowered, k :: rest =>
    if isInRange since upTo (line k) then
      let kept := filterLoop since upTo query (keepsLine lower compile line query lowered k).2 rest
      (if (keepsLine lower compile line query lowered k).1 then k :: kept.1 else kept.1, kept.2)
    else filterLoop since upTo query lowered rest

def filterLogLines (lowered : Lowered κ) (lines : List κ) (since upTo : Option Int) (query : Option String) :
    List κ × Lowered κ :=
  if since = none ∧ upTo = none ∧ query.all (fun text => (parse lower compile text).isEmpty) = true then
    (lines, lowered)
  else filterLoop lower compile line since upTo query lowered lines

/-- The lowered texts that there can be: some lines have been matched, each with some query. -/
inductive Reached : Lowered κ → Prop where
  | start : Reached []
  | next (query : String) (k : κ) {lowered : Lowered κ} (before : Reached lowered) :
      Reached (matchesLine lower compile line query lowered k).2

end Lines

def Token.written (token : Token) : List Char :=
  (if token.exclude then ['-'] else []) ++
    if token.phrase then '"' :: (token.text.toList ++ ['"']) else token.text.toList

/-- Here a token can end. -/
def Ends (rest : List Char) : Prop := ∀ c ∈ rest.head?, isDartWhitespace c = true

/-- Quotes stand around a whole token, with none in between. -/
def StartsPhrase (start : List Char) : Prop :=
  ∃ body rest, start = '"' :: (body ++ '"' :: rest) ∧ '"' ∉ body ∧ Ends rest

/-- The token is the one that is meant by what it is written as, before `rest`. -/
structure Token.StandsBefore (token : Token) (rest : List Char) : Prop where
  ends : Ends rest
  phrase : token.phrase = true → '"' ∉ token.text.toList
  word : token.phrase = false → token.text ≠ "" ∧ (∀ c ∈ token.text.toList, isDartWhitespace c = false) ∧
    ¬StartsPhrase (token.text.toList ++ rest)
  plain : token.phrase = false → token.exclude = false → ∀ c cs, token.text.toList ≠ '-' :: c :: cs

/-- A query is made of tokens with white space between them. -/
inductive Reads : List Char → List Token → Prop where
  | done : Reads [] []
  | space {c : Char} {rest : List Char} {ts : List Token} (hc : isDartWhitespace c = true) (hrest : Reads rest ts) :
      Reads (c :: rest) ts
  | token {t : Token} {rest : List Char} {ts : List Token} (ht : t.StandsBefore rest) (hrest : Reads rest ts) :
      Reads (t.written ++ rest) (t :: ts)

section Accepts

variable (lower : String → String) (compile : String → Option (String → Bool))

/-- The token counts: it neither separates groups nor is it an empty phrase. -/
def Token.IsTerm (token : Token) : Prop := token.isOr = false ∧ token.text ≠ ""

/-- The text of a token is part of a text, whatever the case of letters. -/
def Token.PartOf (token : Token) (text : String) : Prop := (lower token.text).toList <:+: (lower text).toList

/-- A token occurs in a text: as a regular expression if it is one, which a phrase is not, else as it stands. -/
def Token.Occurs (token : Token) (text : String) : Prop :=
  match if token.phrase then none else (pattern token.text).bind compile with
  | some regex => regex text = true
  | none => token.PartOf lower text

/-- No regular expression is seen in a phrase, or it matches a text just if the phrase is part of it. -/
def Token.ReadsPlain (token : Token) (text : String) : Prop :=
  token.phrase = true → ∀ regex ∈ (pattern token.text).bind compile, (regex text = true ↔ token.PartOf lower text)

end Accepts

/-- The tokens of a query are met where some of them occur: there are no terms, or one of the groups between the `OR`s
has some, of which those that are not excluded occur and those that are do not. -/
def Accepts (occurs : Token → Prop) (ts : List Token) : Prop :=
  (∀ token ∈ ts, ¬token.IsTerm) ∨
    ∃ group ∈ ts.splitOnP Token.isOr, (∃ token ∈ group, token.IsTerm) ∧
      ∀ token ∈ group, token.IsTerm → (occurs token ↔ token.exclude = false)

end Portix.Kubernetes.LogQuery
