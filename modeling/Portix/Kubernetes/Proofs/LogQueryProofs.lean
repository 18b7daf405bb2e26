import Portix.Kubernetes.LogQuery
import Portix.Lib.Entries

/-!
# Soundness theorems for searches in logs

The scanner reads the grammar, the groups of terms are those between the `OR`s, and what is kept of lowered texts does
not show.
-/

namespace Portix.Kubernetes.LogQuery

open Lib

variable {rest : List Char}

theorem ends_iff : Ends rest ↔ rest.head?.all isDartWhitespace = true := by
  cases rest with
  | nil => simp [Ends]
  | cons c rest => simp [Ends]

variable {start q : List Char}

theorem readPhrase_phrase {body rest : List Char} (hbody : '"' ∉ body) (hrest : Ends rest) :
    readPhrase ('"' :: (body ++ '"' :: rest)) = some (String.ofList body, rest) := by
  have hall : ∀ c ∈ body, decide (c ≠ '"') = true := fun c hc => decide_eq_true fun heq => hbody (heq ▸ hc)
  obtain ⟨htake, hdrop⟩ := span_append (r := '"' :: rest) hall (by simp)
  rw [readPhrase, htake, hdrop]
  exact if_pos (ends_iff.mp hrest)

theorem readPhrase_eq_none (h : ¬StartsPhrase start) : readPhrase start = none := by
  cases hread : readPhrase start with
  | none => rfl
  | some read =>
    obtain ⟨hstart, hbody, hrest⟩ := readPhrase_eq_some hread
    exact absurd ⟨_, _, hstart, hbody, ends_iff.mpr hrest⟩ h

def Token.body (token : Token) : List Char :=
  if token.phrase then '"' :: (token.text.toList ++ ['"']) else token.text.toList

variable {token : Token}

theorem Token.StandsBefore.body_eq_cons (h : token.StandsBefore rest) :
    ∃ c cs, token.body = c :: cs ∧ isDartWhitespace c = false := by
  unfold Token.body
  by_cases hphrase : token.phrase = true
  · rw [if_pos hphrase]
    exact ⟨_, _, rfl, by decide⟩
  · obtain ⟨hne, hspace, _⟩ := h.word (Bool.eq_false_iff.mpr hphrase)
    rw [if_neg hphrase]
    obtain ⟨c, cs, heq⟩ := List.exists_cons_of_ne_nil fun hnil : token.text.toList = [] =>
      hne (String.toList_eq_nil_iff.mp hnil)
    exact ⟨c, cs, heq, hspace c (heq ▸ List.mem_cons_self)⟩

theorem readStart_body (h : token.StandsBefore rest) :
    readStart token.exclude (token.body ++ rest) = (token, rest) := by
  obtain ⟨text, exclude, phrase⟩ := token
  cases phrase with
  | true =>
    have hstart : (⟨text, exclude, true⟩ : Token).body ++ rest = '"' :: (text.toList ++ '"' :: rest) := by
      simp [Token.body]
    rw [hstart, readStart, readPhrase_phrase (h.phrase rfl) h.ends, String.ofList_toList]
  | false =>
    obtain ⟨_, hspace, hphrase⟩ := h.word rfl
    have hall : ∀ c ∈ text.toList, (!isDartWhitespace c) = true := fun c hc => by rw [hspace c hc]; rfl
    have hstart : (⟨text, exclude, false⟩ : Token).body ++ rest = text.toList ++ rest := rfl
    have hends : ∀ c ∈ rest.head?, (!isDartWhitespace c) = false := fun c hc => by rw [h.ends c hc]; rfl
    obtain ⟨htake, hdrop⟩ := span_append hall hends
    rw [hstart, readStart, readPhrase_eq_none hphrase, htake, hdrop, String.ofList_toList]

theorem excludes_cons_cons {c d : Char} : excludes (c :: d :: rest) = true ↔ c = '-' ∧ isDartWhitespace d = false := by
  unfold excludes
  split
  case h_1 d' rest' heq =>
    rw [List.cons.injEq, List.cons.injEq] at heq
    simp [heq.1, heq.2.1]
  case h_2 hne =>
    constructor
    · rintro ⟨⟩
    · rintro ⟨rfl, _⟩
      exact absurd rfl (hne d rest)

theorem Token.StandsBefore.not_excludes (h : token.StandsBefore rest)
    (hexclude : token.exclude = false) : ¬excludes (token.body ++ rest) = true := by
  obtain ⟨text, exclude, phrase⟩ := token
  cases phrase with
  | true =>
    have hquote : (⟨text, exclude, true⟩ : Token).body ++ rest = '"' :: (text.toList ++ '"' :: rest) := by
      simp [Token.body]
    rw [hquote]
    exact Bool.false_ne_true
  | false =>
    obtain ⟨hne, _, _⟩ := h.word rfl
    have hplain := h.plain rfl hexclude
    have hbody : (⟨text, exclude, false⟩ : Token).body = text.toList := rfl
    rw [hbody]
    cases htext : text.toList with
    | nil => exact absurd (String.toList_eq_nil_iff.mp htext) hne
    | cons c cs =>
      cases cs with
      | nil =>
        cases rest with
        | nil => simp [excludes]
        | cons d rest =>
          rw [List.singleton_append, excludes_cons_cons, h.ends d rfl]
          simp
      | cons d ds =>
        rw [List.cons_append, List.cons_append, excludes_cons_cons]
        rintro ⟨rfl, _⟩
        exact hplain d ds htext

theorem readToken_written (h : token.StandsBefore rest) : readToken (token.written ++ rest) = (token, rest) := by
  obtain ⟨c, cs, hbody, hc⟩ := h.body_eq_cons
  have hread := readStart_body h
  by_cases hexclude : token.exclude = true
  · have hwritten : token.written ++ rest = '-' :: (token.body ++ rest) := by
      rw [Token.written, if_pos hexclude]
      rfl
    have hexcludes : excludes (token.written ++ rest) = true := by
      rw [hwritten, hbody]
      exact excludes_cons_cons.mpr ⟨rfl, hc⟩
    rw [readToken, if_pos hexcludes, hwritten, List.tail_cons, ← hexclude]
    exact hread
  · have hwritten : token.written ++ rest = token.body ++ rest := by
      rw [Token.written, if_neg hexclude]
      rfl
    have hexcludes : ¬excludes (token.written ++ rest) = true := by
      rw [hwritten]
      exact h.not_excludes (Bool.eq_false_iff.mpr hexclude)
    rw [readToken, if_neg hexcludes, hwritten, ← Bool.eq_false_iff.mpr hexclude]
    exact hread

theorem head_written (h : token.StandsBefore rest) : ∃ c cs, token.written = c :: cs ∧ isDartWhitespace c = false := by
  obtain ⟨c, cs, hbody, hc⟩ := h.body_eq_cons
  by_cases hexclude : token.exclude = true
  · exact ⟨'-', token.body, by rw [Token.written, if_pos hexclude]; rfl, by decide⟩
  · refine ⟨c, cs, ?_, hc⟩
    rw [Token.written, if_neg hexclude]
    exact hbody

variable {ts group : List Token}

theorem tokens_nil : tokens [] = [] := by
  rw [tokens.eq_def]

theorem tokens_cons (c : Char) (rest : List Char) : tokens (c :: rest) =
    if _hc : isDartWhitespace c = true then tokens rest
    else (readToken (c :: rest)).1 :: tokens (readToken (c :: rest)).2 := by
  rw [tokens.eq_def]

theorem tokens_of_reads (h : Reads q ts) : tokens q = ts := by
  induction h with
  | done => exact tokens_nil
  | space hc _ ih => rw [tokens_cons, dif_pos hc, ih]
  | @token t rest ts ht _ ih =>
    obtain ⟨c, cs, hwritten, hc⟩ := head_written ht
    have hread := readToken_written ht
    rw [hwritten, List.cons_append] at hread
    rw [hwritten, List.cons_append, tokens_cons, dif_neg (by rw [hc]; exact Bool.false_ne_true), hread, ih]

theorem startsPhrase_of_readPhrase (h : readPhrase start = none) : ¬StartsPhrase start := by
  rintro ⟨body, rest, rfl, hbody, hrest⟩
  rw [readPhrase_phrase hbody hrest] at h
  cases h

theorem readStart_spec (exclude : Bool) {c : Char} (cs : List Char) (hc : isDartWhitespace c = false)
    (hplain : exclude = false → excludes (c :: cs) = false) :
    (readStart exclude (c :: cs)).1.StandsBefore (readStart exclude (c :: cs)).2 ∧
      (readStart exclude (c :: cs)).1.exclude = exclude ∧
      (readStart exclude (c :: cs)).1.body ++ (readStart exclude (c :: cs)).2 = c :: cs := by
  unfold readStart
  cases hread : readPhrase (c :: cs) with
  | some read =>
    obtain ⟨text, rest⟩ := read
    obtain ⟨hstart, hbody, hrest⟩ := readPhrase_eq_some hread
    refine ⟨⟨ends_iff.mpr hrest, fun _ => hbody, fun h => (nomatch h), fun h => (nomatch h)⟩, rfl, ?_⟩
    rw [hstart]
    simp [Token.body]
  | none =>
    have hsplit := List.takeWhile_append_dropWhile (p := (!isDartWhitespace ·)) (l := c :: cs)
    have htext : ∀ d ∈ (c :: cs).takeWhile (!isDartWhitespace ·), isDartWhitespace d = false := fun d hd => by
      simpa using List.mem_takeWhile_imp hd
    have hrest : Ends ((c :: cs).dropWhile (!isDartWhitespace ·)) := by
      intro d hd
      have hfirst := List.head?_dropWhile_not (!isDartWhitespace ·) (c :: cs)
      rw [Option.mem_def.mp hd] at hfirst
      simpa using hfirst
    refine ⟨⟨hrest, fun h => (nomatch h), fun _ => ?_, fun _ hexclude d ds heq => ?_⟩, rfl, ?_⟩
    · rw [String.toList_ofList, hsplit]
      refine ⟨fun hnil => ?_, htext, startsPhrase_of_readPhrase hread⟩
      rw [List.takeWhile_cons_of_pos (by rw [hc]; rfl)] at hnil
      cases String.ofList_eq_empty_iff.mp hnil
    · -- a `-` before more of the token would exclude it
      rw [String.toList_ofList] at heq
      have hd : isDartWhitespace d = false := htext d (by rw [heq]; simp)
      rw [heq] at hsplit
      have hexcludes := hplain hexclude
      rw [← hsplit, List.cons_append, List.cons_append, excludes_cons_cons.mpr ⟨rfl, hd⟩] at hexcludes
      cases hexcludes
    · rw [Token.body, String.toList_ofList]
      exact hsplit

theorem readToken_spec {c : Char} (cs : List Char) (hc : isDartWhitespace c = false) :
    (readToken (c :: cs)).1.StandsBefore (readToken (c :: cs)).2 ∧
      (readToken (c :: cs)).1.written ++ (readToken (c :: cs)).2 = c :: cs := by
  unfold readToken
  by_cases hexcludes : excludes (c :: cs) = true
  · obtain ⟨d, ds, rfl⟩ : ∃ d ds, cs = d :: ds := by
      cases cs with
      | nil => simp [excludes] at hexcludes
      | cons d ds => exact ⟨d, ds, rfl⟩
    obtain ⟨rfl, hd⟩ := excludes_cons_cons.mp hexcludes
    obtain ⟨hstands, hexclude, hbody⟩ := readStart_spec true ds hd (fun h => nomatch h)
    rw [if_pos hexcludes, List.tail_cons]
    refine ⟨hstands, ?_⟩
    rw [Token.written, hexclude, if_pos rfl]
    exact congrArg ('-' :: ·) hbody
  · obtain ⟨hstands, hexclude, hbody⟩ :=
      readStart_spec false cs hc (fun _ => Bool.eq_false_iff.mpr hexcludes)
    rw [if_neg hexcludes]
    refine ⟨hstands, ?_⟩
    rw [Token.written, hexclude]
    exact hbody

theorem reads_tokens (q : List Char) : Reads q (tokens q) := by
  fun_induction tokens q with
  | case1 => exact .done
  | case2 c rest hc ih => exact .space hc ih
  | case3 c rest hc ih =>
    obtain ⟨hstands, hwritten⟩ := readToken_spec rest (Bool.eq_false_iff.mpr hc)
    have hreads := Reads.token hstands ih
    rw [hwritten] at hreads
    exact hreads

theorem filter_written (h : Reads q ts) :
    (ts.flatMap Token.written).filter (!isDartWhitespace ·) = q.filter (!isDartWhitespace ·) := by
  induction h with
  | done => rfl
  | space hc _ ih => rw [List.filter_cons_of_neg (by rw [hc]; decide), ih]
  | token _ _ ih => rw [List.flatMap_cons, List.filter_append, List.filter_append, ih]

section Groups

variable (lower : String → String) (compile : String → Option (String → Bool))

def termsOf (ts : List Token) : List Term :=
  (ts.filter (·.text ≠ "")).map fun token => term lower compile token.text token.exclude

theorem foldl_parseToken (ts : List Token) (groups : List (List Term)) (last : List Term) :
    ts.foldl (parseToken lower compile) (groups ++ [last]) =
      groups ++ ((ts.splitOnP Token.isOr).map (termsOf lower compile)).modifyHead (last ++ ·) := by
  induction ts generalizing groups last with
  | nil => simp [termsOf]
  | cons token rest ih =>
    obtain ⟨first, others, hsplit⟩ := List.exists_cons_of_ne_nil (List.splitOnP_ne_nil Token.isOr rest)
    simp only [hsplit, List.map_cons, List.modifyHead_cons] at ih
    rw [List.foldl_cons, parseToken, List.splitOnP_cons_eq_if_modifyHead, hsplit]
    by_cases hor : token.isOr = true
    · rw [if_pos hor, if_pos hor, ih, List.map_cons, List.map_cons, List.modifyHead_cons]
      simp [termsOf]
    · rw [if_neg hor, if_neg hor, List.modifyHead_cons, List.map_cons, List.modifyHead_cons]
      by_cases htext : token.text = ""
      · rw [if_pos htext, ih]
        simp [termsOf, htext]
      · rw [if_neg htext, List.modifyLast_concat, ih]
        simp [termsOf, htext]

theorem parse_eq (query : String) : parse lower compile query =
      (((tokens query.toList).splitOnP Token.isOr).map (termsOf lower compile)).filter (!·.isEmpty) := by
  obtain ⟨first, others, hsplit⟩ :=
    List.exists_cons_of_ne_nil (List.splitOnP_ne_nil Token.isOr (tokens query.toList))
  have hgroups := foldl_parseToken lower compile (tokens query.toList) [] []
  rw [List.nil_append, List.nil_append, hsplit, List.map_cons, List.modifyHead_cons, List.nil_append] at hgroups
  rw [parse, hgroups, hsplit, List.map_cons]

/-- What the code makes of a token: also a phrase is a regular expression here. -/
def Token.Read (token : Token) (text : String) : Prop :=
  match (pattern token.text).bind compile with
  | some regex => regex text = true
  | none => token.PartOf lower text

theorem holds_iff (token : Token) (text : String) :
    (term lower compile token.text token.exclude).holds text (lower text) = true ↔
      (token.Read lower compile text ↔ token.exclude = false) := by
  have hbool : ∀ b exclude : Bool, (b != exclude) = true ↔ (b = true ↔ exclude = false) := by decide
  unfold term Token.Read Term.holds
  cases (pattern token.text).bind compile with
  | some regex => exact hbool _ _
  | none =>
    rw [hbool, decide_eq_true_eq]
    rfl

theorem termsOf_ne_nil_iff (h : ∀ token ∈ group, token.isOr = false) :
    termsOf lower compile group ≠ [] ↔ ∃ token ∈ group, token.IsTerm := by
  rw [termsOf, Ne, List.map_eq_nil_iff, List.eq_nil_iff_forall_not_mem, not_forall_not]
  constructor
  · rintro ⟨token, htoken⟩
    obtain ⟨hmem, htext⟩ := List.mem_filter.mp htoken
    exact ⟨token, hmem, h token hmem, of_decide_eq_true htext⟩
  · rintro ⟨token, hmem, _, htext⟩
    exact ⟨token, List.mem_filter.mpr ⟨hmem, decide_eq_true htext⟩⟩

theorem all_termsOf_iff (h : ∀ token ∈ group, token.isOr = false) (text : String) :
    (termsOf lower compile group).all (fun term => term.holds text (lower text)) = true ↔
      ∀ token ∈ group, token.IsTerm → (token.Read lower compile text ↔ token.exclude = false) := by
  rw [termsOf, List.all_map, List.all_eq_true]
  constructor
  · intro hall token hmem hterm
    exact (holds_iff lower compile token text).mp (hall token (List.mem_filter.mpr ⟨hmem, decide_eq_true hterm.2⟩))
  · intro hall token htoken
    obtain ⟨hmem, htext⟩ := List.mem_filter.mp htoken
    exact (holds_iff lower compile token text).mpr (hall token hmem ⟨h token hmem, of_decide_eq_true htext⟩)

theorem parse_eq_nil_iff (query : String) :
    parse lower compile query = [] ↔ ∀ token ∈ tokens query.toList, ¬token.IsTerm := by
  rw [parse_eq, List.filter_eq_nil_iff]
  constructor
  · intro hnone token hmem hterm
    obtain ⟨group, hgroup, htoken⟩ := mem_piece_splitOnP hmem hterm.1
    have hne := (termsOf_ne_nil_iff lower compile fun token htoken =>
      (of_mem_splitOnP hgroup token htoken).1).mpr ⟨token, htoken, hterm⟩
    exact hnone _ (List.mem_map_of_mem hgroup) (by simpa using hne)
  · intro hnone terms hterms
    obtain ⟨group, hgroup, rfl⟩ := List.mem_map.mp hterms
    intro hempty
    have hne : termsOf lower compile group ≠ [] := by simpa using hempty
    obtain ⟨token, htoken, hterm⟩ := (termsOf_ne_nil_iff lower compile fun token htoken =>
      (of_mem_splitOnP hgroup token htoken).1).mp hne
    exact hnone token (of_mem_splitOnP hgroup token htoken).2 hterm

theorem queryMatches_iff (query text : String) :
    queryMatches lower compile query text = true ↔
      Accepts (Token.Read lower compile · text) (tokens query.toList) := by
  rw [queryMatches, matchesGroups, Accepts, ← parse_eq_nil_iff lower compile]
  by_cases hnil : parse lower compile query = []
  · rw [hnil]
    simp
  · rw [if_neg (by simpa using hnil), List.any_eq_true, or_iff_right hnil, parse_eq]
    constructor
    · rintro ⟨terms, hterms, hall⟩
      obtain ⟨hmem, hne⟩ := List.mem_filter.mp hterms
      obtain ⟨group, hgroup, rfl⟩ := List.mem_map.mp hmem
      have hor := fun token htoken => (of_mem_splitOnP hgroup token htoken).1
      exact ⟨group, hgroup, (termsOf_ne_nil_iff lower compile hor).mp (by simpa using hne),
        (all_termsOf_iff lower compile hor text).mp hall⟩
    · rintro ⟨group, hgroup, hsome, hall⟩
      have hor := fun token htoken => (of_mem_splitOnP hgroup token htoken).1
      have hne := (termsOf_ne_nil_iff lower compile hor).mpr hsome
      exact ⟨_, List.mem_filter.mpr ⟨List.mem_map_of_mem hgroup, by simpa using hne⟩,
        (all_termsOf_iff lower compile hor text).mpr hall⟩

variable {lower compile} {occurs occurs' : Token → Prop} {text : String}

theorem accepts_congr (h : ∀ token ∈ ts, token.IsTerm → (occurs token ↔ occurs' token)) :
    Accepts occurs ts ↔ Accepts occurs' ts := by
  refine or_congr_right (exists_congr fun group => and_congr_right fun hgroup => and_congr_right fun _ => ?_)
  refine forall₂_congr fun token hmem => forall_congr' fun hterm => ?_
  rw [h token (of_mem_splitOnP hgroup token hmem).2 hterm]

/-- A query of one term is met where this term is. -/
theorem accepts_single (hmem : token ∈ ts) (hterm : token.IsTerm) (hone : ∀ other ∈ ts, other.IsTerm → other = token) :
    Accepts occurs ts ↔ (occurs token ↔ token.exclude = false) := by
  constructor
  · rintro (hnone | ⟨group, hgroup, ⟨other, hother, hsome⟩, hall⟩)
    · exact absurd hterm (hnone token hmem)
    · obtain rfl := hone other (of_mem_splitOnP hgroup other hother).2 hsome
      exact hall other hother hsome
  · intro hoccurs
    obtain ⟨group, hgroup, htoken⟩ := mem_piece_splitOnP hmem hterm.1
    refine .inr ⟨group, hgroup, ⟨token, htoken, hterm⟩, fun other hother hsome => ?_⟩
    obtain rfl := hone other (of_mem_splitOnP hgroup other hother).2 hsome
    exact hoccurs

theorem read_iff_occurs : (token.Read lower compile text ↔ token.Occurs lower compile text) ↔
    token.ReadsPlain lower compile text := by
  unfold Token.Read Token.Occurs Token.ReadsPlain
  cases token.phrase with
  | false => exact iff_of_true Iff.rfl nofun
  | true => cases (pattern token.text).bind compile <;> simp

end Groups

section Lines

variable {lower : String → String} {compile : String → Option (String → Bool)} {κ ι : Type} [DecidableEq κ]
  {line : κ → LogLine ι} {lowered : Lowered κ}

theorem lookup_of_reached (h : Reached lower compile line lowered) {k : κ} {text : String}
    (hk : lowered.lookup k = some text) : text = lower (line k).text := by
  induction h with
  | start => cases hk
  | @next query k' lowered _ ih =>
    unfold matchesLine lowerLine at hk
    split at hk
    · exact ih hk
    · rw [lookup_entries_cons] at hk
      by_cases hsame : k = k'
      · rw [if_pos hsame, Option.some.injEq] at hk
        rw [← hk, hsame]
      · rw [if_neg hsame] at hk
        exact ih hk

theorem matchesLine_eq (h : Reached lower compile line lowered) (query : String) (k : κ) :
    (matchesLine lower compile line query lowered k).1 = queryMatches lower compile query (line k).text := by
  unfold matchesLine lowerLine queryMatches
  split
  case h_1 text hk => rw [lookup_of_reached h hk]
  case h_2 => rfl

theorem keepsLine_eq (h : Reached lower compile line lowered) (query : Option String) (k : κ) :
    (keepsLine lower compile line query lowered k).1
        = query.all (fun text => queryMatches lower compile text (line k).text) ∧
      Reached lower compile line (keepsLine lower compile line query lowered k).2 := by
  cases query with
  | none => exact ⟨rfl, h⟩
  | some text => exact ⟨matchesLine_eq h text k, h.next text k⟩

theorem filterLoop_eq (h : Reached lower compile line lowered) (since upTo : Option Int)
    (query : Option String) (lines : List κ) :
    (filterLoop lower compile line since upTo query lowered lines).1 =
      lines.filter fun k => isInRange since upTo (line k) &&
        query.all fun text => queryMatches lower compile text (line k).text := by
  induction lines generalizing lowered with
  | nil => rfl
  | cons k rest ih =>
    rw [filterLoop, List.filter_cons]
    by_cases hrange : isInRange since upTo (line k) = true
    · obtain ⟨hkeeps, hreached⟩ := keepsLine_eq h query k
      rw [if_pos hrange, hrange, Bool.true_and, ← hkeeps, ← ih hreached]
    · rw [if_neg hrange, Bool.eq_false_iff.mpr hrange, Bool.false_and, if_neg Bool.false_ne_true]
      exact ih h

theorem filterLogLines_eq (h : Reached lower compile line lowered) (since upTo : Option Int)
    (query : Option String) (lines : List κ) :
    (filterLogLines lower compile line lowered lines since upTo query).1 =
      lines.filter fun k => isInRange since upTo (line k) &&
        query.all fun text => queryMatches lower compile text (line k).text := by
  unfold filterLogLines
  split
  case isFalse => exact filterLoop_eq h since upTo query lines
  case isTrue hall =>
    obtain ⟨rfl, rfl, hempty⟩ := hall
    refine (List.filter_eq_self.mpr fun k _ => ?_).symm
    have hrange : isInRange none none (line k) = true := by
      unfold isInRange
      cases (line k).time <;> rfl
    rw [hrange, Bool.true_and]
    cases query with
    | none => rfl
    | some text =>
      rw [Option.all_some] at hempty ⊢
      rw [queryMatches, matchesGroups, if_pos hempty]

/-- A query is read as its grammar says, in one way; a text matches if it meets the tokens, as long as no phrase is
read as a regular expression; and whatever was matched before, a line matches as its text does, and the lines that are
kept are those in the range that match. -/
theorem queries_follow_grammar (lower : String → String) (compile : String → Option (String → Bool))
    (line : κ → LogLine ι) :
    (∀ q ts, Reads q ts ↔ ts = tokens q) ∧
    (∀ q, ((tokens q).flatMap Token.written).filter (!isDartWhitespace ·) = q.filter (!isDartWhitespace ·)) ∧
    (∀ query text, (∀ token ∈ tokens query.toList, token.ReadsPlain lower compile text) →
      (queryMatches lower compile query text = true ↔
        Accepts (Token.Occurs lower compile · text) (tokens query.toList))) ∧
    (∀ query text, ∀ token ∈ tokens query.toList, token.IsTerm →
      (∀ other ∈ tokens query.toList, other.IsTerm → other = token) →
      ((queryMatches lower compile query text = true ↔
        Accepts (Token.Occurs lower compile · text) (tokens query.toList)) ↔ token.ReadsPlain lower compile text)) ∧
    ∀ lowered, Reached lower compile line lowered →
      (∀ query k, (matchesLine lower compile line query lowered k).1
        = queryMatches lower compile query (line k).text) ∧
      ∀ since upTo query lines, (filterLogLines lower compile line lowered lines since upTo query).1 =
        lines.filter fun k => isInRange since upTo (line k) &&
          query.all fun text => queryMatches lower compile text (line k).text := by
  refine ⟨fun q ts => ⟨fun h => (tokens_of_reads h).symm, ?_⟩, fun q => filter_written (reads_tokens q),
    fun query text hplain => ?_, fun query text token hmem hterm hone => ?_,
    fun lowered h => ⟨matchesLine_eq h, filterLogLines_eq h⟩⟩
  · rintro rfl
    exact reads_tokens q
  · rw [queryMatches_iff]
    exact accepts_congr fun token hmem _ => read_iff_occurs.mpr (hplain token hmem)
  · rw [queryMatches_iff, accepts_single hmem hterm hone, accepts_single hmem hterm hone, ← read_iff_occurs]
    tauto

/-- A search for errors that are not of the disk, in two lines. -/
theorem errors_but_disk :
    (filterLogLines (fun text => String.ofList (text.toList.map Char.toLower)) (fun _ => none)
      (fun k : Bool => ⟨none, if k then "Disk Error" else "Net Error", ()⟩) [] [true, false] none none
      (some "error -disk OR ")).1 = [false] := by
  obtain ⟨_, _, _, _, hlines⟩ := queries_follow_grammar (fun text => String.ofList (text.toList.map Char.toLower))
    (fun _ => none) fun k : Bool => ⟨none, if k then "Disk Error" else "Net Error", ()⟩
  rw [(hlines [] .start).2 none none (some "error -disk OR ") [true, false]]
  decide +kernel

/-- A phrase in quotes that starts with `re:` is read as a regular expression: the line with the phrase in it is left
out. -/
theorem phrase_read_as_regex :
    let compile := fun pattern => if pattern = "^x" then some fun text => text.toList.head? == some 'x' else none
    ¬(queryMatches id compile "\"re:^x\"" "typed re:^x here" = true ↔
      Accepts (Token.Occurs id compile · "typed re:^x here") (tokens "\"re:^x\"".toList)) := by
  intro compile h
  have htokens : tokens "\"re:^x\"".toList = [⟨"re:^x", false, true⟩] := by decide +kernel
  have hmisses : queryMatches id compile "\"re:^x\"" "typed re:^x here" = false := by decide +kernel
  rw [htokens, hmisses, accepts_single List.mem_cons_self ⟨by decide, by decide⟩ (by simp)] at h
  refine absurd (h.mpr ?_) Bool.false_ne_true
  exact iff_of_true (show "re:^x".toList <:+: "typed re:^x here".toList by decide) rfl

end Lines

end Portix.Kubernetes.LogQuery
