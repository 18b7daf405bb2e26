import Portix.Lib.Lucene

/-!
# Rules for the queries of Lucene
-/

namespace Portix.Lib.Lucene

variable {c : Char}

theorem lexFrom_cons {mode next : Mode} {before : List Token} (h : lexStep mode c = some (before, next))
    (cs : List Char) : lexFrom mode (c :: cs) = (lexFrom next cs).map (before ++ ·) := by
  rw [lexFrom, h]
  rfl

/-- A text gives these tokens wherever a token may start. -/
def Spelled (text : List Char) (tokens : List Token) : Prop :=
  ∀ rest, lexFrom .base (text ++ rest) = (lexFrom .base rest).map (tokens ++ ·)

theorem map_nil_append (tokens : Option (List Token)) : tokens.map ([] ++ ·) = tokens := by
  cases tokens <;> rfl

theorem spelled_nil : Spelled [] [] := fun rest => (map_nil_append (lexFrom .base rest)).symm

theorem Spelled.append {first second : List Char} {tokens others : List Token} (h : Spelled first tokens)
    (h' : Spelled second others) : Spelled (first ++ second) (tokens ++ others) := by
  intro rest
  rw [List.append_assoc, h, h', Option.map_map]
  exact congrArg (Option.map · (lexFrom .base rest)) (funext fun ts => (List.append_assoc ..).symm)

theorem Spelled.intercalate {sep : List Char} {mark : List Token} (hsep : Spelled sep mark)
    {pieces : List (List Char × List Token)} (h : ∀ piece ∈ pieces, Spelled piece.1 piece.2) :
    Spelled (sep.intercalate (pieces.map Prod.fst)) (mark.intercalate (pieces.map Prod.snd)) := by
  induction pieces with
  | nil => exact spelled_nil
  | cons piece rest ih =>
    have hpiece := h piece List.mem_cons_self
    have hrest := ih fun p hp => h p (List.mem_cons_of_mem piece hp)
    cases rest with
    | nil =>
      simp only [List.map_cons, List.map_nil, List.intercalate_singleton]
      exact hpiece
    | cons next others =>
      simp only [List.map_cons, List.intercalate_cons_cons] at hrest ⊢
      exact (hpiece.append hsep).append hrest

variable {text : List Char}

theorem Spelled.lexFrom_base {tokens : List Token} (h : Spelled text tokens) :
    lexFrom .base text = some tokens := by
  have hnil := h []
  rwa [List.append_nil, lexFrom, lexEnd, Option.map_some, List.append_nil] at hnil

theorem Spelled.lexFrom_eq_some_iff {text rest : List Char} {tokens others : List Token} (h : Spelled text tokens) :
    lexFrom .base (text ++ rest) = some (tokens ++ others) ↔ lexFrom .base rest = some others := by
  rw [h, Option.map_eq_some_iff]
  constructor
  · rintro ⟨ts, hts, heq⟩
    rwa [← List.append_cancel_left heq]
  · intro hrest
    exact ⟨others, hrest, rfl⟩

theorem spelled_char {tokens : List Token} (h : start c = some (tokens, .base)) : Spelled [c] tokens := by
  intro rest
  have hstep : lexStep .base c = some (tokens, .base) := h
  exact lexFrom_cons hstep rest

theorem spelled_space (h : isSpace c = true) : Spelled [c] [] := spelled_char (if_pos h)

theorem lexFrom_append {mark : List Token} (hends : endsWord c = true)
    (hstart : start c = some (mark, .base)) {mode : Mode} {tokens : List Token}
    (h : lexFrom mode text = some tokens) (rest : List Char) :
    lexFrom mode (text ++ c :: rest) = (lexFrom .base rest).map (tokens ++ mark ++ ·) := by
  induction text generalizing mode tokens with
  | nil =>
    have hslash : c ≠ '\\' := by
      rintro rfl
      exact absurd hends (by decide)
    cases mode with
    | base =>
      cases h
      exact spelled_char hstart rest
    | word letters =>
      cases h
      refine lexFrom_cons ?_ rest
      rw [lexStep, if_neg hslash, if_pos hends, hstart]
      rfl
    | wordEscape _ | phrase _ | phraseEscape _ | range _ | regex _ | regexEscape _ => exact nomatch h
  | cons first others ih =>
    rw [lexFrom] at h
    obtain ⟨⟨before, next⟩, hstep, hrest⟩ := Option.bind_eq_some_iff.mp h
    obtain ⟨after, hafter, rfl⟩ := Option.map_eq_some_iff.mp hrest
    rw [List.cons_append, lexFrom_cons hstep, ih hafter, Option.map_map]
    refine congrArg (Option.map · (lexFrom .base rest)) (funext fun ts => ?_)
    simp only [Function.comp_apply, List.append_assoc]

theorem spelled_paren {tokens : List Token} (h : lexFrom .base text = some tokens) :
    Spelled ('(' :: text ++ [')']) (.lparen :: tokens ++ [.rparen]) := by
  intro rest
  have hopen : Spelled ['('] [.lparen] := spelled_char rfl
  have htext : lexFrom .base (text ++ ')' :: rest) = (lexFrom .base rest).map (tokens ++ [.rparen] ++ ·) :=
    lexFrom_append (by decide) rfl h rest
  rw [List.append_assoc, List.cons_append, List.singleton_append, ← List.singleton_append, hopen, htext, Option.map_map]
  refine congrArg (Option.map · (lexFrom .base rest)) (funext fun ts => ?_)
  simp only [Function.comp_apply, List.append_assoc, List.nil_append, List.cons_append]

theorem spelled_blank {tokens : List Token} (h : lexFrom .base text = some tokens) :
    Spelled (text ++ [' ']) tokens := by
  intro rest
  rw [List.append_assoc, List.singleton_append, lexFrom_append (by decide) rfl h, List.append_nil]

theorem spelled_spaces {spaces : List Char} (h : ∀ c ∈ spaces, isSpace c = true) : Spelled spaces [] := by
  induction spaces with
  | nil => exact spelled_nil
  | cons c rest ih =>
    exact (spelled_space (h c List.mem_cons_self)).append (ih fun c hc => h c (List.mem_cons_of_mem _ hc))

/-- White space around a text changes none of its tokens. -/
theorem lexFrom_between {before after : List Char} {tokens : List Token} (hbefore : ∀ c ∈ before, isSpace c = true)
    (hafter : ∀ c ∈ after, isSpace c = true) (h : lexFrom .base text = some tokens) :
    lexFrom .base (before ++ text ++ after) = some tokens := by
  rw [List.append_assoc, spelled_spaces hbefore, map_nil_append]
  cases after with
  | nil => rwa [List.append_nil]
  | cons c rest =>
    have hends : endsWord c = true := by simp [endsWord, hafter c List.mem_cons_self]
    have hstart : start c = some ([], .base) := if_pos (hafter c List.mem_cons_self)
    have hrest := (spelled_spaces fun c hc => hafter c (List.mem_cons_of_mem _ hc)).lexFrom_base
    rw [lexFrom_append hends hstart h, hrest, Option.map_some, List.append_nil, List.append_nil]

theorem spelled_and : Spelled " AND ".toList [.conj .and] :=
  (spelled_space (by decide)).append (spelled_blank (rfl : lexFrom .base "AND".toList = some [.conj .and]))

theorem spelled_or : Spelled " OR ".toList [.conj .or] :=
  (spelled_space (by decide)).append (spelled_blank (rfl : lexFrom .base "OR".toList = some [.conj .or]))

theorem spelled_not : Spelled "NOT ".toList [.sign .prohibited] :=
  spelled_blank (rfl : lexFrom .base "NOT".toList = some [.sign .prohibited])

theorem lex_and {parts : List (String × List Token)} (h : ∀ part ∈ parts, lex part.1 = some part.2) :
    lex (" AND ".intercalate (parts.map fun part => "(" ++ part.1 ++ ")")) =
      some (List.intercalate [.conj .and] (parts.map fun part => .lparen :: part.2 ++ [.rparen])) := by
  let piece := fun part : String × List Token => ('(' :: part.1.toList ++ [')'], .lparen :: part.2 ++ [.rparen])
  have hpiece : ∀ p ∈ parts.map piece, Spelled p.1 p.2 := by
    intro p hp
    obtain ⟨part, hpart, rfl⟩ := List.mem_map.mp hp
    exact spelled_paren (h part hpart)
  have htext : (parts.map fun part => "(" ++ part.1 ++ ")").map String.toList = (parts.map piece).map Prod.fst := by
    rw [List.map_map, List.map_map]
    refine List.map_congr_left fun part _ => ?_
    simp only [Function.comp_apply, String.toList_append]
    rfl
  have htokens : (parts.map fun part => .lparen :: part.2 ++ [.rparen]) = (parts.map piece).map Prod.snd := by
    rw [List.map_map]
    rfl
  rw [lex, String.toList_intercalate, htext, htokens]
  exact (spelled_and.intercalate hpiece).lexFrom_base

def escapeIn (special text : List Char) : List Char := text.flatMap fun c => if c ∈ special then ['\\', c] else [c]

def marked (special text : List Char) : List Letter := text.map fun c => (c, decide (c ∈ special))

theorem escapeIn_cons_of_mem {special : List Char} (h : c ∈ special) (text : List Char) :
    escapeIn special (c :: text) = '\\' :: c :: escapeIn special text := by
  rw [escapeIn, List.flatMap_cons, if_pos h]
  rfl

theorem escapeIn_cons_of_notMem {special : List Char} (h : c ∉ special) (text : List Char) :
    escapeIn special (c :: text) = c :: escapeIn special text := by
  rw [escapeIn, List.flatMap_cons, if_neg h]
  rfl

theorem textOf_marked (special text : List Char) : textOf (marked special text) = String.ofList text := by
  rw [textOf, marked, List.map_map]
  exact congrArg String.ofList (List.map_id text)

def startsWord (c : Char) : Bool := !endsWord c && c ∉ ['\\', '+', '-']

theorem start_of_startsWord (h : startsWord c = true) : start c = some ([], .word [(c, false)]) := by
  simp only [startsWord, endsWord, Bool.and_eq_true, Bool.not_eq_true', Bool.or_eq_false_iff, decide_eq_false_iff_not,
    decide_eq_true_eq, List.mem_cons, List.not_mem_nil, or_false, not_or] at h
  simp [start, h]

theorem lexStep_word (h : startsWord c = true) (letters : List Letter) :
    lexStep (.word letters) c = some ([], .word (letters ++ [(c, false)])) := by
  obtain ⟨hends, hmem⟩ := Bool.and_eq_true_iff.mp h
  have hslash : c ≠ '\\' := by
    rintro rfl
    exact absurd hmem (by decide)
  have hends' : ¬endsWord c = true := by simpa using hends
  rw [lexStep, if_neg hslash, if_neg hends']

section Escapes

variable {special : List Char} {letters : List Letter}

theorem lexFrom_escaped (cs : List Char) :
    lexFrom (.word letters) ('\\' :: c :: cs) = lexFrom (.word (letters ++ [(c, true)])) cs := by
  have hslash : lexStep (.word letters) '\\' = some ([], .wordEscape letters) := rfl
  have hchar : lexStep (.wordEscape letters) c = some ([], .word (letters ++ [(c, true)])) := rfl
  rw [lexFrom_cons hslash, lexFrom_cons hchar, map_nil_append, map_nil_append]

theorem lexFrom_base_eq_word (h : c ∉ special → startsWord c = true) (text rest : List Char) :
    lexFrom .base (escapeIn special (c :: text) ++ rest) =
      lexFrom (.word []) (escapeIn special (c :: text) ++ rest) := by
  by_cases hc : c ∈ special
  · rw [escapeIn_cons_of_mem hc]
    rfl
  · have hbase : lexStep .base c = some ([], .word [(c, false)]) := start_of_startsWord (h hc)
    have hword : lexStep (.word []) c = some ([], .word [(c, false)]) := lexStep_word (h hc) []
    rw [escapeIn_cons_of_notMem hc, List.cons_append, lexFrom_cons hbase, lexFrom_cons hword]

theorem lexFrom_word (h : ∀ c ∈ text, c ∉ special → startsWord c = true) (letters : List Letter) (rest : List Char) :
    lexFrom (.word letters) (escapeIn special text ++ rest) =
      lexFrom (.word (letters ++ marked special text)) rest := by
  induction text generalizing letters with
  | nil =>
    rw [marked, List.map_nil, List.append_nil]
    rfl
  | cons c others ih =>
    have hothers := ih fun d hd => h d (List.mem_cons_of_mem c hd)
    by_cases hc : c ∈ special
    · have hmarked : marked special (c :: others) = (c, true) :: marked special others := by
        rw [marked, List.map_cons, decide_eq_true hc]
        rfl
      rw [escapeIn_cons_of_mem hc, List.cons_append, List.cons_append, lexFrom_escaped, hothers, hmarked,
        List.append_assoc]
      rfl
    · have hmarked : marked special (c :: others) = (c, false) :: marked special others := by
        rw [marked, List.map_cons, decide_eq_false hc]
        rfl
      have hstep := lexStep_word (h c List.mem_cons_self hc) letters
      rw [escapeIn_cons_of_notMem hc, List.cons_append, lexFrom_cons hstep, map_nil_append, hothers, hmarked,
        List.append_assoc]
      rfl

theorem lexFrom_base (hne : text ≠ []) (h : ∀ c ∈ text, c ∉ special → startsWord c = true) (rest : List Char) :
    lexFrom .base (escapeIn special text ++ rest) = lexFrom (.word (marked special text)) rest := by
  obtain ⟨c, others, rfl⟩ := List.exists_cons_of_ne_nil hne
  rw [lexFrom_base_eq_word (h c List.mem_cons_self), lexFrom_word h]
  rfl

theorem spelled_name (hne : text ≠ []) (h : ∀ c ∈ text, c ∉ special → startsWord c = true) :
    Spelled (escapeIn special text ++ [':']) [wordToken (marked special text), .colon] := by
  intro rest
  have hword : lexFrom (.word (marked special text)) [] = some [wordToken (marked special text)] := rfl
  have hcolon : lexFrom (.word (marked special text)) (':' :: rest) = _ := lexFrom_append (by decide) rfl hword rest
  rw [List.append_assoc, lexFrom_base hne h, List.singleton_append, hcolon]
  rfl

theorem wordToken_eq_word {letters others : List Letter} (h : wordToken letters = .atom (.word others)) :
    letters = others := by
  unfold wordToken at h
  split_ifs at h
  exact Atom.word.inj (Token.atom.inj h)

/-- A text that ends, or goes on with a colon. -/
def Ends (rest : List Char) : Prop := rest = [] ∨ ∃ others, rest = ':' :: others

theorem head_of_word {rest : List Char} {tokens : List Token} (hrest : Ends rest)
    (h : lexFrom (.word letters) rest = some tokens) : ∃ others, tokens = wordToken letters :: others := by
  rcases hrest with rfl | ⟨others, rfl⟩
  · exact ⟨[], (Option.some.inj h).symm⟩
  · have hstep : lexStep (.word letters) ':' = some ([wordToken letters, .colon], .base) := rfl
    rw [lexFrom_cons hstep] at h
    obtain ⟨after, -, rfl⟩ := Option.map_eq_some_iff.mp h
    exact ⟨.colon :: after, rfl⟩

theorem length_of_word {text rest : List Char} {letters others : List Letter} {tokens : List Token}
    (hspecial : ∀ c ∈ text, c ∉ special → isSpace c = false → startsWord c = true) (hrest : Ends rest)
    (h : lexFrom (.word letters) (escapeIn special text ++ rest) = some (.atom (.word others) :: tokens)) :
    others.length + text.countP (fun c => isSpace c && c ∉ special) ≤ letters.length + text.length := by
  induction text generalizing letters with
  | nil =>
    obtain ⟨after, hafter⟩ := head_of_word hrest h
    rw [wordToken_eq_word (List.cons.inj hafter).1.symm]
    exact Nat.le_refl _
  | cons c text ih =>
    have htext := fun d hd => hspecial d (List.mem_cons_of_mem c hd)
    by_cases hc : c ∈ special
    · rw [escapeIn_cons_of_mem hc, List.cons_append, List.cons_append, lexFrom_escaped] at h
      have hlength := ih htext h
      rw [List.countP_cons_of_neg (by simp [hc])]
      simp only [List.length_append, List.length_cons, List.length_nil] at hlength ⊢
      omega
    · rw [escapeIn_cons_of_notMem hc, List.cons_append] at h
      by_cases hspace : isSpace c = true
      · have hstep : lexStep (.word letters) c = some ([wordToken letters], .base) := by
          have hslash : c ≠ '\\' := by
            rintro rfl
            exact absurd hspace (by decide)
          have hends : endsWord c = true := by rw [endsWord, hspace, Bool.true_or]
          rw [lexStep, if_neg hslash, if_pos hends, start, if_pos hspace]
          rfl
        rw [lexFrom_cons hstep] at h
        obtain ⟨after, -, hafter⟩ := Option.map_eq_some_iff.mp h
        rw [wordToken_eq_word (List.cons.inj hafter).1]
        exact Nat.add_le_add_left (List.countP_le_length) _
      · have hstart := hspecial c List.mem_cons_self hc (by simpa using hspace)
        rw [lexFrom_cons (lexStep_word hstart letters), map_nil_append] at h
        have hlength := ih htext h
        rw [List.countP_cons_of_neg (by simp [hspace])]
        simp only [List.length_append, List.length_cons, List.length_nil] at hlength ⊢
        omega

theorem length_of_base {text rest : List Char} {others : List Letter} {tokens : List Token}
    (hspecial : ∀ c ∈ text, c ∉ special → isSpace c = false → startsWord c = true) (hrest : Ends rest)
    (h : lexFrom .base (escapeIn special text ++ rest) = some (.atom (.word others) :: tokens)) :
    text ≠ [] ∧ others.length + text.countP (fun c => isSpace c && c ∉ special) ≤ text.length := by
  induction text with
  | nil =>
    rcases hrest with rfl | ⟨after, rfl⟩
    · exact nomatch h
    · have hstep : lexStep .base ':' = some ([.colon], .base) := rfl
      have hcolon : lexFrom .base (':' :: after) = some (.atom (.word others) :: tokens) := h
      rw [lexFrom_cons hstep] at hcolon
      obtain ⟨after, -, hafter⟩ := Option.map_eq_some_iff.mp hcolon
      exact nomatch (List.cons.inj hafter).1
  | cons c text ih =>
    refine ⟨List.cons_ne_nil c text, ?_⟩
    by_cases hword : c ∉ special ∧ isSpace c = true
    · have hstep : lexStep .base c = some ([], .base) := if_pos hword.2
      rw [escapeIn_cons_of_notMem hword.1, List.cons_append, lexFrom_cons hstep, map_nil_append] at h
      have hlength := (ih (fun d hd => hspecial d (List.mem_cons_of_mem c hd)) h).2
      rw [List.countP_cons_of_pos (by simp [hword]), List.length_cons]
      omega
    · have hstart : c ∉ special → startsWord c = true := fun hc =>
        hspecial c List.mem_cons_self hc (by simpa [hc] using hword)
      rw [lexFrom_base_eq_word hstart] at h
      have hlength := length_of_word hspecial hrest h
      rwa [List.length_nil, Nat.zero_add] at hlength

/-- A text that reads as one word that stands for it has no white space without an escape, and is no operator. -/
theorem name_of_word {text rest : List Char} {tokens : List Token}
    (hspecial : ∀ c ∈ text, c ∉ special → isSpace c = false → startsWord c = true) (hrest : Ends rest)
    (h : lexFrom .base (escapeIn special text ++ rest) = some (.atom (.word letters) :: tokens))
    (htext : textOf letters = String.ofList text) :
    text ≠ [] ∧ (∀ c ∈ text, c ∉ special → isSpace c = false) ∧
      wordToken (marked special text) = .atom (.word (marked special text)) := by
  obtain ⟨hne, hlength⟩ := length_of_base hspecial hrest h
  have hletters : letters.length = text.length := by
    rw [← List.length_map (f := Prod.fst), String.ofList_injective htext]
  have hzero : text.countP (fun c => isSpace c && c ∉ special) = 0 := by omega
  have hspaces : ∀ c ∈ text, c ∉ special → isSpace c = false := by
    intro c hc hmem
    have hcount := List.countP_eq_zero.mp hzero c hc
    simpa [hmem] using hcount
  refine ⟨hne, hspaces, ?_⟩
  rw [lexFrom_base hne fun c hc hmem => hspecial c hc hmem (hspaces c hc hmem)] at h
  obtain ⟨others, hothers⟩ := head_of_word hrest h
  have hword := (List.cons.inj hothers).1
  rw [← hword, wordToken_eq_word hword.symm]

end Escapes

theorem spelled_phrase (text : List Char) :
    Spelled ('"' :: escapeIn ['\\', '"'] text ++ ['"']) [.atom (.phrase (String.ofList text))] := by
  intro rest
  have hphrase : ∀ before : List Char, lexFrom (.phrase before) (escapeIn ['\\', '"'] text ++ '"' :: rest) =
      (lexFrom .base rest).map ([.atom (.phrase (String.ofList (before ++ text)))] ++ ·) := by
    induction text with
    | nil =>
      intro before
      have hend : lexStep (.phrase before) '"' = some ([.atom (.phrase (String.ofList before))], .base) := rfl
      rw [List.append_nil]
      exact lexFrom_cons hend rest
    | cons c others ih =>
      intro before
      have hnext := ih (before ++ [c])
      rw [List.append_assoc, List.singleton_append] at hnext
      by_cases hc : c ∈ ['\\', '"']
      · have hslash : lexStep (.phrase before) '\\' = some ([], .phraseEscape before) := rfl
        have hchar : lexStep (.phraseEscape before) c = some ([], .phrase (before ++ [c])) := rfl
        rw [escapeIn_cons_of_mem hc, List.cons_append, List.cons_append, lexFrom_cons hslash, lexFrom_cons hchar,
          map_nil_append, map_nil_append, hnext]
      · have hchar : lexStep (.phrase before) c = some ([], .phrase (before ++ [c])) := by
          rw [List.mem_cons, List.mem_singleton, not_or] at hc
          rw [lexStep, if_neg hc.1, if_neg hc.2]
        rw [escapeIn_cons_of_notMem hc, List.cons_append, lexFrom_cons hchar, map_nil_append, hnext]
  have hquote : lexStep .base '"' = some ([], .phrase []) := rfl
  rw [List.append_assoc, List.cons_append, List.singleton_append, lexFrom_cons hquote, map_nil_append, hphrase]
  rfl

variable {frames next : List Frame}

theorem parseFrom_cons {token : Token} (h : parseStep token frames = some next)
    (tokens : List Token) : parseFrom frames (token :: tokens) = parseFrom next tokens := by
  rw [parseFrom, h, Option.bind_some]

theorem parseFrom_append (frames : List Frame) (tokens others : List Token) :
    parseFrom frames (tokens ++ others) = (parseFrom frames tokens).bind fun next => parseFrom next others := by
  induction tokens generalizing frames with
  | nil => rfl
  | cons token tokens ih =>
    rw [List.cons_append, parseFrom, parseFrom, Option.bind_assoc]
    exact congrArg (Option.bind (parseStep token frames)) (funext ih)

theorem parseStep_rparen {frame parent : Frame} {items : List Item} (h : frame.settle.close = some items)
    (outer : List Frame) : parseStep .rparen (frame :: parent :: outer) = some (parent.addGroup items :: outer) := by
  simp only [parseStep, h]

theorem parseStep_outer {token : Token} (h : parseStep token frames = some next)
    (outer : List Frame) : parseStep token (frames ++ outer) = some (next ++ outer) := by
  cases frames with
  | nil => exact nomatch h
  | cons frame inner =>
    cases token with
    | atom _ | conj _ | sign _ | colon =>
      obtain ⟨frame', hframe, rfl⟩ := Option.map_eq_some_iff.mp h
      exact Option.map_eq_some_iff.mpr ⟨frame', hframe, rfl⟩
    | lparen =>
      cases h
      rfl
    | rparen =>
      simp only [parseStep] at h
      split at h
      · rename_i items parent rest hclose
        cases h
        exact parseStep_rparen hclose (rest ++ outer)
      · exact nomatch h

theorem parseFrom_outer {tokens : List Token} (h : parseFrom frames tokens = some next)
    (outer : List Frame) : parseFrom (frames ++ outer) tokens = some (next ++ outer) := by
  induction tokens generalizing frames with
  | nil =>
    cases h
    rfl
  | cons token tokens ih =>
    obtain ⟨middle, hmiddle, hnext⟩ := Option.bind_eq_some_iff.mp h
    rw [parseFrom_cons (parseStep_outer hmiddle outer)]
    exact ih hnext

/-- The tokens are a query with these parts, where a field is meant. -/
def Closes (field : Option String) (tokens : List Token) (items : List Item) : Prop :=
  ∃ frame, parseFrom [Frame.fresh field] tokens = some [frame] ∧ frame.settle.close = some items

theorem parse_eq_some_iff {tokens : List Token} {items : List Item} :
    parse tokens = some items ↔ Closes none tokens items := by
  unfold parse
  constructor
  · intro h
    split at h
    · rename_i frame hframe
      exact ⟨frame, hframe, h⟩
    · exact nomatch h
  · rintro ⟨frame, hframe, hclose⟩
    rw [hframe]
    exact hclose

/-- The tokens are the next part of a query. -/
def Parsed (field : Option String) (tokens : List Token) (clause : Clause) : Prop :=
  ∀ items conj sign outer, parseFrom (⟨items, field, .before conj sign⟩ :: outer) tokens =
    some (⟨items ++ [(conj, sign, clause)], field, .before none none⟩ :: outer)

section Parsed

variable {field : Option String} {tokens : List Token} {items : List Item} {clause : Clause}

theorem Closes.parseFrom_group (h : Closes field tokens items) (frame : Frame) (outer : List Frame) :
    parseFrom (Frame.fresh field :: frame :: outer) (tokens ++ [.rparen]) = some (frame.addGroup items :: outer) := by
  obtain ⟨inner, hinner, hclose⟩ := h
  have hfrom : parseFrom (Frame.fresh field :: frame :: outer) tokens = some (inner :: frame :: outer) :=
    parseFrom_outer hinner (frame :: outer)
  rw [parseFrom_append, hfrom, Option.bind_some, parseFrom_cons (parseStep_rparen hclose outer), parseFrom]

theorem Closes.group (h : Closes field tokens items) :
    Parsed field (.lparen :: tokens ++ [.rparen]) (.group items) := by
  intro before conj sign outer
  have hopen : parseStep .lparen (⟨before, field, .before conj sign⟩ :: outer) =
      some (Frame.fresh field :: ⟨before, field, .before conj sign⟩ :: outer) := rfl
  rw [List.cons_append, parseFrom_cons hopen, h.parseFrom_group]
  rfl

theorem Closes.named {letters : List Letter} (h : Closes (some (textOf letters)) tokens items) :
    Parsed field (.atom (.word letters) :: .colon :: .lparen :: tokens ++ [.rparen]) (.group items) := by
  intro before conj sign outer
  have hword : parseStep (.atom (.word letters)) (⟨before, field, .before conj sign⟩ :: outer) =
      some (⟨before, field, .word conj sign letters⟩ :: outer) := rfl
  have hcolon : parseStep .colon (⟨before, field, .word conj sign letters⟩ :: outer) =
      some (⟨before, field, .field conj sign (textOf letters)⟩ :: outer) := rfl
  have hopen : parseStep .lparen (⟨before, field, .field conj sign (textOf letters)⟩ :: outer) =
      some (Frame.fresh (some (textOf letters)) :: ⟨before, field, .field conj sign (textOf letters)⟩ :: outer) := rfl
  rw [List.cons_append, List.cons_append, List.cons_append, parseFrom_cons hword, parseFrom_cons hcolon,
    parseFrom_cons hopen, h.parseFrom_group]
  rfl

theorem parsed_named (letters : List Letter) (atom : Atom) :
    Parsed field [.atom (.word letters), .colon, .atom atom] (.term (some (textOf letters)) atom) := by
  intro before conj sign outer
  have hword : parseStep (.atom (.word letters)) (⟨before, field, .before conj sign⟩ :: outer) =
      some (⟨before, field, .word conj sign letters⟩ :: outer) := rfl
  have hcolon : parseStep .colon (⟨before, field, .word conj sign letters⟩ :: outer) =
      some (⟨before, field, .field conj sign (textOf letters)⟩ :: outer) := rfl
  rw [parseFrom_cons hword, parseFrom_cons hcolon]
  rfl

theorem parsed_phrase (text : String) : Parsed field [.atom (.phrase text)] (.term field (.phrase text)) :=
  fun _ _ _ _ => rfl

theorem Parsed.closes (h : Parsed field tokens clause) : Closes field tokens [(none, none, clause)] :=
  ⟨_, h [] none none [], rfl⟩

theorem Parsed.closes_sign (h : Parsed field tokens clause) (sign : Sign) :
    Closes field (.sign sign :: tokens) [(none, some sign, clause)] := by
  have hsign : parseStep (.sign sign) [Frame.fresh field] = some [⟨[], field, .before none (some sign)⟩] := rfl
  exact ⟨_, (parseFrom_cons hsign tokens).trans (h [] none (some sign) []), rfl⟩

end Parsed

def chain (conj : Conj) : List Clause → List Item
  | [] => []
  | first :: rest => (none, none, first) :: rest.map fun clause => (some conj, none, clause)

theorem parseFrom_chain {field : Option String} {conj : Conj} {piece : List Token × Clause}
    {rest : List (List Token × Clause)} (h : ∀ p ∈ piece :: rest, Parsed field p.1 p.2) (items : List Item)
    (before : Option Conj) :
    parseFrom [⟨items, field, .before before none⟩] (List.intercalate [.conj conj] ((piece :: rest).map Prod.fst)) =
      some [⟨items ++ (before, none, piece.2) :: rest.map fun p => (some conj, none, p.2), field,
        .before none none⟩] := by
  induction rest generalizing piece items before with
  | nil =>
    rw [List.map_cons, List.map_nil, List.intercalate_singleton]
    exact h piece List.mem_cons_self items before none []
  | cons next others ih =>
    have hothers := fun p hp => h p (List.mem_cons_of_mem piece hp)
    have hpiece := h piece List.mem_cons_self items before none []
    have hconj : parseStep (.conj conj) [⟨items ++ [(before, none, piece.2)], field, .before none none⟩] =
        some [⟨items ++ [(before, none, piece.2)], field, .before (some conj) none⟩] := by
      refine congrArg (Option.map (· :: [])) (if_neg ?_)
      exact List.append_ne_nil_of_right_ne_nil items (List.cons_ne_nil _ [])
    rw [List.map_cons, List.map_cons, List.intercalate_cons_cons, List.append_assoc, parseFrom_append, hpiece,
      Option.bind_some, List.singleton_append, parseFrom_cons hconj, ← List.map_cons, ih hothers, List.append_assoc]
    rfl

theorem closes_chain {field : Option String} {conj : Conj} {pieces : List (List Token × Clause)} (hne : pieces ≠ [])
    (h : ∀ piece ∈ pieces, Parsed field piece.1 piece.2) :
    Closes field (List.intercalate [.conj conj] (pieces.map Prod.fst)) (chain conj (pieces.map Prod.snd)) := by
  obtain ⟨piece, rest, rfl⟩ := List.exists_cons_of_ne_nil hne
  refine ⟨_, parseFrom_chain h [] none, ?_⟩
  rw [List.map_cons, chain, List.map_map]
  rfl

theorem exists_intercalate_concat {α : Type} (sep : List α) (pieces : List (List α)) (last : List α) :
    ∃ before, sep.intercalate (pieces ++ [last]) = before ++ last := by
  induction pieces with
  | nil => exact ⟨[], List.intercalate_singleton⟩
  | cons piece rest ih =>
    obtain ⟨before, hbefore⟩ := ih
    refine ⟨piece ++ sep ++ before, ?_⟩
    rw [List.cons_append, List.intercalate_cons_of_ne_nil (List.append_ne_nil_of_right_ne_nil rest
      (List.cons_ne_nil last [])), hbefore, ← List.append_assoc]

theorem parse_of_empty_group (tokens others : List Token) : parse (tokens ++ .lparen :: .rparen :: others) = none := by
  refine Option.eq_none_iff_forall_ne_some.mpr fun items h => ?_
  obtain ⟨frame, hframe, -⟩ := parse_eq_some_iff.mp h
  rw [parseFrom_append] at hframe
  obtain ⟨frames, -, hrest⟩ := Option.bind_eq_some_iff.mp hframe
  cases frames with
  | nil => exact nomatch hrest
  | cons inner outer => exact nomatch hrest

theorem read_and {parts : List (String × List Item)} (hne : parts ≠ [])
    (h : ∀ part ∈ parts, read part.1 = some part.2) :
    read (" AND ".intercalate (parts.map fun part => "(" ++ part.1 ++ ")")) =
      some (chain .and (parts.map fun part => .group part.2)) := by
  let tokens := fun part : String × List Item => (lex part.1).getD []
  have hpart : ∀ part ∈ parts, lex part.1 = some (tokens part) ∧ parse (tokens part) = some part.2 := by
    intro part hmem
    obtain ⟨ts, hlex, hparse⟩ := Option.bind_eq_some_iff.mp (h part hmem)
    have htokens : tokens part = ts := congrArg (Option.getD · []) hlex
    rw [htokens]
    exact ⟨hlex, hparse⟩
  have hlex : lex (" AND ".intercalate (parts.map fun part => "(" ++ part.1 ++ ")")) =
      some (List.intercalate [.conj .and] (parts.map fun part => .lparen :: tokens part ++ [.rparen])) := by
    have hname : ∀ p ∈ parts.map fun part => (part.1, tokens part), lex p.1 = some p.2 := by
      intro p hp
      obtain ⟨part, hmem, rfl⟩ := List.mem_map.mp hp
      exact (hpart part hmem).1
    have hand := lex_and hname
    rw [List.map_map, List.map_map] at hand
    exact hand
  let piece := fun part : String × List Item => (.lparen :: tokens part ++ [.rparen], Clause.group part.2)
  have hpiece : ∀ p ∈ parts.map piece, Parsed none p.1 p.2 := by
    intro p hp
    obtain ⟨part, hmem, rfl⟩ := List.mem_map.mp hp
    exact (parse_eq_some_iff.mp (hpart part hmem).2).group
  have hparse : parse (List.intercalate [.conj .and] ((parts.map piece).map Prod.fst)) =
      some (chain .and ((parts.map piece).map Prod.snd)) :=
    parse_eq_some_iff.mpr (closes_chain (mt List.map_eq_nil_iff.mp hne) hpiece)
  rw [List.map_map, List.map_map] at hparse
  rw [read, hlex, Option.bind_some]
  exact hparse

variable {δ : Type} (docs : Documents δ)

theorem meanings_eq_map (d : δ) (items : List Item) :
    meanings docs d items = items.map fun item => (item.1, item.2.1, item.2.2.meaning docs d) := by
  induction items with
  | nil => rw [meanings, List.map_nil]
  | cons item rest ih =>
    obtain ⟨conj, sign, clause⟩ := item
    rw [meanings, ih, List.map_cons]

variable {parts : List (Option Conj × Option Sign × Prop)} {ps : List Prop}

theorem mem_occurs {o : Occur} (h : occurs parts = ps.map fun p => (o, p)) {occur : Occur} {p : Prop} :
    (occur, p) ∈ occurs parts ↔ occur = o ∧ p ∈ ps := by
  rw [h, List.mem_map]
  constructor
  · rintro ⟨q, hq, ⟨⟩⟩
    exact ⟨rfl, hq⟩
  · rintro ⟨rfl, hp⟩
    exact ⟨p, hp, rfl⟩

theorem combine_must (h : occurs parts = ps.map fun p => (.must, p)) : combine parts ↔ ∀ p ∈ ps, p := by
  constructor
  · rintro ⟨hall, -, -⟩ p hp
    exact hall p ((mem_occurs h).mpr ⟨rfl, hp⟩)
  · intro hall
    refine ⟨fun p hp => hall p ((mem_occurs h).mp hp).2, fun p hp => ?_, .inr (.inr fun p hp => ?_)⟩ <;>
      exact absurd ((mem_occurs h).mp hp).1 (by decide)

theorem combine_should (hne : ps ≠ [])
    (h : occurs parts = ps.map fun p => (.should, p)) : combine parts ↔ ∃ p ∈ ps, p := by
  constructor
  · rintro ⟨-, -, ⟨p, hp⟩ | ⟨p, hp, hholds⟩ | hnone⟩
    · exact absurd ((mem_occurs h).mp hp).1 (by decide)
    · exact ⟨p, ((mem_occurs h).mp hp).2, hholds⟩
    · obtain ⟨p, hp⟩ := List.exists_mem_of_ne_nil ps hne
      exact absurd ((mem_occurs h).mpr ⟨rfl, hp⟩) (hnone p)
  · rintro ⟨p, hp, hholds⟩
    refine ⟨fun q hq => ?_, fun q hq => ?_, .inr (.inl ⟨p, (mem_occurs h).mpr ⟨rfl, hp⟩, hholds⟩)⟩ <;>
      exact absurd ((mem_occurs h).mp hq).1 (by decide)

theorem combine_one (p : Prop) : combine [(none, none, p)] ↔ p := by
  have hoccurs : occurs [(none, none, p)] = [p].map fun p => (.should, p) := rfl
  rw [combine_should (List.cons_ne_nil p []) hoccurs]
  exact ⟨fun ⟨q, hq, hholds⟩ => List.mem_singleton.mp hq ▸ hholds, fun hp => ⟨p, List.mem_singleton_self p, hp⟩⟩

theorem combine_not (p : Prop) : combine [(none, some .prohibited, p)] ↔ ¬p := by
  have hoccurs : occurs [(none, some .prohibited, p)] = [p].map fun p => (.mustNot, p) := rfl
  constructor
  · rintro ⟨-, hnot, -⟩
    exact hnot p ((mem_occurs hoccurs).mpr ⟨rfl, List.mem_singleton_self p⟩)
  · intro hp
    refine ⟨fun q hq => ?_, fun q hq => ?_, .inr (.inr fun q hq => ?_)⟩
    · exact absurd ((mem_occurs hoccurs).mp hq).1 (by decide)
    · rwa [List.mem_singleton.mp ((mem_occurs hoccurs).mp hq).2]
    · exact absurd ((mem_occurs hoccurs).mp hq).1 (by decide)

theorem occurs_unsigned (conj : Option Conj) (p : Prop) (rest : List (Option Conj × Option Sign × Prop)) :
    occurs ((conj, none, p) :: rest) =
      (if conj = some .and ∨ (rest.head?.bind Prod.fst) = some .and then .must else .should, p) :: occurs rest := rfl

theorem occurs_and (ps : List Prop) : occurs (ps.map fun p => (some .and, none, p)) = ps.map fun p => (.must, p) := by
  induction ps with
  | nil => rfl
  | cons p rest ih =>
    rw [List.map_cons, occurs_unsigned, ih, List.map_cons]
    simp

theorem occurs_or (ps : List Prop) (conj : Option Conj) (p : Prop) (h : conj ≠ some .and) :
    occurs ((conj, none, p) :: ps.map fun p => (some .or, none, p)) = (p :: ps).map fun p => (.should, p) := by
  induction ps generalizing conj p with
  | nil =>
    rw [List.map_nil, occurs_unsigned]
    simp [h]
    rfl
  | cons q rest ih =>
    have hrest := ih (some .or) q (by decide)
    rw [List.map_cons, occurs_unsigned, hrest]
    simp [h]

theorem meanings_chain (d : δ) (conj : Conj) (first : Clause) (rest : List Clause) :
    meanings docs d (chain conj (first :: rest)) = (none, none, first.meaning docs d) ::
      (rest.map (Clause.meaning docs d)).map fun p => (some conj, none, p) := by
  rw [meanings_eq_map, chain, List.map_cons, List.map_map, List.map_map]
  rfl

theorem combine_chain_and (d : δ) (clauses : List Clause) :
    combine (meanings docs d (chain .and clauses)) ↔ ∀ clause ∈ clauses, clause.meaning docs d := by
  rcases clauses with - | ⟨first, - | ⟨second, rest⟩⟩
  · have hoccurs : occurs (meanings docs d (chain .and [])) = ([] : List Prop).map fun p => (.must, p) := rfl
    rw [combine_must hoccurs]
    simp only [List.not_mem_nil, false_implies, implies_true]
  · rw [meanings_chain, List.map_nil, List.map_nil, combine_one, List.forall_mem_singleton]
  · have hoccurs : occurs (meanings docs d (chain .and (first :: second :: rest))) =
        ((first :: second :: rest).map (Clause.meaning docs d)).map fun p => (.must, p) := by
      rw [meanings_chain, occurs_unsigned, occurs_and]
      rfl
    rw [combine_must hoccurs, List.forall_mem_map]

theorem combine_chain_or (d : δ) {clauses : List Clause} (hne : clauses ≠ []) :
    combine (meanings docs d (chain .or clauses)) ↔ ∃ clause ∈ clauses, clause.meaning docs d := by
  obtain ⟨first, rest, rfl⟩ := List.exists_cons_of_ne_nil hne
  have hoccurs := occurs_or (rest.map (Clause.meaning docs d)) none (first.meaning docs d) (by decide)
  rw [← meanings_chain, ← List.map_cons] at hoccurs
  rw [combine_should (List.cons_ne_nil _ _) hoccurs, ← List.map_cons]
  simp only [List.mem_map, exists_exists_and_eq_and]

end Portix.Lib.Lucene
