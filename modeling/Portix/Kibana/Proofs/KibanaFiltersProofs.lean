import Portix.Kibana.KibanaFilters
import Portix.Lib.Proofs.LuceneProofs

/-!
# Soundness theorems for filters
-/

namespace Portix.Kibana

open Lib Lucene

theorem startsWord_of_notMem {c : Char} (h : c ∉ luceneSpecial) (hspace : isSpace c = false) : startsWord c = true := by
  have hends : ['"', '(', ')', ':', '!', '[', ']', '\x7b', '\x7d', '/'] ⊆ luceneSpecial := by decide
  have hothers : ['\\', '+', '-'] ⊆ luceneSpecial := by decide
  rw [startsWord, endsWord, hspace, Bool.false_or, Bool.and_eq_true, Bool.not_eq_true', decide_eq_false_iff_not,
    decide_eq_true_eq]
  exact ⟨fun hc => h (hends hc), fun hc => h (hothers hc)⟩

theorem eq_blank_of_mem {c : Char} (h : c ∈ luceneSpecial) (hspace : isSpace c = true) : c = ' ' := by
  simp only [isSpace, decide_eq_true_eq, List.mem_cons, List.not_mem_nil, or_false] at hspace
  rcases hspace with rfl | rfl | rfl | rfl | rfl
  · rfl
  all_goals exact absurd h (by decide)

theorem eq_of_marked_eq_plain {text word : String} (h : marked luceneSpecial text.toList = plain word) :
    text = word := by
  have htext := congrArg textOf h
  have hplain : textOf (plain word) = word := by
    rw [textOf, plain, List.map_map]
    exact (congrArg String.ofList (List.map_id word.toList)).trans String.ofList_toList
  rwa [textOf_marked, String.ofList_toList, hplain] at htext

theorem wordToken_marked_iff (text : String) :
    wordToken (marked luceneSpecial text.toList) = .atom (.word (marked luceneSpecial text.toList)) ↔
      text ∉ ["AND", "OR", "NOT"] := by
  have hsign : ∀ word ∈ ["&&", "||"], marked luceneSpecial text.toList ≠ plain word := by
    intro word hword h
    obtain rfl := eq_of_marked_eq_plain h
    have hne : ∀ sign ∈ ["&&", "||"], marked luceneSpecial sign.toList ≠ plain sign := by decide
    exact hne text hword h
  have hword : ∀ word ∈ ["AND", "OR", "NOT"], marked luceneSpecial text.toList = plain word ↔ text = word := by
    intro word hword
    have heq : ∀ word ∈ ["AND", "OR", "NOT"], marked luceneSpecial word.toList = plain word := by decide
    exact ⟨eq_of_marked_eq_plain, fun h => h ▸ heq word hword⟩
  simp only [wordToken, hsign "&&" (by decide), hsign "||" (by decide), hword "AND" (by decide), hword "OR" (by decide),
    hword "NOT" (by decide), or_false, List.mem_cons, List.not_mem_nil, not_or]
  split_ifs with hand hor hnot
  · simp [hand]
  · simp [hor]
  · simp [hnot]
  · simp [hand, hor, hnot]

/-- The names that are read as one word. -/
structure IsName (text : String) : Prop where
  nonempty : text ≠ ""
  operator : text ∉ ["AND", "OR", "NOT"]
  spaces : ∀ c ∈ text.toList, isSpace c = true → c = ' '

section Names

variable {text : String}

theorem IsName.startsWord (h : IsName text) (c : Char) (hc : c ∈ text.toList) (hmem : c ∉ luceneSpecial) :
    startsWord c = true := by
  refine startsWord_of_notMem hmem (Bool.eq_false_iff.mpr fun hspace => ?_)
  rw [h.spaces c hc hspace] at hmem
  exact hmem (by decide)

theorem IsName.toList_ne_nil (h : IsName text) : text.toList ≠ [] := mt String.toList_eq_nil_iff.mp h.nonempty

theorem IsName.spelled (h : IsName text) : Spelled (escapeIn luceneSpecial text.toList ++ [':'])
      [.atom (.word (marked luceneSpecial text.toList)), .colon] := by
  have hspelled := spelled_name h.toList_ne_nil h.startsWord
  rwa [(wordToken_marked_iff text).mpr h.operator] at hspelled

theorem IsName.lexFrom (h : IsName text) :
    lexFrom .base (escapeIn luceneSpecial text.toList) = some [.atom (.word (marked luceneSpecial text.toList))] := by
  have hbase := lexFrom_base h.toList_ne_nil h.startsWord []
  rw [List.append_nil] at hbase
  rw [hbase, ← (wordToken_marked_iff text).mpr h.operator]
  rfl

theorem isName_of_lexFrom {rest : List Char} {letters : List Letter} {tokens : List Token} (hrest : Ends rest)
    (h : Lucene.lexFrom .base (escapeIn luceneSpecial text.toList ++ rest) = some (.atom (.word letters) :: tokens))
    (htext : textOf letters = text) : IsName text := by
  have hname : textOf letters = String.ofList text.toList := htext.trans String.ofList_toList.symm
  obtain ⟨hne, hspaces, hword⟩ := name_of_word (fun c _ hc hs => startsWord_of_notMem hc hs) hrest h hname
  refine ⟨mt String.toList_eq_nil_iff.mpr hne, (wordToken_marked_iff text).mp hword, fun c hc hspace => ?_⟩
  by_contra hblank
  have hmem : c ∉ luceneSpecial := fun hmem => hblank (eq_blank_of_mem hmem hspace)
  exact absurd hspace (Bool.eq_false_iff.mp (hspaces c hc hmem))

theorem textOf_field : textOf (marked luceneSpecial text.toList) = text :=
  (textOf_marked luceneSpecial text.toList).trans String.ofList_toList

end Names

def valueString : ValueText → String
  | .many texts => "(" ++ " OR ".intercalate (texts.map quotedValue) ++ ")"
  | .one text => quotedValue text

theorem toList_quotedValue (text : String) :
    (quotedValue text).toList = '"' :: escapeIn ['\\', '"'] text.toList ++ ['"'] := by
  have hescape : (replaceChar '"' "\\\"" (replaceChar '\\' "\\\\" text)).toList = escapeIn ['\\', '"'] text.toList := by
    simp only [replaceChar, String.toList_ofList, List.flatMap_assoc, escapeIn]
    refine congrArg (List.flatMap · text.toList) (funext fun c => ?_)
    by_cases hslash : c = '\\'
    · subst hslash
      rfl
    · by_cases hquote : c = '"'
      · subst hquote
        rfl
      · simp [hslash, hquote]
  rw [quotedValue, String.toList_append, String.toList_append, hescape]
  rfl

theorem spelled_value (value : ValueText) : Spelled (valueString value).toList (valueTokens value) := by
  have hquoted : ∀ text, Spelled (quotedValue text).toList [.atom (.phrase text)] := by
    intro text
    have hphrase := spelled_phrase text.toList
    rwa [String.ofList_toList, ← toList_quotedValue] at hphrase
  cases value with
  | one text => exact hquoted text
  | many texts =>
    let piece := fun text => ((quotedValue text).toList, [Token.atom (.phrase text)])
    have hpiece : ∀ p ∈ texts.map piece, Spelled p.1 p.2 := by
      intro p hp
      obtain ⟨text, -, rfl⟩ := List.mem_map.mp hp
      dsimp only [piece]
      exact hquoted text
    have htext : (texts.map quotedValue).map String.toList = (texts.map piece).map Prod.fst := by
      simp only [List.map_map, Function.comp_def, piece]
    have htokens : (texts.map fun text => [Token.atom (.phrase text)]) = (texts.map piece).map Prod.snd := by
      simp only [List.map_map, Function.comp_def, piece]
    have hparen : ∀ inner : List Char, "(".toList ++ inner ++ ")".toList = '(' :: inner ++ [')'] := fun _ => rfl
    rw [valueString, String.toList_append, String.toList_append, String.toList_intercalate, hparen, htext, valueTokens,
      htokens]
    exact spelled_paren (spelled_or.intercalate hpiece).lexFrom_base

def beforeField {ν : Type} (filter : KibanaFilter ν) : List Char × List Token :=
  match filter.value with
  | none =>
    if filter.exclude then ("_exists_:".toList, [.atom (.word (plain "_exists_")), .colon])
    else ("NOT _exists_:".toList, [.sign .prohibited, .atom (.word (plain "_exists_")), .colon])
  | some _ => if filter.exclude then ("NOT ".toList, [.sign .prohibited]) else ([], [])

def afterField {ν : Type} (valueText : ν → ValueText) (filter : KibanaFilter ν) : List Char × List Token :=
  match filter.value with
  | none => ([], [])
  | some value => (':' :: (valueString (valueText value)).toList, .colon :: valueTokens (valueText value))

section Clauses

variable {ν : Type} (valueText : ν → ValueText) (filter : KibanaFilter ν)

theorem spelled_beforeField : Spelled (beforeField filter).1 (beforeField filter).2 := by
  have hspaces : "_exists_".toList.all (fun c => !isSpace c) = true := by decide
  have hname : IsName "_exists_" := by
    refine ⟨by decide, by decide, fun c hc hspace => ?_⟩
    have hc := List.all_eq_true.mp hspaces c hc
    rw [hspace] at hc
    exact nomatch hc
  have hexists : Spelled "_exists_:".toList [.atom (.word (plain "_exists_")), .colon] := by
    have hspelled := hname.spelled
    have hmarked : marked luceneSpecial "_exists_".toList = plain "_exists_" := by decide
    rw [hmarked] at hspelled
    exact hspelled
  unfold beforeField
  split <;> split
  · exact hexists
  · exact spelled_not.append hexists
  · exact spelled_not
  · exact spelled_nil

theorem toList_kibanaClause : (kibanaClause valueText filter).toList =
    (beforeField filter).1 ++ (escapeIn luceneSpecial filter.field.toList ++ (afterField valueText filter).1) := by
  have hcolon : ":".toList = [':'] := rfl
  have hnil : "".toList = [] := rfl
  obtain ⟨field, value, exclude, label⟩ := filter
  cases value with
  | none =>
    cases exclude <;>
      simp only [kibanaClause, beforeField, afterField, escapeIn, String.toList_append, String.toList_ofList,
        List.append_nil, if_true, if_false, Bool.false_eq_true]
  | some value =>
    cases exclude <;>
      simp only [kibanaClause, beforeField, afterField, escapeIn, String.toList_append, String.toList_ofList,
        hcolon, hnil, List.append_assoc, List.nil_append, List.singleton_append, if_true, if_false,
        Bool.false_eq_true] <;>
      cases valueText value <;> rfl

variable (letters : List Letter)

theorem clauseTokens_eq : clauseTokens valueText filter letters =
    (beforeField filter).2 ++ .atom (.word letters) :: (afterField valueText filter).2 := by
  unfold clauseTokens beforeField afterField
  cases filter.value <;> cases filter.exclude <;> rfl

theorem ends_afterField : Ends (afterField valueText filter).1 := by
  unfold afterField
  split
  · exact .inl rfl
  · exact .inr ⟨_, rfl⟩

theorem lex_kibanaClause_iff :
    lex (kibanaClause valueText filter) = some (clauseTokens valueText filter letters) ↔
      lexFrom .base (escapeIn luceneSpecial filter.field.toList ++ (afterField valueText filter).1) =
        some (.atom (.word letters) :: (afterField valueText filter).2) := by
  rw [lex, toList_kibanaClause, clauseTokens_eq]
  exact (spelled_beforeField filter).lexFrom_eq_some_iff

theorem lexFrom_field {filter : KibanaFilter ν} (h : IsName filter.field) :
    lexFrom .base (escapeIn luceneSpecial filter.field.toList ++ (afterField valueText filter).1) =
      some (.atom (.word (marked luceneSpecial filter.field.toList)) :: (afterField valueText filter).2) := by
  unfold afterField
  split
  · rw [List.append_nil]
    exact h.lexFrom
  · rename_i value hvalue
    have hspelled := h.spelled.append (spelled_value (valueText value))
    rw [List.append_assoc] at hspelled
    exact hspelled.lexFrom_base

/-- The clause of a filter is what it should be if and only if its field is read as one word. -/
theorem lexes_iff : Lexes valueText filter ↔
    (filter.value.isSome → filter.field ≠ "_exists_") ∧ IsName filter.field := by
  refine and_congr_right fun _ => ⟨?_, fun h => ?_⟩
  · rintro ⟨letters, htext, hlex⟩
    exact isName_of_lexFrom (ends_afterField valueText filter) ((lex_kibanaClause_iff ..).mp hlex) htext
  · exact ⟨_, textOf_field, (lex_kibanaClause_iff ..).mpr (lexFrom_field valueText h)⟩

def valueClause (field : String) : ValueText → Clause
  | .one text => .term (some field) (.phrase text)
  | .many texts => .group (chain .or (texts.map fun text => .term (some field) (.phrase text)))

def clauseOf : Clause :=
  match filter.value with
  | none => .term (some "_exists_") (.word letters)
  | some value => valueClause (textOf letters) (valueText value)

def clauseSign : Option Sign := if filter.value.isNone ^^ filter.exclude then some .prohibited else none

theorem parsed_value {value : ValueText} (h : ∀ texts, value = .many texts → texts ≠ []) (letters : List Letter) :
    Parsed none (.atom (.word letters) :: .colon :: valueTokens value) (valueClause (textOf letters) value) := by
  cases value with
  | one text => exact parsed_named letters (.phrase text)
  | many texts =>
    let piece := fun text => ([Token.atom (.phrase text)], Clause.term (some (textOf letters)) (.phrase text))
    have hpiece : ∀ p ∈ texts.map piece, Parsed (some (textOf letters)) p.1 p.2 := by
      intro p hp
      obtain ⟨text, -, rfl⟩ := List.mem_map.mp hp
      exact parsed_phrase text
    have hclosed : Closes (some (textOf letters)) (List.intercalate [.conj .or] ((texts.map piece).map Prod.fst))
        (chain .or ((texts.map piece).map Prod.snd)) :=
      closes_chain (mt List.map_eq_nil_iff.mp (h texts rfl)) hpiece
    simp only [List.map_map, Function.comp_def, piece] at hclosed
    exact hclosed.named

theorem closes_clause {filter : KibanaFilter ν} (h : Expressible valueText filter) (letters : List Letter) :
    Closes none (clauseTokens valueText filter letters)
      [(none, clauseSign filter, clauseOf valueText filter letters)] := by
  obtain ⟨field, value, exclude, label⟩ := filter
  cases value with
  | none =>
    have hexists : Parsed none [.atom (.word (plain "_exists_")), .colon, .atom (.word letters)]
        (.term (some "_exists_") (.word letters)) := parsed_named (plain "_exists_") (.word letters)
    cases exclude
    · exact hexists.closes_sign .prohibited
    · exact hexists.closes
  | some value =>
    have hvalue := parsed_value (h.values value rfl) letters
    cases exclude
    · exact hvalue.closes
    · exact hvalue.closes_sign .prohibited

theorem meaning_valueClause {δ : Type} (docs : Documents δ) (d : δ) {field : String} {value : ValueText}
    (hfield : field ≠ "_exists_") (h : ∀ texts, value = .many texts → texts ≠ []) :
    (valueClause field value).meaning docs d ↔ HoldsValue docs field d value := by
  have hterm : ∀ text, (Clause.term (some field) (.phrase text)).meaning docs d ↔ docs.holds field text d := by
    intro text
    rw [Clause.meaning, Documents.term, if_neg hfield]
  cases value with
  | one text => exact hterm text
  | many texts =>
    rw [valueClause, Clause.meaning, combine_chain_or docs d (mt List.map_eq_nil_iff.mp (h texts rfl))]
    simp only [List.mem_map, exists_exists_and_eq_and, hterm, HoldsValue]

theorem combine_clause {δ : Type} (docs : Documents δ) (d : δ) {filter : KibanaFilter ν}
    (h : Expressible valueText filter) :
    combine (meanings docs d [(none, clauseSign filter,
        clauseOf valueText filter (marked luceneSpecial filter.field.toList))]) ↔
      Satisfies docs valueText filter d := by
  rw [meanings_eq_map, List.map_singleton]
  obtain ⟨field, value, exclude, label⟩ := filter
  cases value with
  | none =>
    have hexists : (clauseOf valueText ⟨field, none, exclude, label⟩
        (marked luceneSpecial field.toList)).meaning docs d ↔ docs.has field d := by
      rw [clauseOf, Clause.meaning, Documents.term, if_pos rfl, Atom.text, textOf_field]
      exact fun text hphrase => nomatch hphrase
    cases exclude
    · exact (combine_not _).trans (not_congr hexists)
    · exact (combine_one _).trans (hexists.trans not_not.symm)
  | some value =>
    have hvalue := meaning_valueClause docs d (h.names rfl) (h.values value rfl)
    have hclause : (clauseOf valueText ⟨field, some value, exclude, label⟩
        (marked luceneSpecial field.toList)).meaning docs d ↔
          Matches docs valueText ⟨field, some value, exclude, label⟩ d := by
      simp only [clauseOf, textOf_field]
      exact hvalue
    cases exclude
    · exact (combine_one _).trans hclause
    · exact (combine_not _).trans (not_congr hclause)

end Clauses

def queryParts (query : String) : List String := if dartTrim query = "" then [] else [dartTrim query]

section Search

variable {ν : Type} {valueText : ν → ValueText} {query : String} {filters : List (KibanaFilter ν)}

theorem kibanaQueryWith_nil : kibanaQueryWith valueText query [] = dartTrim query := by
  unfold kibanaQueryWith
  by_cases hblank : dartTrim query = ""
  · rw [hblank]
    rfl
  · simp [hblank]

theorem kibanaQueryWith_of_ne_nil (hne : filters ≠ []) : kibanaQueryWith valueText query filters =
    " AND ".intercalate ((queryParts query ++ filters.map (kibanaClause valueText)).map fun part =>
      "(" ++ part ++ ")") := by
  have hempty : filters.isEmpty = false := by simpa using hne
  simp only [kibanaQueryWith, queryParts, hempty, if_false, Bool.false_eq_true]

theorem dartTrim_kibanaQueryWith (hne : filters ≠ []) : dartTrim (kibanaQueryWith valueText query filters) ≠ "" := by
  have hparts : queryParts query ++ filters.map (kibanaClause valueText) ≠ [] :=
    List.append_ne_nil_of_right_ne_nil _ (mt List.map_eq_nil_iff.mp hne)
  obtain ⟨part, rest, heq⟩ := List.exists_cons_of_ne_nil hparts
  have hparen : '(' ∈ (kibanaQueryWith valueText query filters).toList := by
    rw [kibanaQueryWith_of_ne_nil hne, heq, List.map_cons, String.append_assoc, String.intercalate_cons_append,
      String.toList_append]
    exact List.mem_append_left _ (by decide)
  have hmem := mem_trimBy_of_not (p := isDartWhitespace) hparen (by decide)
  intro hblank
  rw [dartTrim] at hblank
  rw [hblank] at hmem
  exact nomatch hmem

theorem restricts_nil_iff : Restricts valueText query [] ↔ TrimKeeps query := by
  have htrim : dartTrim (dartTrim query) = dartTrim query := trimBy_trimBy isDartWhitespace query
  constructor
  · rintro ⟨hparses, hselects, -⟩
    simp only [kibanaQueryWith_nil, htrim, List.not_mem_nil, false_implies, implies_true, and_true] at hparses hselects
    exact hparses.imp_right fun hread => ⟨hread, hselects⟩
  · intro h
    have hselects : ∀ (δ : Type) (docs : Documents δ) (d : δ),
        Selects docs (dartTrim query) d ↔ Selects docs query d := by
      rcases h with hblank | ⟨-, hselects⟩
      · exact fun δ docs d => ⟨fun _ => .inl hblank, fun _ => .inl (htrim.trans hblank)⟩
      · exact hselects
    constructor
    · rw [kibanaQueryWith_nil, htrim]
      exact h.imp_right And.left
    · intro δ docs d
      rw [kibanaQueryWith_nil, hselects]
      simp only [List.not_mem_nil, false_implies, implies_true, and_true]
    · exact fun filter hfilter => nomatch hfilter

/-- So it is with a query that reads, and only white space of Lucene around it. -/
theorem trimKeeps_of_spaces {before after : List Char}
    (hquery : query.toList = before ++ (dartTrim query).toList ++ after) (hbefore : ∀ c ∈ before, isSpace c = true)
    (hafter : ∀ c ∈ after, isSpace c = true) (hread : (read (dartTrim query)).isSome) : TrimKeeps query := by
  obtain ⟨items, hitems⟩ := Option.isSome_iff_exists.mp hread
  obtain ⟨tokens, htokens, -⟩ := Option.bind_eq_some_iff.mp hitems
  have hlex : lex query = lex (dartTrim query) := by
    rw [htokens, lex, hquery]
    exact lexFrom_between hbefore hafter htokens
  have htrim : dartTrim (dartTrim query) = dartTrim query := trimBy_trimBy isDartWhitespace query
  refine .inr ⟨hread, fun δ docs d => ?_⟩
  rw [Selects, Selects, htrim, Lucene.read, Lucene.read, hlex]

theorem TrimKeeps.exists_parts (h : TrimKeeps query) : ∃ parts : List (String × List Item),
    parts.map Prod.fst = queryParts query ∧ (∀ part ∈ parts, read part.1 = some part.2) ∧
      ∀ (δ : Type) (docs : Documents δ) (d : δ),
        (∀ part ∈ parts, combine (meanings docs d part.2)) ↔ Selects docs query d := by
  by_cases hblank : dartTrim query = ""
  · refine ⟨[], (if_pos hblank).symm, List.forall_mem_nil _, fun δ docs d => ?_⟩
    exact ⟨fun _ => .inl hblank, fun _ => List.forall_mem_nil _⟩
  · obtain ⟨hread, hselects⟩ := h.resolve_left hblank
    obtain ⟨items, hitems⟩ := Option.isSome_iff_exists.mp hread
    refine ⟨[(dartTrim query, items)], (if_neg hblank).symm, List.forall_mem_singleton.mpr hitems, fun δ docs d => ?_⟩
    have htrim : dartTrim (dartTrim query) ≠ "" := by
      rwa [dartTrim, dartTrim, trimBy_trimBy]
    rw [← hselects, List.forall_mem_singleton, Selects, hitems]
    constructor
    · exact fun hcombine => .inr ⟨items, rfl, hcombine⟩
    · rintro (hempty | ⟨others, hothers, hcombine⟩)
      · exact absurd hempty htrim
      · rwa [Option.some.inj hothers]

theorem read_kibanaClause {filter : KibanaFilter ν} (h : Expressible valueText filter) :
    read (kibanaClause valueText filter) = some [(none, clauseSign filter,
      clauseOf valueText filter (marked luceneSpecial filter.field.toList))] := by
  have hname : IsName filter.field := ⟨h.nonempty, h.operator, h.spaces⟩
  rw [Lucene.read, (lex_kibanaClause_iff ..).mpr (lexFrom_field valueText hname), Option.bind_some]
  exact parse_eq_some_iff.mpr (closes_clause valueText h _)

theorem restricts_of_expressible (hquery : TrimKeeps query) (h : ∀ filter ∈ filters, Expressible valueText filter) :
    Restricts valueText query filters := by
  by_cases hnil : filters = []
  · rw [hnil]
    exact restricts_nil_iff.mpr hquery
  obtain ⟨parts, hparts, hread, hselects⟩ := hquery.exists_parts
  let clause := fun filter : KibanaFilter ν => (kibanaClause valueText filter,
    [((none : Option Conj), clauseSign filter, clauseOf valueText filter (marked luceneSpecial filter.field.toList))])
  have hall : ∀ part ∈ parts ++ filters.map clause, read part.1 = some part.2 := by
    refine List.forall_mem_append.mpr ⟨hread, fun part hpart => ?_⟩
    obtain ⟨filter, hfilter, rfl⟩ := List.mem_map.mp hpart
    exact read_kibanaClause (h filter hfilter)
  have hne : parts ++ filters.map clause ≠ [] := List.append_ne_nil_of_right_ne_nil _ (mt List.map_eq_nil_iff.mp hnil)
  have htext : read (kibanaQueryWith valueText query filters) =
      some (chain .and ((parts ++ filters.map clause).map fun part => .group part.2)) := by
    rw [kibanaQueryWith_of_ne_nil hnil, ← hparts, ← read_and hne hall]
    simp only [List.map_append, List.map_map, Function.comp_def, clause]
  refine ⟨.inr (by rw [htext]; rfl), fun δ docs d => ?_, fun filter hfilter => ?_⟩
  · have hcombine : (∀ filter ∈ filters, combine (meanings docs d (clause filter).2)) ↔
        ∀ filter ∈ filters, Satisfies docs valueText filter d :=
      forall₂_congr fun filter hfilter => combine_clause valueText docs d (h filter hfilter)
    have hall : combine (meanings docs d (chain .and ((parts ++ filters.map clause).map fun part => .group part.2))) ↔
        Selects docs query d ∧ ∀ filter ∈ filters, Satisfies docs valueText filter d := by
      rw [combine_chain_and, List.forall_mem_map, List.forall_mem_append, List.forall_mem_map]
      simp only [Clause.meaning]
      rw [hselects, hcombine]
    rw [← hall, Selects, htext]
    constructor
    · rintro (hblank | ⟨items, hitems, hcombine⟩)
      · exact absurd hblank (dartTrim_kibanaQueryWith hnil)
      · rwa [Option.some.inj hitems]
    · exact fun hcombine => .inr ⟨_, rfl, hcombine⟩
  · have hexpressible := h filter hfilter
    exact (lexes_iff valueText filter).mpr
      ⟨hexpressible.names, hexpressible.nonempty, hexpressible.operator, hexpressible.spaces⟩

theorem expressible_of_restricts {filter : KibanaFilter ν} (hquery : TrimKeeps query)
    (h : Restricts valueText query [filter]) : Expressible valueText filter := by
  have hlexes := h.lexes filter (List.mem_singleton_self filter)
  obtain ⟨hnames, hname⟩ := (lexes_iff valueText filter).mp hlexes
  refine ⟨hname.nonempty, hname.operator, hname.spaces, hnames, fun value hvalue texts htexts hempty => ?_⟩
  -- A list without values leaves parentheses with nothing in them, which no query has.
  obtain ⟨letters, -, hlex⟩ := hlexes.2
  obtain ⟨before, hbefore⟩ : ∃ before, clauseTokens valueText filter letters = before ++ [.lparen, .rparen] := by
    refine ⟨(if filter.exclude then [.sign .prohibited] else []) ++ [.atom (.word letters), .colon], ?_⟩
    rw [clauseTokens, hvalue]
    simp only [htexts, hempty, valueTokens, List.map_nil, List.intercalate_nil, List.append_assoc, List.nil_append,
      List.cons_append]
  obtain ⟨parts, hparts, hread, -⟩ := hquery.exists_parts
  let tokens := fun part : String × List Item => (part.1, (lex part.1).getD [])
  have hall : ∀ part ∈ parts.map tokens ++ [(kibanaClause valueText filter, clauseTokens valueText filter letters)],
      lex part.1 = some part.2 := by
    refine List.forall_mem_append.mpr ⟨List.forall_mem_map.mpr fun part hpart => ?_, List.forall_mem_singleton.mpr hlex⟩
    obtain ⟨ts, hts, -⟩ := Option.bind_eq_some_iff.mp (hread part hpart)
    simp only [tokens, hts, Option.getD_some]
  have htext := lex_and hall
  obtain ⟨first, hfirst⟩ := exists_intercalate_concat [Token.conj .and]
    ((parts.map tokens).map fun part => .lparen :: part.2 ++ [.rparen])
    (.lparen :: clauseTokens valueText filter letters ++ [.rparen])
  rw [List.map_append, List.map_append, List.map_singleton, List.map_singleton, hfirst, hbefore] at htext
  have hnone : read (kibanaQueryWith valueText query [filter]) = none := by
    have hquery : kibanaQueryWith valueText query [filter] = " AND ".intercalate
        (((parts.map tokens).map fun part => "(" ++ part.1 ++ ")") ++
          ["(" ++ kibanaClause valueText filter ++ ")"]) := by
      rw [kibanaQueryWith_of_ne_nil (List.cons_ne_nil filter []), ← hparts]
      simp only [List.map_append, List.map_map, Function.comp_def, tokens, List.map_cons, List.map_nil]
    rw [Lucene.read, hquery, htext, Option.bind_some]
    have hempty := parse_of_empty_group (first ++ .lparen :: before) [.rparen]
    simp only [List.append_assoc, List.cons_append, List.nil_append] at hempty ⊢
    exact hempty
  rcases h.parses with hblank | hsome
  · exact dartTrim_kibanaQueryWith (List.cons_ne_nil filter []) hblank
  · rw [hnone] at hsome
    exact absurd hsome Bool.false_ne_true

theorem restricts_iff (valueText : ν → ValueText) (query : String) (filters : List (KibanaFilter ν)) :
    (∀ pills, pills ⊆ filters → Restricts valueText query pills) ↔
      TrimKeeps query ∧ ∀ filter ∈ filters, Expressible valueText filter := by
  constructor
  · intro h
    have hquery := restricts_nil_iff.mp (h [] (List.nil_subset filters))
    refine ⟨hquery, fun filter hfilter => expressible_of_restricts hquery (h [filter] ?_)⟩
    exact List.cons_subset.mpr ⟨hfilter, List.nil_subset filters⟩
  · rintro ⟨hquery, hfilters⟩ pills hpills
    exact restricts_of_expressible hquery fun filter hfilter => hfilters filter (hpills hfilter)

/-- The field of a filter may be a word that Lucene takes as an operator: the query has no meaning then. -/
theorem operator_field_unread : (read "level:error").isSome ∧
    ¬Restricts id "level:error" [⟨"OR", some (.one "x"), false, none⟩] := by
  refine ⟨by decide, fun h => ?_⟩
  exact absurd h.parses (by decide)

end Search

end Portix.Kibana
