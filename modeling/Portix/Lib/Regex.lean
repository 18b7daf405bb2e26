import Portix.Lib.Text

/-!
# Regular expressions

Expressions in which only classes of characters are repeated, as a backtracking matcher takes them: what they match at
the start of a text in the order in which it is tried, with the parts that groups capture; and which texts they match,
whatever the order.
-/

namespace Portix.Lib

/-- A regular expression. What is repeated is a class of characters, and taken as often as possible first. -/
inductive Regex where
  | empty
  | many (accepts : Char → Bool) (least : Nat) (most : Option Nat)
  | seq (first second : Regex)
  | alt (first second : Regex)
  | opt (body : Regex)
  | group (n : Nat) (body : Regex)

namespace Regex

abbrev Captures := List (Nat × List Char)

def one (accepts : Char → Bool) : Regex := many accepts 1 (some 1)

def lit (c : Char) : Regex := one (· == c)

def plus (accepts : Char → Bool) : Regex := many accepts 1 none

def star (accepts : Char → Bool) : Regex := many accepts 0 none

def seqs (parts : List Regex) : Regex := parts.foldr seq empty

def counts (accepts : Char → Bool) (least : Nat) (most : Option Nat) (text : List Char) : List Nat :=
  let run := (text.takeWhile accepts).length
  ((List.range (most.elim run (min run) + 1)).filter (least ≤ ·)).reverse

/-- The rests of a text after what the expression matches at its start, in the order in which they are tried. -/
def outcomes : Regex → List Char → List (List Char × Captures)
  | empty, text => [(text, [])]
  | many accepts least most, text => (counts accepts least most text).map fun k => (text.drop k, [])
  | seq first second, text => (outcomes first text).flatMap fun (rest, captures) =>
    (outcomes second rest).map fun (rest', captures') => (rest', captures ++ captures')
  | alt first second, text => outcomes first text ++ outcomes second text
  | opt body, text => outcomes body text ++ [(text, [])]
  | group n body, text => (outcomes body text).map fun (rest, captures) =>
    (rest, captures ++ [(n, text.take (text.length - rest.length))])

def fullMatch (r : Regex) (text : List Char) : Option Captures :=
  ((outcomes r text).find? fun outcome => outcome.1.isEmpty).map Prod.snd

/-- The expression matches a text and captures these parts of it, in one way or another. -/
def Matches : Regex → List Char → Captures → Prop
  | empty, text, captures => text = [] ∧ captures = []
  | many accepts least most, text, captures =>
    (∀ c ∈ text, accepts c = true) ∧ least ≤ text.length ∧ (∀ m ∈ most, text.length ≤ m) ∧ captures = []
  | seq first second, text, captures => ∃ part part' taken taken',
    text = part ++ part' ∧ captures = taken ++ taken' ∧ Matches first part taken ∧ Matches second part' taken'
  | alt first second, text, captures => Matches first text captures ∨ Matches second text captures
  | opt body, text, captures => Matches body text captures ∨ text = [] ∧ captures = []
  | group n body, text, captures => ∃ taken, Matches body text taken ∧ captures = taken ++ [(n, text)]

theorem mem_counts {accepts : Char → Bool} {least k : Nat} {most : Option Nat} {text : List Char} :
    k ∈ counts accepts least most text ↔ k ≤ (text.takeWhile accepts).length ∧ (∀ m ∈ most, k ≤ m) ∧ least ≤ k := by
  rw [counts, List.mem_reverse, List.mem_filter, List.mem_range, decide_eq_true_iff]
  cases most with
  | none =>
    simp only [Option.elim_none, Option.mem_def, reduceCtorEq, false_implies, implies_true, true_and]
    omega
  | some m =>
    simp only [Option.elim_some, Option.mem_def, Option.some.injEq, forall_eq']
    omega

theorem le_length_takeWhile_iff {accepts : Char → Bool} {text : List Char} {k : Nat} (hk : k ≤ text.length) :
    k ≤ (text.takeWhile accepts).length ↔ ∀ c ∈ text.take k, accepts c = true := by
  constructor
  · intro h c hc
    have hpre : text.take k <+: text.takeWhile accepts :=
      List.prefix_of_prefix_length_le (List.take_prefix k text) (List.takeWhile_prefix _)
        (by rw [List.length_take]; omega)
    exact List.mem_takeWhile_imp (hpre.subset hc)
  · intro h
    have hsplit : text.takeWhile accepts = text.take k ++ (text.drop k).takeWhile accepts := by
      rw [← List.takeWhile_append_of_pos h, List.take_append_drop]
    rw [hsplit, List.length_append, List.length_take]
    omega

theorem mem_outcomes {r : Regex} {text rest : List Char} {captures : Captures} :
    (rest, captures) ∈ outcomes r text ↔ ∃ part, text = part ++ rest ∧ Matches r part captures := by
  induction r generalizing text rest captures with
  | empty =>
    simp only [outcomes, List.mem_singleton, Prod.mk.injEq, Matches]
    constructor
    · rintro ⟨rfl, rfl⟩
      exact ⟨[], rfl, rfl, rfl⟩
    · rintro ⟨part, rfl, rfl, rfl⟩
      exact ⟨rfl, rfl⟩
  | many accepts least most =>
    simp only [outcomes, List.mem_map, mem_counts, Prod.mk.injEq, Matches]
    constructor
    · rintro ⟨k, ⟨hrun, hmost, hleast⟩, rfl, rfl⟩
      have hk : k ≤ text.length := hrun.trans (List.takeWhile_prefix _).length_le
      have hlen : (text.take k).length = k := by rw [List.length_take, Nat.min_eq_left hk]
      refine ⟨text.take k, (List.take_append_drop k text).symm, (le_length_takeWhile_iff hk).mp hrun, ?_⟩
      rw [hlen]
      exact ⟨hleast, hmost, rfl⟩
    · rintro ⟨part, rfl, hall, hleast, hmost, rfl⟩
      have hk : part.length ≤ (part ++ rest).length := by rw [List.length_append]; omega
      refine ⟨part.length, ⟨(le_length_takeWhile_iff hk).mpr ?_, hmost, hleast⟩, List.drop_left, rfl⟩
      rw [List.take_left]
      exact hall
  | seq first second ihFirst ihSecond =>
    simp only [outcomes, List.mem_flatMap, List.mem_map, Prod.exists, Prod.mk.injEq, ihFirst, ihSecond, Matches]
    constructor
    · rintro ⟨middle, taken, ⟨part, rfl, hfirst⟩, _, taken', ⟨part', rfl, hsecond⟩, rfl, rfl⟩
      exact ⟨part ++ part', (List.append_assoc _ _ _).symm, part, part', taken, taken', rfl, rfl, hfirst, hsecond⟩
    · rintro ⟨_, rfl, part, part', taken, taken', rfl, rfl, hfirst, hsecond⟩
      exact ⟨part' ++ rest, taken, ⟨part, List.append_assoc _ _ _, hfirst⟩, rest, taken', ⟨part', rfl, hsecond⟩,
        rfl, rfl⟩
  | alt first second ihFirst ihSecond =>
    simp only [outcomes, List.mem_append, ihFirst, ihSecond, Matches]
    constructor
    · rintro (⟨part, htext, hmatch⟩ | ⟨part, htext, hmatch⟩)
      · exact ⟨part, htext, .inl hmatch⟩
      · exact ⟨part, htext, .inr hmatch⟩
    · rintro ⟨part, htext, hmatch | hmatch⟩
      · exact .inl ⟨part, htext, hmatch⟩
      · exact .inr ⟨part, htext, hmatch⟩
  | opt body ih =>
    simp only [outcomes, List.mem_append, List.mem_singleton, ih, Prod.mk.injEq, Matches]
    constructor
    · rintro (⟨part, htext, hmatch⟩ | ⟨rfl, rfl⟩)
      · exact ⟨part, htext, .inl hmatch⟩
      · exact ⟨[], rfl, .inr ⟨rfl, rfl⟩⟩
    · rintro ⟨part, rfl, hmatch | ⟨rfl, rfl⟩⟩
      · exact .inl ⟨part, rfl, hmatch⟩
      · exact .inr ⟨rfl, rfl⟩
  | group n body ih =>
    simp only [outcomes, List.mem_map, Prod.exists, Prod.mk.injEq, ih, Matches]
    have htake : ∀ part : List Char, (part ++ rest).take ((part ++ rest).length - rest.length) = part := by
      intro part
      rw [List.length_append, Nat.add_sub_cancel, List.take_left]
    constructor
    · rintro ⟨_, taken, ⟨part, rfl, hmatch⟩, rfl, rfl⟩
      exact ⟨part, rfl, taken, hmatch, by rw [htake]⟩
    · rintro ⟨part, rfl, taken, hmatch, rfl⟩
      exact ⟨rest, taken, ⟨part, rfl, hmatch⟩, rfl, by rw [htake]⟩

theorem fullMatch_sound {r : Regex} {text : List Char} {captures : Captures} (h : fullMatch r text = some captures) :
    Matches r text captures := by
  obtain ⟨⟨rest, taken⟩, hfound, rfl⟩ := Option.map_eq_some_iff.mp h
  have hempty := List.find?_some hfound
  have hrest : rest = [] := List.isEmpty_iff.mp hempty
  obtain ⟨part, htext, hmatch⟩ := mem_outcomes.mp (List.mem_of_find?_eq_some hfound)
  rw [hrest, List.append_nil] at htext
  rw [htext]
  exact hmatch

theorem fullMatch_isSome {r : Regex} {text : List Char} {captures : Captures} (h : Matches r text captures) :
    ∃ captures', fullMatch r text = some captures' := by
  rw [← Option.isSome_iff_exists, fullMatch, Option.isSome_map, List.find?_isSome]
  exact ⟨([], captures), mem_outcomes.mpr ⟨text, (List.append_nil _).symm, h⟩, rfl⟩

theorem fullMatch_of_unique {r : Regex} {text : List Char} {captures : Captures} (h : Matches r text captures)
    (hunique : ∀ captures', Matches r text captures' → captures' = captures) :
    fullMatch r text = some captures := by
  obtain ⟨captures', hfound⟩ := fullMatch_isSome h
  rw [hfound, hunique captures' (fullMatch_sound hfound)]

section

variable {r : Regex} {rs : List Regex} {text : List Char} {captures : Captures} {accepts : Char → Bool} {c : Char}

theorem matches_nil : Matches (seqs []) text captures ↔ text = [] ∧ captures = [] := Iff.rfl

theorem matches_cons : Matches (seqs (r :: rs)) text captures ↔ ∃ part part' taken taken',
    text = part ++ part' ∧ captures = taken ++ taken' ∧ Matches r part taken ∧ Matches (seqs rs) part' taken' :=
  Iff.rfl

theorem matches_many {least : Nat} {most : Option Nat} :
    Matches (many accepts least most) text captures ↔ (∀ c ∈ text, accepts c = true) ∧ least ≤ text.length ∧
      (∀ m ∈ most, text.length ≤ m) ∧ captures = [] := Iff.rfl

theorem matches_one : Matches (one accepts) text captures ↔ ∃ c, text = [c] ∧ accepts c = true ∧ captures = [] := by
  rw [one, matches_many]
  constructor
  · rintro ⟨hall, hleast, hmost, rfl⟩
    obtain ⟨c, rfl⟩ := List.length_eq_one_iff.mp (Nat.le_antisymm (hmost 1 rfl) hleast)
    exact ⟨c, rfl, hall c (List.mem_singleton_self c), rfl⟩
  · rintro ⟨c, rfl, hc, rfl⟩
    refine ⟨fun c' hc' => ?_, Nat.le_refl _, fun m hm => ?_, rfl⟩
    · rw [List.mem_singleton.mp hc']
      exact hc
    · rw [← Option.mem_some_iff.mp hm]
      exact Nat.le_refl _

theorem matches_lit : Matches (lit c) text captures ↔ text = [c] ∧ captures = [] := by
  rw [lit, matches_one]
  constructor
  · rintro ⟨c', rfl, hc', rfl⟩
    rw [beq_iff_eq.mp hc']
    exact ⟨rfl, rfl⟩
  · rintro ⟨rfl, rfl⟩
    exact ⟨c, rfl, beq_self_eq_true c, rfl⟩

theorem matches_lit_cons : Matches (seqs (lit c :: rs)) text captures ↔
    ∃ rest, text = c :: rest ∧ Matches (seqs rs) rest captures := by
  rw [matches_cons]
  constructor
  · rintro ⟨part, rest, taken, taken', rfl, rfl, hlit, hrest⟩
    obtain ⟨rfl, rfl⟩ := matches_lit.mp hlit
    exact ⟨rest, rfl, hrest⟩
  · rintro ⟨rest, rfl, hrest⟩
    exact ⟨[c], rest, [], captures, rfl, rfl, matches_lit.mpr ⟨rfl, rfl⟩, hrest⟩

theorem matches_plus : Matches (plus accepts) text captures ↔
    (∀ c ∈ text, accepts c = true) ∧ text ≠ [] ∧ captures = [] := by
  rw [plus, matches_many, Nat.succ_le_iff, List.length_pos_iff]
  simp

theorem matches_star : Matches (star accepts) text captures ↔ (∀ c ∈ text, accepts c = true) ∧ captures = [] := by
  rw [star, matches_many]
  simp

theorem matches_plus_cons : Matches (seqs (plus accepts :: rs)) text captures ↔ ∃ part rest,
    text = part ++ rest ∧ part ≠ [] ∧ (∀ c ∈ part, accepts c = true) ∧ Matches (seqs rs) rest captures := by
  rw [matches_cons]
  constructor
  · rintro ⟨part, rest, taken, taken', rfl, rfl, hplus, hrest⟩
    obtain ⟨hall, hne, rfl⟩ := matches_plus.mp hplus
    exact ⟨part, rest, rfl, hne, hall, hrest⟩
  · rintro ⟨part, rest, rfl, hne, hall, hrest⟩
    exact ⟨part, rest, [], captures, rfl, rfl, matches_plus.mpr ⟨hall, hne, rfl⟩, hrest⟩

theorem matches_star_cons : Matches (seqs (star accepts :: rs)) text captures ↔ ∃ part rest,
    text = part ++ rest ∧ (∀ c ∈ part, accepts c = true) ∧ Matches (seqs rs) rest captures := by
  rw [matches_cons]
  constructor
  · rintro ⟨part, rest, taken, taken', rfl, rfl, hstar, hrest⟩
    obtain ⟨hall, rfl⟩ := matches_star.mp hstar
    exact ⟨part, rest, rfl, hall, hrest⟩
  · rintro ⟨part, rest, rfl, hall, hrest⟩
    exact ⟨part, rest, [], captures, rfl, rfl, matches_star.mpr ⟨hall, rfl⟩, hrest⟩

theorem matches_singleton : Matches (seqs [r]) text captures ↔ Matches r text captures := by
  rw [matches_cons]
  constructor
  · rintro ⟨part, rest, taken, taken', rfl, rfl, hr, hrest⟩
    obtain ⟨rfl, rfl⟩ := matches_nil.mp hrest
    rw [List.append_nil, List.append_nil]
    exact hr
  · intro hr
    exact ⟨text, [], captures, [], (List.append_nil _).symm, (List.append_nil _).symm, hr, rfl, rfl⟩

theorem matches_opt : Matches (opt r) text captures ↔ Matches r text captures ∨ text = [] ∧ captures = [] := Iff.rfl

theorem matches_alt {r' : Regex} :
    Matches (alt r r') text captures ↔ Matches r text captures ∨ Matches r' text captures := Iff.rfl

theorem matches_group {n : Nat} :
    Matches (group n r) text captures ↔ ∃ taken, Matches r text taken ∧ captures = taken ++ [(n, text)] := Iff.rfl

end

end Regex

end Portix.Lib
