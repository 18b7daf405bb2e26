import Portix.Connection.SessionLog
import Portix.Lib.Proofs.RemovalProofs

/-!
# Soundness theorems for session logs

What is recorded of an output that comes in pieces, against what is left of the whole.
-/

namespace Portix.Connection

open Lib Regex

section Takes

variable {text rest : List Char}

theorem takes_osc : Takes osc text rest ↔ ∃ u, (∀ c ∈ u, isOscChar c = true) ∧
    (text = esc :: ']' :: (u ++ bel :: rest) ∨ text = esc :: ']' :: (u ++ esc :: '\\' :: rest)) := by
  simp only [osc, takes_cons, takes_lit, takes_star, takes_nil, takes_alt]
  constructor
  · rintro ⟨_, rfl, _, rfl, _, ⟨u, hu, rfl⟩, rest, rfl | ⟨_, rfl, _, rfl, rfl⟩, rfl⟩
    · exact ⟨u, hu, .inl rfl⟩
    · exact ⟨u, hu, .inr rfl⟩
  · rintro ⟨u, hu, rfl | rfl⟩
    · exact ⟨_, rfl, _, rfl, _, ⟨u, hu, rfl⟩, rest, .inl rfl, rfl⟩
    · exact ⟨_, rfl, _, rfl, _, ⟨u, hu, rfl⟩, rest, .inr ⟨_, rfl, _, rfl, rfl⟩, rfl⟩

theorem takes_csi : Takes csi text rest ↔ ∃ a b f, (∀ c ∈ a, isParameter c = true) ∧
    (∀ c ∈ b, isIntermediate c = true) ∧ isFinal f = true ∧ text = esc :: '[' :: (a ++ (b ++ f :: rest)) := by
  simp only [csi, takes_cons, takes_lit, takes_star, takes_one, takes_nil]
  constructor
  · rintro ⟨_, rfl, _, rfl, _, ⟨a, ha, rfl⟩, _, ⟨b, hb, rfl⟩, _, ⟨f, hf, rfl⟩, rfl⟩
    exact ⟨a, b, f, ha, hb, hf, rfl⟩
  · rintro ⟨a, b, f, ha, hb, hf, rfl⟩
    exact ⟨_, rfl, _, rfl, _, ⟨a, ha, rfl⟩, _, ⟨b, hb, rfl⟩, _, ⟨f, hf, rfl⟩, rfl⟩

theorem takes_charset : Takes charset text rest ↔ ∃ d e, (d = '(' ∨ d = ')') ∧ e.isAlphanum = true ∧
    text = esc :: d :: e :: rest := by
  simp only [charset, takes_cons, takes_lit, takes_one, takes_nil, Bool.or_eq_true, beq_iff_eq]
  constructor
  · rintro ⟨_, rfl, _, ⟨d, hd, rfl⟩, _, ⟨e, he, rfl⟩, rfl⟩
    exact ⟨d, e, hd, he, rfl⟩
  · rintro ⟨d, e, hd, he, rfl⟩
    exact ⟨_, rfl, _, ⟨d, hd, rfl⟩, _, ⟨e, he, rfl⟩, rfl⟩

theorem takes_twoByte : Takes twoByte text rest ↔ ∃ d, isTwoByte d = true ∧ text = esc :: d :: rest := by
  simp only [twoByte, takes_cons, takes_lit, takes_one, takes_nil]
  constructor
  · rintro ⟨_, rfl, _, ⟨d, hd, rfl⟩, rfl⟩
    exact ⟨d, hd, rfl⟩
  · rintro ⟨d, hd, rfl⟩
    exact ⟨_, rfl, _, ⟨d, hd, rfl⟩, rfl⟩

end Takes

theorem isOscChar_bel : isOscChar bel = false := by decide

theorem isOscChar_esc : isOscChar esc = false := by decide

theorem decides_osc : Decides osc := by
  intro text rest rest' h h'
  obtain ⟨u, hu, htext⟩ := takes_osc.mp h
  obtain ⟨u', hu', htext'⟩ := takes_osc.mp h'
  -- what follows the characters of the command is the same
  have hends : ∀ {t t' : List Char}, (∀ c ∈ t.head?, isOscChar c = false) → (∀ c ∈ t'.head?, isOscChar c = false) →
      u ++ t = u' ++ t' → t = t' := by
    intro t t' ht ht' heq
    rw [← (span_append hu ht).2, heq, (span_append hu' ht').2]
  have hbel : ∀ t : List Char, ∀ c ∈ (bel :: t).head?, isOscChar c = false := fun t c hc => by
    rw [← Option.mem_some_iff.mp hc, isOscChar_bel]
  have hesc : ∀ t : List Char, ∀ c ∈ (esc :: t).head?, isOscChar c = false := fun t c hc => by
    rw [← Option.mem_some_iff.mp hc, isOscChar_esc]
  rcases htext with rfl | rfl <;> rcases htext' with htext' | htext'
  · exact (List.cons.inj (hends (hbel _) (hbel _) (List.cons.inj (List.cons.inj htext').2).2)).2
  · have hne := hends (hbel _) (hesc _) (List.cons.inj (List.cons.inj htext').2).2
    exact absurd (List.cons.inj hne).1 (by decide)
  · have hne := hends (hesc _) (hbel _) (List.cons.inj (List.cons.inj htext').2).2
    exact absurd (List.cons.inj hne).1 (by decide)
  · have heq := hends (hesc _) (hesc _) (List.cons.inj (List.cons.inj htext').2).2
    exact (List.cons.inj (List.cons.inj heq).2).2

variable {c d : Char}

theorem not_isParameter_of_isIntermediate (h : isIntermediate c = true) : isParameter c = false := by
  rw [isIntermediate, decide_eq_true_eq] at h
  rw [isParameter, decide_eq_false_iff_not]
  rintro ⟨hlow, _⟩
  exact absurd (Char.le_trans hlow h.2) (by decide)

theorem not_of_isFinal (h : isFinal c = true) : isParameter c = false ∧ isIntermediate c = false := by
  rw [isFinal, decide_eq_true_eq] at h
  rw [isParameter, isIntermediate, decide_eq_false_iff_not, decide_eq_false_iff_not]
  constructor
  · rintro ⟨_, hhigh⟩
    exact absurd (Char.le_trans h.1 hhigh) (by decide)
  · rintro ⟨_, hhigh⟩
    exact absurd (Char.le_trans h.1 hhigh) (by decide)

theorem decides_csi : Decides csi := by
  intro text rest rest' h h'
  obtain ⟨a, b, f, ha, hb, hf, rfl⟩ := takes_csi.mp h
  obtain ⟨a', b', f', ha', hb', hf', htext⟩ := takes_csi.mp h'
  have hstart : ∀ {b t : List Char} {f : Char}, (∀ c ∈ b, isIntermediate c = true) → isFinal f = true →
      ∀ c ∈ (b ++ f :: t).head?, isParameter c = false := by
    intro b t f hb hf c hc
    cases b with
    | nil => rw [← Option.mem_some_iff.mp hc, (not_of_isFinal hf).1]
    | cons d b =>
      rw [← Option.mem_some_iff.mp hc]
      exact not_isParameter_of_isIntermediate (hb d List.mem_cons_self)
  have hfinal : ∀ {t : List Char} {f : Char}, isFinal f = true → ∀ c ∈ (f :: t).head?, isIntermediate c = false := by
    intro t f hf c hc
    rw [← Option.mem_some_iff.mp hc, (not_of_isFinal hf).2]
  have hmiddle : b ++ f :: rest = b' ++ f' :: rest' := by
    rw [← (span_append ha (hstart hb hf)).2, (List.cons.inj (List.cons.inj htext).2).2,
      (span_append ha' (hstart hb' hf')).2]
  have hend : f :: rest = f' :: rest' := by
    rw [← (span_append hb (hfinal hf)).2, hmiddle, (span_append hb' (hfinal hf')).2]
  exact (List.cons.inj hend).2

theorem decides_charset : Decides charset := by
  intro text rest rest' h h'
  obtain ⟨d, e, _, _, rfl⟩ := takes_charset.mp h
  obtain ⟨d', e', _, _, htext⟩ := takes_charset.mp h'
  exact (List.cons.inj (List.cons.inj (List.cons.inj htext).2).2).2

theorem decides_twoByte : Decides twoByte := by
  intro text rest rest' h h'
  obtain ⟨d, _, rfl⟩ := takes_twoByte.mp h
  obtain ⟨d', _, htext⟩ := takes_twoByte.mp h'
  exact (List.cons.inj (List.cons.inj htext).2).2

theorem local_terminalEscape : Local terminalEscape :=
  local_alt (local_of_decides decides_osc) (local_alt (local_of_decides decides_csi)
    (local_alt (local_of_decides decides_charset) (local_of_decides decides_twoByte)))

theorem takes_terminalEscape {text rest : List Char} : Takes terminalEscape text rest ↔
    Takes osc text rest ∨ Takes csi text rest ∨ Takes charset text rest ∨ Takes twoByte text rest := by
  rw [terminalEscape, takes_alt, takes_alt, takes_alt]

theorem found_of_ne {cs : List Char} (hc : c ≠ esc) : found terminalEscape (c :: cs) = none := by
  cases h : found terminalEscape (c :: cs) with
  | none => rfl
  | some rest =>
    rcases takes_terminalEscape.mp (takes_of_found h) with h | h | h | h
    · obtain ⟨u, _, heq | heq⟩ := takes_osc.mp h
      · exact absurd (List.cons.inj heq).1 hc
      · exact absurd (List.cons.inj heq).1 hc
    · obtain ⟨_, _, _, _, _, _, heq⟩ := takes_csi.mp h
      exact absurd (List.cons.inj heq).1 hc
    · obtain ⟨_, _, _, _, heq⟩ := takes_charset.mp h
      exact absurd (List.cons.inj heq).1 hc
    · obtain ⟨_, _, heq⟩ := takes_twoByte.mp h
      exact absurd (List.cons.inj heq).1 hc

theorem found_two {rest : List Char} (hd : isTwoByte d = true)
    (hosc : ∀ r, ¬Takes osc (esc :: d :: rest) r) (hcsi : ∀ r, ¬Takes csi (esc :: d :: rest) r)
    (hcharset : ∀ r, ¬Takes charset (esc :: d :: rest) r) :
    found terminalEscape (esc :: d :: rest) = some rest := by
  refine Option.filter_eq_some_iff.mpr ⟨?_, decide_eq_true (Nat.lt_succ_of_lt (Nat.lt_succ_self _))⟩
  rw [terminalEscape, firstMatch_alt, firstMatch_alt, firstMatch_alt, firstMatch_eq_none_iff.mpr hosc,
    firstMatch_eq_none_iff.mpr hcsi, firstMatch_eq_none_iff.mpr hcharset, Option.none_or, Option.none_or,
    Option.none_or]
  exact (firstMatch_eq_some_iff decides_twoByte).mpr (takes_twoByte.mpr ⟨d, hd, rfl⟩)

theorem not_takes_csi (hd : d ≠ '[') (rest r : List Char) : ¬Takes csi (esc :: d :: rest) r := by
  intro h
  obtain ⟨_, _, _, _, _, _, heq⟩ := takes_csi.mp h
  exact hd (List.cons.inj (List.cons.inj heq).2).1

theorem not_takes_charset (hopen : d ≠ '(') (hclose : d ≠ ')') (rest r : List Char) :
    ¬Takes charset (esc :: d :: rest) r := by
  intro h
  obtain ⟨_, _, hparen, _, heq⟩ := takes_charset.mp h
  rw [← (List.cons.inj (List.cons.inj heq).2).1] at hparen
  exact hparen.elim hopen hclose

theorem found_terminator (rest : List Char) : found terminalEscape (esc :: '\\' :: rest) = some rest := by
  refine found_two (by decide) (fun r h => ?_) (not_takes_csi (by decide) rest)
    (not_takes_charset (by decide) (by decide) rest)
  obtain ⟨_, _, heq | heq⟩ := takes_osc.mp h
  · exact absurd (List.cons.inj (List.cons.inj heq).2).1 (by decide)
  · exact absurd (List.cons.inj (List.cons.inj heq).2).1 (by decide)

variable {u : List Char}

theorem found_unterminated (hu : ∀ c ∈ u, isOscChar c = true) : found terminalEscape (esc :: ']' :: u) = some u := by
  refine found_two (by decide) (fun r h => ?_) (not_takes_csi (by decide) u)
    (not_takes_charset (by decide) (by decide) u)
  obtain ⟨v, _, heq | heq⟩ := takes_osc.mp h
  · have hmem : bel ∈ u := by
      rw [(List.cons.inj (List.cons.inj heq).2).2]
      simp
    have hbel := hu bel hmem
    rw [isOscChar_bel] at hbel
    cases hbel
  · have hmem : esc ∈ u := by
      rw [(List.cons.inj (List.cons.inj heq).2).2]
      simp
    have hesc := hu esc hmem
    rw [isOscChar_esc] at hesc
    cases hesc

/-- The rest of a sequence after its first byte: no other starts in it and its last character is kept, or it is a
command that ends with a sequence. -/
theorem body_of_found {text rest : List Char} (h : found terminalEscape text = some rest) :
    ∃ body, text = esc :: (body ++ rest) ∧
      ((esc ∉ body ∧ ∃ last, body.getLast? = some last ∧ last ≠ '\r') ∨
        ∃ u, (∀ c ∈ u, isOscChar c = true) ∧ body = ']' :: (u ++ [esc, '\\'])) := by
  have hnot : ∀ {p : Char → Bool} {l : List Char}, p esc = false → (∀ c ∈ l, p c = true) → esc ∉ l := by
    intro p l hp hl hmem
    rw [hl esc hmem] at hp
    cases hp
  rcases takes_terminalEscape.mp (takes_of_found h) with h | h | h | h
  · obtain ⟨u, hu, rfl | rfl⟩ := takes_osc.mp h
    · refine ⟨']' :: (u ++ [bel]), by simp, .inl ⟨?_, bel, ?_, by decide⟩⟩
      · have hesc := hnot isOscChar_esc hu
        rw [List.mem_cons, List.mem_append, List.mem_singleton, not_or, not_or]
        exact ⟨by decide, hesc, by decide⟩
      · rw [← List.cons_append, List.getLast?_concat]
    · exact ⟨']' :: (u ++ [esc, '\\']), by simp, .inr ⟨u, hu, rfl⟩⟩
  · obtain ⟨a, b, f, ha, hb, hf, rfl⟩ := takes_csi.mp h
    refine ⟨'[' :: (a ++ (b ++ [f])), by simp, .inl ⟨?_, f, ?_, ?_⟩⟩
    · have hne : esc ≠ f := by
        rintro rfl
        exact absurd hf (by decide)
      rw [List.mem_cons, List.mem_append, List.mem_append, List.mem_singleton, not_or, not_or, not_or]
      exact ⟨by decide, hnot (by decide) ha, hnot (by decide) hb, hne⟩
    · rw [← List.append_assoc, ← List.cons_append, List.getLast?_concat]
    · rintro rfl
      exact absurd hf (by decide)
  · obtain ⟨d, e, hd, he, rfl⟩ := takes_charset.mp h
    refine ⟨[d, e], rfl, .inl ⟨?_, e, rfl, ?_⟩⟩
    · intro hmem
      rcases List.mem_cons.mp hmem with rfl | hmem
      · exact absurd hd (by decide)
      · rw [← List.mem_singleton.mp hmem] at he
        exact absurd he (by decide)
    · rintro rfl
      exact absurd he (by decide)
  · obtain ⟨d, hd, rfl⟩ := takes_twoByte.mp h
    refine ⟨[d], rfl, .inl ⟨?_, d, rfl, ?_⟩⟩
    · intro hmem
      rw [← List.mem_singleton.mp hmem] at hd
      exact absurd hd (by decide)
    · rintro rfl
      exact absurd hd (by decide)

def kept (text : List Char) : List Char := (removeAll terminalEscape text).filter (· ≠ '\r')

theorem kept_append {x y : List Char} (h : Scans terminalEscape (x ++ y) y) : kept (x ++ y) = kept x ++ kept y := by
  rw [kept, local_terminalEscape.removeAll_append h, List.filter_append, kept, kept]

variable {t : List Char}

theorem scans_of_not_mem (ht : esc ∉ t) (rest : List Char) : Scans terminalEscape (t ++ rest) rest := by
  induction t with
  | nil => exact .here rest
  | cons c t ih =>
    rw [List.mem_cons, not_or] at ht
    exact .kept (found_of_ne (Ne.symm ht.1)) (ih ht.2)

theorem removeAll_of_not_mem (ht : esc ∉ t) : removeAll terminalEscape t = t := by
  induction t with
  | nil => rw [removeAll]
  | cons c t ih =>
    rw [List.mem_cons, not_or] at ht
    rw [removeAll_of_none (found_of_ne (Ne.symm ht.1)), ih ht.2]

theorem kept_of_not_mem (ht : esc ∉ t) : kept t = t.filter (· ≠ '\r') := by
  rw [kept, removeAll_of_not_mem ht]

theorem eq_replicate_of_filter (h : t.filter (· ≠ '\r') = []) : t = List.replicate t.length '\r' := by
  rw [List.filter_eq_nil_iff] at h
  exact List.eq_replicate_of_mem fun c hc => by simpa using h c hc

theorem found_singleton : found terminalEscape [esc] = none := by
  cases h : found terminalEscape [esc] with
  | none => rfl
  | some rest =>
    obtain ⟨body, htext, hbody⟩ := body_of_found h
    have hnil : body = [] := (List.append_eq_nil_iff.mp (List.cons.inj htext).2.symm).1
    rw [hnil] at hbody
    rcases hbody with ⟨_, last, hlast, _⟩ | ⟨_, _, heq⟩
    · cases hlast
    · cases heq

theorem kept_esc : kept [esc] = [esc] := by
  rw [kept, removeAll_of_none found_singleton, removeAll]
  rfl

theorem kept_unterminated (hu : ∀ c ∈ u, isOscChar c = true) : kept (esc :: ']' :: u) = u.filter (· ≠ '\r') := by
  have hesc : esc ∉ u := by
    intro hmem
    have hu' := hu esc hmem
    rw [isOscChar_esc] at hu'
    cases hu'
  rw [kept, removeAll_of_some (found_unterminated hu), removeAll_of_not_mem hesc]

theorem scans_terminated (hu : esc ∉ u) (rest : List Char) : Scans terminalEscape (u ++ [esc, '\\'] ++ rest) rest := by
  rw [List.append_assoc]
  exact (scans_of_not_mem hu _).trans (.past (found_terminator rest) (.here rest))

theorem kept_terminated (hu : esc ∉ u) : kept (u ++ [esc, '\\']) = u.filter (· ≠ '\r') := by
  have hend : kept [esc, '\\'] = [] := by
    rw [kept, removeAll_of_some (found_terminator []), removeAll]
    rfl
  rw [kept_append (scans_of_not_mem hu _), kept_of_not_mem hu, hend, List.append_nil]

theorem split_terminated {u m m' : List Char} (hm' : m' ≠ []) (h : m ++ m' = u ++ [esc, '\\']) :
    (∃ u', u = m ++ u' ∧ m' = u' ++ [esc, '\\']) ∨ m = u ++ [esc] ∧ m' = ['\\'] := by
  rcases List.append_eq_append_iff.mp h with ⟨u', hu, hend⟩ | ⟨t, hm, hend⟩
  · exact .inl ⟨u', hu, hend⟩
  · cases t with
    | nil =>
      rw [List.append_nil] at hm
      exact .inl ⟨[], by rw [hm, List.append_nil], hend.symm⟩
    | cons c t =>
      obtain ⟨rfl, hback⟩ := List.cons.inj hend
      cases t with
      | nil => exact .inr ⟨hm, hback.symm⟩
      | cons d t =>
        obtain ⟨_, hnil⟩ := List.cons.inj hback
        exact absurd (List.append_eq_nil_iff.mp hnil.symm).2 hm'

/-- What two parts of a sequence leave: the search goes on after the second as it does after the whole, and nothing is
kept just where the cut is harmless. -/
theorem cut_sequence {m m' q : List Char} (hm : m ≠ []) (hm' : m' ≠ [])
    (hfound : found terminalEscape (m ++ (m' ++ q)) = some q) :
    Scans terminalEscape (m' ++ q) q ∧ (kept m = [] ∧ kept m' = [] ↔ Harmless m m') := by
  obtain ⟨body, htext, hbody⟩ := body_of_found hfound
  obtain ⟨c, m0, rfl⟩ := List.exists_cons_of_ne_nil hm
  obtain ⟨rfl, htail⟩ := List.cons.inj htext
  have hsplit : m0 ++ m' = body := List.append_cancel_right ((List.append_assoc _ _ _).trans htail)
  rcases hbody with ⟨hesc, last, hlast, hne⟩ | ⟨u, hu, hbody⟩
  · -- the last character is kept
    have hesc' : esc ∉ m' := fun hmem => hesc (hsplit ▸ List.mem_append_right m0 hmem)
    have hmem : last ∈ m' := by
      rw [← hsplit, List.getLast?_append_of_ne_nil m0 hm'] at hlast
      exact List.mem_of_getLast? hlast
    have hkept : last ∈ kept m' := by
      rw [kept_of_not_mem hesc']
      exact List.mem_filter.mpr ⟨hmem, decide_eq_true hne⟩
    refine ⟨scans_of_not_mem hesc' q, ?_⟩
    constructor
    · rintro ⟨_, hnil⟩
      rw [hnil] at hkept
      exact absurd hkept List.not_mem_nil
    · rintro ⟨_, _, _, rfl⟩
      exact absurd (by simp) hesc'
  · have hesc : esc ∉ u := by
      intro hmem
      have hu' := hu esc hmem
      rw [isOscChar_esc] at hu'
      cases hu'
    rw [hbody] at hsplit
    cases m0 with
    | nil =>
      rw [List.nil_append] at hsplit
      have hesc' : esc ∉ ']' :: u := by
        rw [List.mem_cons, not_or]
        exact ⟨by decide, hesc⟩
      rw [hsplit]
      refine ⟨scans_terminated hesc' q, ?_⟩
      rw [kept_esc]
      constructor
      · rintro ⟨hnil, _⟩
        cases hnil
      · rintro ⟨_, _, heq, _⟩
        cases (List.cons.inj heq).2
    | cons d m1 =>
      obtain ⟨rfl, hparts⟩ := List.cons.inj hsplit
      rcases split_terminated hm' hparts with ⟨u', rfl, rfl⟩ | ⟨rfl, rfl⟩
      · have hu1 : ∀ c ∈ m1, isOscChar c = true := fun c hc => hu c (List.mem_append_left u' hc)
        have hesc' : esc ∉ u' := fun hmem => hesc (List.mem_append_right m1 hmem)
        refine ⟨scans_terminated hesc' q, ?_⟩
        rw [kept_unterminated hu1, kept_terminated hesc']
        constructor
        · rintro ⟨hfirst, hsecond⟩
          exact ⟨m1.length, u'.length, by rw [← eq_replicate_of_filter hfirst],
            by rw [← eq_replicate_of_filter hsecond]⟩
        · rintro ⟨a, b, hfirst, hsecond⟩
          rw [(List.cons.inj (List.cons.inj hfirst).2).2, List.append_cancel_right hsecond]
          simp
      · have hback : esc ∉ ['\\'] := by decide
        refine ⟨scans_of_not_mem hback q, ?_⟩
        rw [kept_of_not_mem hback]
        constructor
        · rintro ⟨_, hnil⟩
          exact absurd hnil (by decide)
        · rintro ⟨_, b, _, heq⟩
          have hlength := congrArg List.length heq
          rw [List.length_append, List.length_replicate] at hlength
          exact absurd hlength (by simp)

section Parts

variable {x y z m m' : List Char}

theorem head_of_found {cs rest : List Char} (h : found terminalEscape (c :: cs) = some rest) : c = esc := by
  by_contra hne
  rw [found_of_ne hne] at h
  cases h

theorem kept_cut (h : CutsSequence x y m m') : ∃ p q, kept x = kept p ++ kept m ∧ kept y = kept m' ++ kept q ∧
    kept (x ++ y) = kept p ++ kept q ∧ (kept m = [] ∧ kept m' = [] ↔ Harmless m m') := by
  obtain ⟨p, q, rfl, rfl, hm, hm', hscan, hfound⟩ := h
  obtain ⟨hrest, hharmless⟩ := cut_sequence hm hm' hfound
  refine ⟨p, q, ?_, kept_append hrest, ?_, hharmless⟩
  · rw [List.append_assoc] at hscan
    exact kept_append (local_terminalEscape.scans_part hscan)
  · rw [List.append_assoc] at hscan ⊢
    rw [kept_append hscan]
    refine congrArg (kept p ++ ·) ?_
    rw [kept, kept, removeAll_of_some hfound]

theorem kept_of_safe (h : Safe x y) : kept (x ++ y) = kept x ++ kept y := by
  rcases scans_or_inside terminalEscape x y with hscan | ⟨p, m, m', q, hx, hy, hm, hm', hscan, hfound⟩
  · exact kept_append hscan
  · have hcuts : CutsSequence x y m m' := ⟨p, q, hx, hy, hm, hm', hscan, hfound⟩
    obtain ⟨p, q, hx, hy, hxy, hiff⟩ := kept_cut hcuts
    obtain ⟨hfirst, hsecond⟩ := hiff.mpr (h m m' hcuts)
    rw [hx, hy, hxy, hfirst, hsecond, List.append_nil, List.nil_append]

theorem length_kept_le (x y : List Char) : (kept (x ++ y)).length ≤ (kept x).length + (kept y).length := by
  rcases scans_or_inside terminalEscape x y with hscan | ⟨p, m, m', q, hx, hy, hm, hm', hscan, hfound⟩
  · rw [kept_append hscan, List.length_append]
  · obtain ⟨p, q, hx, hy, hxy, _⟩ := kept_cut ⟨p, q, hx, hy, hm, hm', hscan, hfound⟩
    rw [hx, hy, hxy, List.length_append, List.length_append, List.length_append]
    omega

theorem safe_of_length (h : (kept x).length + (kept y).length ≤ (kept (x ++ y)).length) : Safe x y := by
  intro m m' hcuts
  obtain ⟨p, q, hx, hy, hxy, hiff⟩ := kept_cut hcuts
  rw [hx, hy, hxy, List.length_append, List.length_append, List.length_append] at h
  exact hiff.mp ⟨List.eq_nil_of_length_eq_zero (by omega), List.eq_nil_of_length_eq_zero (by omega)⟩

theorem cuts_append_iff (h : Scans terminalEscape (x ++ (y ++ z)) (y ++ z)) :
    CutsSequence (x ++ y) z m m' ↔ CutsSequence y z m m' := by
  constructor
  · rintro ⟨p, q, hp, hz, hm, hm', hscan, hfound⟩
    rw [List.append_assoc] at hscan
    have hle : (m ++ z).length ≤ (y ++ z).length := by
      by_contra hlt
      have hback := hscan.of_length_le h (by omega)
      have hpast := (hback.of_found (fun heq => hlt (by rw [heq])) hfound).length_le
      have hpos := List.length_pos_iff.mpr hm'
      rw [hz, List.length_append, List.length_append] at hpast
      omega
    have hrest := h.of_length_le hscan hle
    obtain ⟨p', hp'⟩ := hrest.suffix
    rw [← List.append_assoc] at hp'
    exact ⟨p', q, (List.append_cancel_right hp').symm, hz, hm, hm', hrest, hfound⟩
  · rintro ⟨p, q, rfl, hz, hm, hm', hscan, hfound⟩
    refine ⟨x ++ p, q, (List.append_assoc _ _ _).symm, hz, hm, hm', ?_, hfound⟩
    rw [List.append_assoc]
    exact h.trans hscan

theorem cuts_back (n : Nat) (q : List Char) :
    CutsSequence (List.replicate n '\r' ++ [esc]) ('\\' :: q) [esc] ['\\'] := by
  have hesc : esc ∉ List.replicate n '\r' := by
    rw [List.mem_replicate]
    rintro ⟨_, heq⟩
    exact absurd heq (by decide)
  refine ⟨List.replicate n '\r', q, rfl, rfl, List.cons_ne_nil _ _, List.cons_ne_nil _ _, ?_, found_terminator q⟩
  rw [List.append_assoc]
  exact scans_of_not_mem hesc _

theorem not_harmless_back : ¬Harmless m ['\\'] := by
  rintro ⟨_, b, _, heq⟩
  have hlength := congrArg List.length heq
  rw [List.length_append, List.length_replicate] at hlength
  exact absurd hlength (by simp)

theorem cut_after_harmless {P M Q : List Char} {a b : Nat} (hx : x = P ++ M)
    (hM : M = esc :: ']' :: List.replicate a '\r') (ht : y ++ z = List.replicate b '\r' ++ [esc, '\\'] ++ Q)
    (hscan : Scans terminalEscape (x ++ (y ++ z)) (M ++ (y ++ z)))
    (hfound : found terminalEscape (M ++ (y ++ z)) = some Q) : Safe (x ++ y) z ↔ Safe y z := by
  have hesc : esc ∉ List.replicate b '\r' := by
    rw [List.mem_replicate]
    rintro ⟨_, heq⟩
    exact absurd heq (by decide)
  have hend : Scans terminalEscape (y ++ z) (esc :: '\\' :: Q) := by
    rw [ht, List.append_assoc]
    exact scans_of_not_mem hesc _
  have hQ : Scans terminalEscape (y ++ z) Q := hend.trans (.past (found_terminator Q) (.here Q))
  have hwhole : Scans terminalEscape (x ++ (y ++ z)) Q := hscan.trans (.past hfound (.here Q))
  constructor
  · rintro hsafe m m' ⟨p, q, rfl, hz, hm, hm', hstop, hmatch⟩
    by_cases hle : (m ++ z).length ≤ (esc :: '\\' :: Q).length
    · by_cases heq : esc :: '\\' :: Q = m ++ z
      · -- the cut is between the two last bytes
        rw [← heq, found_terminator, Option.some.injEq] at hmatch
        rw [hz, ← hmatch, ← List.append_assoc] at heq
        have hparts : m ++ m' = [] ++ [esc, '\\'] := List.append_cancel_right heq.symm
        rcases split_terminated hm' hparts with ⟨u', hnil, _⟩ | ⟨_, rfl⟩
        · exact absurd (List.append_eq_nil_iff.mp hnil.symm).1 hm
        · have hback : CutsSequence (x ++ (p ++ m)) z (M ++ (p ++ m)) ['\\'] := by
            refine ⟨P, Q, by rw [hx, List.append_assoc], by rw [hz, hmatch], ?_, hm', ?_, ?_⟩
            · rw [hM]
              exact List.cons_ne_nil _ _
            · rw [List.append_assoc x, List.append_assoc M]
              exact hscan
            · rw [List.append_assoc M]
              exact hfound
          exact absurd (hsafe _ _ hback) not_harmless_back
      · have hlater := (hend.of_length_le hstop hle).of_found heq (found_terminator Q)
        refine hsafe m m' ⟨x ++ p, q, (List.append_assoc _ _ _).symm, hz, hm, hm', ?_, hmatch⟩
        rw [List.append_assoc]
        exact hwhole.trans hlater
    · -- a sequence does not start with a carriage return
      rw [List.append_assoc, List.append_assoc] at ht
      rcases List.append_eq_append_iff.mp ht with ⟨w, hreplicate, hstart⟩ | ⟨w, _, hstart⟩
      · cases w with
        | nil =>
          rw [List.nil_append] at hstart
          exact absurd (Nat.le_of_eq (congrArg List.length hstart)) hle
        | cons c w =>
          rw [hstart] at hmatch
          obtain rfl := head_of_found hmatch
          exact absurd (hreplicate ▸ List.mem_append_right p List.mem_cons_self) hesc
      · have hlength := congrArg List.length hstart
        simp only [List.length_append, List.length_cons, List.length_nil] at hlength hle
        omega
  · rintro hsafe m m' ⟨p, q, hp, hz, hm, hm', hstop, hmatch⟩
    rw [List.append_assoc] at hstop
    by_cases hle : (m ++ z).length ≤ (M ++ (y ++ z)).length
    · by_cases heq : M ++ (y ++ z) = m ++ z
      · -- the same sequence is cut once more
        rw [← heq, hfound, Option.some.injEq] at hmatch
        rw [← List.append_assoc] at heq
        have hsame : M ++ y = m := List.append_cancel_right heq
        rw [hz, ← hmatch, ← List.append_assoc] at ht
        rcases split_terminated hm' (List.append_cancel_right ht) with ⟨u, hreplicate, rfl⟩ | ⟨rfl, rfl⟩
        · obtain ⟨_, hy, hu⟩ := List.append_eq_replicate_iff.mp hreplicate.symm
          refine ⟨a + y.length, u.length, ?_, by rw [← hu]⟩
          rw [← hsame, hM, hy, List.length_replicate, ← List.replicate_append_replicate]
          rfl
        · rw [hz] at hsafe
          exact absurd (hsafe _ _ (cuts_back b q)) not_harmless_back
      · have hlater := hQ.trans ((hscan.of_length_le hstop hle).of_found heq hfound)
        obtain ⟨p', hp'⟩ := hlater.suffix
        rw [← List.append_assoc] at hp'
        exact hsafe m m' ⟨p', q, (List.append_cancel_right hp').symm, hz, hm, hm', hlater, hmatch⟩
    · have hback := hstop.of_length_le hscan (by omega)
      have hpast := (hback.of_found (fun heq => hle (by rw [heq])) hmatch).length_le
      rw [List.length_append, List.length_append, hz, List.length_append] at hpast
      have hpos := List.length_pos_iff.mpr hm'
      omega

theorem safe_append_iff (h : Safe x (y ++ z)) : Safe (x ++ y) z ↔ Safe y z := by
  rcases scans_or_inside terminalEscape x (y ++ z) with hscan | ⟨P, M, M', Q, hx, ht, hM, hM', hscan, hfound⟩
  · exact forall₂_congr fun m m' => imp_congr_left (cuts_append_iff hscan)
  · obtain ⟨a, b, hfirst, hsecond⟩ := h M M' ⟨P, Q, hx, ht, hM, hM', hscan, hfound⟩
    rw [hsecond] at ht
    exact cut_after_harmless hx hfirst ht hscan hfound

end Parts

theorem safe_nil (y : List Char) : Safe [] y := by
  rintro m m' ⟨p, q, hx, _, hm, _⟩
  exact absurd (List.append_eq_nil_iff.mp hx.symm).2 hm

theorem safelyCut_cons {chunk : List Char} {chunks : List (List Char)} :
    SafelyCut (chunk :: chunks) ↔ Safe chunk chunks.flatten ∧ SafelyCut chunks := by
  constructor
  · intro h
    have hfirst : Safe chunk chunks.flatten := by
      have hone := h [chunk] chunks rfl
      rwa [List.flatten_singleton] at hone
    refine ⟨hfirst, ?_⟩
    rintro before after rfl
    have hwhole := h (chunk :: before) after rfl
    rw [List.flatten_append] at hfirst
    rw [List.flatten_cons] at hwhole
    exact (safe_append_iff hfirst).mp hwhole
  · rintro ⟨hfirst, hrest⟩ before after heq
    cases before with
    | nil => exact safe_nil _
    | cons first before =>
      cases heq
      have hparts : Safe chunk (before.flatten ++ after.flatten) := by
        rw [← List.flatten_append]
        exact hfirst
      rw [List.flatten_cons]
      exact (safe_append_iff hparts).mpr (hrest before after rfl)

theorem flatten_kept_iff (chunks : List (List Char)) : (kept chunks.flatten).length ≤ (chunks.map kept).flatten.length ∧
      ((chunks.map kept).flatten = kept chunks.flatten ↔ SafelyCut chunks) := by
  induction chunks with
  | nil =>
    have hnil : kept [] = [] := by
      rw [kept, removeAll]
      rfl
    rw [List.flatten_nil, hnil, List.map_nil, List.flatten_nil]
    refine ⟨Nat.le_refl _, fun _ before after heq => ?_, fun _ => rfl⟩
    obtain ⟨rfl, rfl⟩ := List.append_eq_nil_iff.mp heq.symm
    exact safe_nil _
  | cons chunk chunks ih =>
    obtain ⟨hle, hiff⟩ := ih
    have hlength := length_kept_le chunk chunks.flatten
    rw [safelyCut_cons, ← hiff, List.map_cons, List.flatten_cons, List.flatten_cons, List.length_append]
    refine ⟨by omega, fun heq => ?_, fun hcut => by rw [hcut.2, kept_of_safe hcut.1]⟩
    have hsame := congrArg List.length heq
    rw [List.length_append] at hsame
    have hfirst : Safe chunk chunks.flatten := safe_of_length (by omega)
    rw [kept_of_safe hfirst] at heq
    exact ⟨hfirst, List.append_cancel_left heq⟩

theorem toList_strip (data : String) : (stripTerminalEscapes data).toList = kept data.toList :=
  String.toList_ofList

theorem toList_join (texts : List String) : (String.join texts).toList = (texts.map String.toList).flatten := by
  induction texts with
  | nil => rfl
  | cons text texts ih => rw [String.join_cons, String.toList_append, ih, List.map_cons, List.flatten_cons]

theorem handleOutputs_eq (m : ConnectionManager) (logs : String → String) (events : List TerminalOutputEvent)
    (path : String) : m.handleOutputs logs events path =
      logs path ++ String.join ((m.chunksOf path events).map stripTerminalEscapes) := by
  induction events generalizing logs with
  | nil => exact String.append_empty.symm
  | cons event events ih =>
    have hstep : m.handleOutputs logs (event :: events) = m.handleOutputs (m.handleTerminalOutput logs event) events :=
      rfl
    rw [hstep, ih, ConnectionManager.handleTerminalOutput, ConnectionManager.chunksOf, ConnectionManager.chunksOf]
    by_cases hlog : m.logOf event = some path
    · rw [hlog, List.filter_cons_of_pos (by simpa using hlog), List.map_cons, List.map_cons, String.join_cons,
        ← String.append_assoc]
      refine congrArg (· ++ _) ?_
      exact Function.update_self path _ logs
    · rw [List.filter_cons_of_neg (by simpa using hlog)]
      refine congrArg (· ++ _) ?_
      cases hother : m.logOf event with
      | none => rfl
      | some other =>
        have hne : path ≠ other := by
          rintro rfl
          exact hlog hother
        exact Function.update_of_ne hne _ logs

theorem length_of_takes {text rest : List Char} (h : Takes terminalEscape text rest) : rest.length < text.length := by
  rcases takes_terminalEscape.mp h with h | h | h | h
  · obtain ⟨u, _, rfl | rfl⟩ := takes_osc.mp h
    · simp only [List.length_cons, List.length_append]
      omega
    · simp only [List.length_cons, List.length_append]
      omega
  · obtain ⟨a, b, f, _, _, _, rfl⟩ := takes_csi.mp h
    simp only [List.length_cons, List.length_append]
    omega
  · obtain ⟨d, e, _, _, rfl⟩ := takes_charset.mp h
    simp only [List.length_cons]
    omega
  · obtain ⟨d, _, rfl⟩ := takes_twoByte.mp h
    simp only [List.length_cons]
    omega

theorem exists_pieces (text : List Char) :
    ∃ pieces, Pieces text pieces ∧ removeAll terminalEscape text = outside pieces := by
  fun_induction removeAll terminalEscape text with
  | case1 => exact ⟨[], .done, rfl⟩
  | case2 c cs rest hfound ih =>
    obtain ⟨pieces, hpieces, hkept⟩ := ih
    obtain ⟨part, hpart⟩ := suffix_of_found hfound
    have hfirst := (Option.filter_eq_some_iff.mp hfound).1
    rw [← hpart] at hfirst ⊢
    exact ⟨_, .sequence hfirst hpieces, hkept⟩
  | case3 c cs hnone ih =>
    obtain ⟨pieces, hpieces, hkept⟩ := ih
    have hfirst : firstMatch terminalEscape (c :: cs) = none := by
      rw [found, Option.filter_eq_none_iff] at hnone
      cases h : firstMatch terminalEscape (c :: cs) with
      | none => rfl
      | some rest => exact absurd (decide_eq_true (length_of_takes (takes_of_firstMatch h))) (hnone rest h)
    refine ⟨_, .outside (fun part rest captures htext hmatch => ?_) hpieces, congrArg (c :: ·) hkept⟩
    exact firstMatch_eq_none_iff.mp hfirst rest ⟨part, captures, htext, hmatch⟩

/-- What is left of a text is what is outside of its escape sequences, but for carriage returns; and what is recorded of
an output in pieces is what is left of the whole just where no piece ends in an escape sequence of the whole, or
harmlessly. -/
theorem session_log_of_pieces :
    (∀ text : String, ∃ pieces, Pieces text.toList pieces ∧
      (stripTerminalEscapes text).toList = (outside pieces).filter (· ≠ '\r')) ∧
    ∀ (m : ConnectionManager) (logs : String → String) (path : String) (events : List TerminalOutputEvent),
      m.handleOutputs logs events path = logs path ++ stripTerminalEscapes (String.join (m.chunksOf path events)) ↔
        SafelyCut ((m.chunksOf path events).map String.toList) := by
  refine ⟨fun text => ?_, fun m logs path events => ?_⟩
  · obtain ⟨pieces, hpieces, hkept⟩ := exists_pieces text.toList
    exact ⟨pieces, hpieces, by rw [toList_strip, kept, hkept]⟩
  · rw [handleOutputs_eq, ← (flatten_kept_iff _).2, ← String.toList_inj, String.toList_append, String.toList_append,
      List.append_cancel_left_eq, toList_strip, toList_join, toList_join, List.map_map, List.map_map]
    refine Eq.congr ?_ rfl
    exact congrArg List.flatten (List.map_congr_left fun text _ => toList_strip text)

/-- A color that comes in two pieces is written to the log. -/
theorem cut_color_recorded :
    let m : ConnectionManager := { recordings := fun id => if id = "s" then some "log" else none }
    let events : List TerminalOutputEvent := [⟨"s", "\x1b[3"⟩, ⟨"s", "1mred"⟩]
    m.handleOutputs (fun _ => "") events "log" = "31mred" ∧
      stripTerminalEscapes (String.join (m.chunksOf "log" events)) = "red" := by
  decide +kernel

end Portix.Connection
