import Portix.Lib.Removal

/-!
# What removing leaves

Where an expression does not look beyond its matches, they are removed from the parts of a text as from the whole.
-/

namespace Portix.Lib.Regex

section

variable {r r' : Regex} {text rest s x y : List Char}

theorem takes_of_firstMatch (h : firstMatch r text = some rest) : Takes r text rest := by
  obtain ⟨⟨_, captures⟩, hfirst, rfl⟩ := Option.map_eq_some_iff.mp h
  obtain ⟨part, htext, hmatch⟩ := mem_outcomes.mp (List.mem_of_head? hfirst)
  exact ⟨part, captures, htext, hmatch⟩

theorem firstMatch_eq_none_iff : firstMatch r text = none ↔ ∀ rest, ¬Takes r text rest := by
  rw [firstMatch, Option.map_eq_none_iff, List.head?_eq_none_iff, List.eq_nil_iff_forall_not_mem]
  constructor
  · rintro h rest ⟨part, captures, htext, hmatch⟩
    exact h (rest, captures) (mem_outcomes.mpr ⟨part, htext, hmatch⟩)
  · rintro h ⟨rest, captures⟩ hmem
    obtain ⟨part, htext, hmatch⟩ := mem_outcomes.mp hmem
    exact h rest ⟨part, captures, htext, hmatch⟩

theorem firstMatch_eq_some_iff (hr : Decides r) : firstMatch r text = some rest ↔ Takes r text rest := by
  refine ⟨takes_of_firstMatch, fun h => ?_⟩
  cases hfirst : firstMatch r text with
  | none => exact absurd h (firstMatch_eq_none_iff.mp hfirst rest)
  | some rest' => rw [hr text rest' rest (takes_of_firstMatch hfirst) h]

theorem takes_append_iff : Takes r (s ++ y) (rest ++ y) ↔ Takes r s rest := by
  constructor
  · rintro ⟨part, captures, htext, hmatch⟩
    rw [← List.append_assoc] at htext
    exact ⟨part, captures, List.append_cancel_right htext, hmatch⟩
  · rintro ⟨part, captures, rfl, hmatch⟩
    exact ⟨part, captures, List.append_assoc _ _ _, hmatch⟩

theorem local_of_decides (hr : Decides r) : Local r where
  of_some _ _ _ h := (firstMatch_eq_some_iff hr).mpr (takes_append_iff.mp (takes_of_firstMatch h))
  of_none _ y h := firstMatch_eq_none_iff.mpr fun rest htakes =>
    firstMatch_eq_none_iff.mp h (rest ++ y) (takes_append_iff.mpr htakes)

theorem firstMatch_alt : firstMatch (alt r r') text = (firstMatch r text).or (firstMatch r' text) := by
  rw [firstMatch, outcomes, List.head?_append, Option.map_or]
  rfl

theorem local_alt (hr : Local r) (hr' : Local r') : Local (alt r r') where
  of_some s y rest h := by
    rw [firstMatch_alt] at h ⊢
    cases hfirst : firstMatch r (s ++ y) with
    | none =>
      rw [hfirst, Option.none_or] at h
      rw [hr.of_none s y hfirst, Option.none_or]
      exact hr'.of_some s y rest h
    | some after =>
      rw [hfirst, Option.some_or] at h
      rw [hr.of_some s y rest (hfirst.trans h), Option.some_or]
  of_none s y h := by
    rw [firstMatch_alt, Option.or_eq_none_iff] at h ⊢
    exact ⟨hr.of_none s y h.1, hr'.of_none s y h.2⟩

theorem takes_of_found (h : found r text = some rest) : Takes r text rest :=
  takes_of_firstMatch (Option.filter_eq_some_iff.mp h).1

theorem suffix_of_found (h : found r text = some rest) : rest <:+ text := by
  obtain ⟨part, _, htext, _⟩ := takes_of_found h
  exact ⟨part, htext.symm⟩

theorem found_nil : found r [] = none := by
  cases h : found r [] with
  | none => rfl
  | some rest => exact absurd (length_of_found h) (Nat.not_lt_zero _)

theorem Local.found_some (hr : Local r) (h : found r (s ++ y) = some (rest ++ y)) : found r s = some rest := by
  obtain ⟨hfirst, hlength⟩ := Option.filter_eq_some_iff.mp h
  refine Option.filter_eq_some_iff.mpr ⟨hr.of_some s y rest hfirst, decide_eq_true ?_⟩
  have hless := of_decide_eq_true hlength
  rw [List.length_append, List.length_append] at hless
  exact Nat.lt_of_add_lt_add_right hless

theorem Local.found_none (hr : Local r) (h : found r (s ++ y) = none) : found r s = none := by
  cases hs : found r s with
  | none => rfl
  | some rest =>
    obtain ⟨part, captures, rfl, hmatch⟩ := takes_of_found hs
    have hfirst := (Option.filter_eq_some_iff.mp hs).1
    rw [found, Option.filter_eq_none_iff] at h
    cases hwhole : firstMatch r (part ++ rest ++ y) with
    | none =>
      rw [hr.of_none _ _ hwhole] at hfirst
      cases hfirst
    | some after =>
      -- what is matched in the whole is empty, so it is the same in the first part
      obtain ⟨part', _, htext, _⟩ := takes_of_firstMatch hwhole
      have hlength : ¬after.length < (part ++ rest ++ y).length := fun hless => h after hwhole (decide_eq_true hless)
      have hnil : part' = [] := by
        rw [htext, List.length_append] at hlength
        exact List.eq_nil_of_length_eq_zero (by omega)
      rw [hnil, List.nil_append] at htext
      rw [← htext] at hwhole
      rw [hr.of_some _ _ _ hwhole, Option.some.injEq] at hfirst
      have hless := length_of_found hs
      rw [hfirst] at hless
      exact absurd hless (Nat.lt_irrefl _)

variable {rs : List Regex} {accepts : Char → Bool} {c : Char}

theorem takes_nil : Takes (seqs []) text rest ↔ text = rest := by
  constructor
  · rintro ⟨part, captures, rfl, hmatch⟩
    obtain ⟨rfl, _⟩ := matches_nil.mp hmatch
    rfl
  · rintro rfl
    exact ⟨[], [], rfl, matches_nil.mpr ⟨rfl, rfl⟩⟩

theorem takes_cons : Takes (seqs (r :: rs)) text rest ↔ ∃ t, Takes r text t ∧ Takes (seqs rs) t rest := by
  constructor
  · rintro ⟨_, _, rfl, hmatch⟩
    obtain ⟨part, part', taken, taken', rfl, _, hr, hrs⟩ := matches_cons.mp hmatch
    exact ⟨part' ++ rest, ⟨part, taken, List.append_assoc _ _ _, hr⟩, part', taken', rfl, hrs⟩
  · rintro ⟨_, ⟨part, taken, rfl, hr⟩, part', taken', rfl, hrs⟩
    exact ⟨part ++ part', taken ++ taken', (List.append_assoc _ _ _).symm,
      matches_cons.mpr ⟨part, part', taken, taken', rfl, rfl, hr, hrs⟩⟩

theorem takes_alt : Takes (alt r r') text rest ↔ Takes r text rest ∨ Takes r' text rest := by
  simp only [Takes, matches_alt, and_or_left, exists_or]

theorem takes_one : Takes (one accepts) text rest ↔ ∃ c, accepts c = true ∧ text = c :: rest := by
  constructor
  · rintro ⟨part, captures, rfl, hmatch⟩
    obtain ⟨c, rfl, hc, _⟩ := matches_one.mp hmatch
    exact ⟨c, hc, rfl⟩
  · rintro ⟨c, hc, rfl⟩
    exact ⟨[c], [], rfl, matches_one.mpr ⟨c, rfl, hc, rfl⟩⟩

theorem takes_lit : Takes (lit c) text rest ↔ text = c :: rest := by
  rw [lit, takes_one]
  simp only [beq_iff_eq, exists_eq_left]

theorem takes_star : Takes (star accepts) text rest ↔ ∃ part, (∀ c ∈ part, accepts c = true) ∧ text = part ++ rest := by
  constructor
  · rintro ⟨part, captures, rfl, hmatch⟩
    exact ⟨part, (matches_star.mp hmatch).1, rfl⟩
  · rintro ⟨part, hpart, rfl⟩
    exact ⟨part, [], rfl, matches_star.mpr ⟨hpart, rfl⟩⟩

theorem Scans.suffix (h : Scans r text rest) : rest <:+ text := by
  induction h with
  | here text => exact List.suffix_refl text
  | kept _ _ ih => exact ih.trans (List.suffix_cons _ _)
  | past hfound _ ih => exact ih.trans (suffix_of_found hfound)

theorem Scans.trans {after : List Char} (h : Scans r text after) (h' : Scans r after rest) : Scans r text rest := by
  induction h with
  | here => exact h'
  | kept hnone _ ih => exact .kept hnone (ih h')
  | past hfound _ ih => exact .past hfound (ih h')

theorem Scans.linear (h : Scans r text x) (h' : Scans r text y) : Scans r x y ∨ Scans r y x := by
  induction h with
  | here => exact .inl h'
  | @kept c cs rest hnone hrest ih =>
    cases h' with
    | here => exact .inr (.kept hnone hrest)
    | kept _ hrest' => exact ih hrest'
    | past hfound _ =>
      rw [hnone] at hfound
      cases hfound
  | @past text after rest hfound hrest ih =>
    cases h' with
    | here => exact .inr (.past hfound hrest)
    | kept hnone _ =>
      rw [hnone] at hfound
      cases hfound
    | past hfound' hrest' =>
      cases hfound.symm.trans hfound'
      exact ih hrest'

theorem Scans.length_le (h : Scans r text rest) : rest.length ≤ text.length := h.suffix.length_le

theorem Scans.of_length_le (h : Scans r text x) (h' : Scans r text y) (hle : y.length ≤ x.length) : Scans r x y := by
  rcases h.linear h' with hxy | hyx
  · exact hxy
  · have heq : x = y := hyx.suffix.eq_of_length_le hle
    rw [heq]
    exact .here y

theorem Scans.of_found {after : List Char} (h : Scans r text rest) (hne : text ≠ rest)
    (hfound : found r text = some after) : Scans r after rest := by
  cases h with
  | here => exact absurd rfl hne
  | kept hnone _ =>
    rw [hnone] at hfound
    cases hfound
  | past hfound' hrest =>
    rw [Option.some.inj (hfound.symm.trans hfound')]
    exact hrest

theorem removeAll_of_none {c : Char} {cs : List Char} (h : found r (c :: cs) = none) :
    removeAll r (c :: cs) = c :: removeAll r cs := by
  rw [removeAll]
  split
  case h_1 hsome =>
    rw [h] at hsome
    cases hsome
  case h_2 => rfl

theorem removeAll_of_some (h : found r text = some rest) : removeAll r text = removeAll r rest := by
  cases text with
  | nil =>
    rw [found_nil] at h
    cases h
  | cons c cs =>
    rw [removeAll]
    split
    case h_1 hsome => rw [Option.some.inj (hsome.symm.trans h)]
    case h_2 hnone =>
      rw [h] at hnone
      cases hnone

theorem Local.scans_first (hr : Local r) (h : Scans r (x ++ y) y) :
    Scans r x [] ∧ removeAll r (x ++ y) = removeAll r x ++ removeAll r y := by
  generalize htext : x ++ y = text at h
  induction h generalizing x with
  | here text =>
    obtain rfl : x = [] := List.append_left_eq_self.mp htext
    exact ⟨.here [], by rw [removeAll, List.nil_append]⟩
  | @kept c cs rest hnone hrest ih =>
    cases x with
    | nil =>
      rw [List.nil_append] at htext
      exact absurd (htext ▸ hrest.length_le) (Nat.not_succ_le_self _)
    | cons d x =>
      obtain ⟨rfl, rfl⟩ := List.cons.inj htext
      obtain ⟨hscan, hremove⟩ := ih rfl
      have hx := hr.found_none (s := d :: x) hnone
      exact ⟨.kept hx hscan, by rw [removeAll_of_none hnone, removeAll_of_none hx, hremove, List.cons_append]⟩
  | @past text after rest hfound hrest ih =>
    obtain ⟨x', rfl⟩ := hrest.suffix
    rw [← htext] at hfound
    have hx := hr.found_some hfound
    obtain ⟨hscan, hremove⟩ := ih rfl
    exact ⟨.past hx hscan, by rw [← htext, removeAll_of_some hfound, removeAll_of_some hx, hremove]⟩

theorem Local.removeAll_append (hr : Local r) (h : Scans r (x ++ y) y) :
    removeAll r (x ++ y) = removeAll r x ++ removeAll r y := (hr.scans_first h).2

theorem Local.scans_part (hr : Local r) {p : List Char} (h : Scans r (p ++ (s ++ y)) (s ++ y)) :
    Scans r (p ++ s) s := by
  generalize htext : p ++ (s ++ y) = text at h
  generalize hrest : s ++ y = rest at h
  induction h generalizing p with
  | here text =>
    rw [← hrest] at htext
    obtain rfl : p = [] := List.append_left_eq_self.mp htext
    exact .here s
  | @kept c cs rest hnone hscan ih =>
    subst hrest
    cases p with
    | nil =>
      rw [List.nil_append] at htext
      exact absurd (htext ▸ hscan.length_le) (Nat.not_succ_le_self _)
    | cons d p =>
      obtain ⟨rfl, rfl⟩ := List.cons.inj htext
      have hnone' : found r (d :: (p ++ s)) = none := by
        refine hr.found_none (y := y) ?_
        rw [List.cons_append, List.append_assoc]
        exact hnone
      exact .kept hnone' (ih rfl rfl)
  | @past text after rest hfound hscan ih =>
    subst hrest
    obtain ⟨p', hp'⟩ := hscan.suffix
    subst hp'
    rw [← htext, ← List.append_assoc, ← List.append_assoc] at hfound
    exact .past (hr.found_some hfound) (ih rfl rfl)

theorem scans_or_inside (r : Regex) (x y : List Char) : Scans r (x ++ y) y ∨
    ∃ p m m' q, x = p ++ m ∧ y = m' ++ q ∧ m ≠ [] ∧ m' ≠ [] ∧ Scans r (x ++ y) (m ++ y) ∧
      found r (m ++ y) = some q := by
  generalize hn : x.length = n
  induction n using Nat.strong_induction_on generalizing x with
  | h n ih =>
    subst hn
    cases x with
    | nil => exact .inl (.here y)
    | cons c cs =>
      cases hfound : found r (c :: cs ++ y) with
      | none =>
        rcases ih cs.length (Nat.lt_succ_self _) cs rfl with hscan | ⟨p, m, m', q, rfl, hy, hm, hm', hscan, hq⟩
        · exact .inl (.kept hfound hscan)
        · exact .inr ⟨c :: p, m, m', q, rfl, hy, hm, hm', .kept hfound hscan, hq⟩
      | some after =>
        obtain ⟨part, hpart⟩ := suffix_of_found hfound
        have hless := length_of_found hfound
        rcases List.append_eq_append_iff.mp hpart with ⟨x', hx, hafter⟩ | ⟨m', hm', hy⟩
        · -- the match ends in the first part
          have hshort : x'.length < (c :: cs).length := by
            rw [hafter, List.length_append, List.length_append] at hless
            omega
          rw [hafter] at hfound
          rcases ih x'.length hshort x' rfl with hscan | ⟨p, m, m', q, rfl, hy, hm, hm', hscan, hq⟩
          · exact .inl (.past hfound hscan)
          · exact .inr ⟨part ++ p, m, m', q, by rw [hx, List.append_assoc], hy, hm, hm', .past hfound hscan, hq⟩
        · by_cases hnil : m' = []
          · -- it ends with the first part
            rw [hnil, List.nil_append] at hy
            rw [← hy] at hfound
            exact .inl (.past hfound (.here y))
          · exact .inr ⟨[], c :: cs, m', after, rfl, hy, List.cons_ne_nil c cs, hnil, .here _, hfound⟩

end

end Portix.Lib.Regex
