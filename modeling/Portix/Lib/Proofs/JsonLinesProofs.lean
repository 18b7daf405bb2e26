import Mathlib.Data.List.Chain
import Portix.Lib.Json

/-!
# The lines of a JSON text

No line of a text that can be read ends with a minus sign: one within quotes is on the line of the closing quote, and
any other has a digit after it.
-/

namespace Portix.Lib.Json

/-- What may follow one another in a text: no line break comes after a minus sign. -/
def Follows (c d : Char) : Prop := ¬ (c = '-' ∧ d = '\n')

/-- Characters after which anything may come. -/
structure Inline (cs : List Char) : Prop where
  chain : cs.IsChain Follows
  last : cs.getLast? ≠ some '-'

theorem Inline.append {cs ds : List Char} (hc : Inline cs) (hd : Inline ds) : Inline (cs ++ ds) where
  chain := by
    rw [List.isChain_append]
    refine ⟨hc.chain, hd.chain, fun x hx y _ hboth => hc.last ?_⟩
    rw [Option.mem_def] at hx
    rw [hx, hboth.1]
  last := by
    rw [List.getLast?_append]
    cases hlast : ds.getLast? with
    | none => simpa using hc.last
    | some d => simpa [hlast] using hd.last

theorem Inline.of_noBreak {cs : List Char} (hbreak : '\n' ∉ cs) (hlast : cs.getLast? ≠ some '-') : Inline cs := by
  refine ⟨List.Pairwise.isChain (List.pairwise_of_forall_mem_list fun c _ d hd hboth => hbreak ?_), hlast⟩
  exact hboth.2 ▸ hd

theorem Inline.of_noMinus {cs : List Char} (hminus : '-' ∉ cs) : Inline cs := by
  refine ⟨List.Pairwise.isChain (List.pairwise_of_forall_mem_list fun c hc d _ hboth => hminus ?_), fun hlast => ?_⟩
  · exact hboth.1 ▸ hc
  · exact hminus (List.mem_of_getLast? hlast)

/-- Reading goes from one text to a rest of it. -/
def Reads (cs rest : List Char) : Prop := ∃ read, cs = read ++ rest ∧ Inline read

variable {cs rest rest' : List Char}

theorem Reads.refl (cs : List Char) : Reads cs cs := ⟨[], rfl, .of_noMinus List.not_mem_nil⟩

theorem Reads.trans (h : Reads cs rest) (h' : Reads rest rest') : Reads cs rest' := by
  obtain ⟨read, rfl, hread⟩ := h
  obtain ⟨read', rfl, hread'⟩ := h'
  exact ⟨read ++ read', (List.append_assoc ..).symm, hread.append hread'⟩

theorem reads_expect {c : Char} (h : expect c cs = some rest) (hc : c ≠ '-') : Reads cs rest := by
  cases cs with
  | nil => cases h
  | cons d ds =>
    simp only [expect, Option.ite_none_right_eq_some, Option.some.injEq] at h
    obtain ⟨rfl, rfl⟩ := h
    exact ⟨[d], rfl, .of_noMinus (by simpa using hc.symm)⟩

theorem reads_expectAll : ∀ {word cs : List Char}, expectAll word cs = some rest → '-' ∉ word → Reads cs rest
  | [], cs, h, _ => by
    cases h
    exact .refl _
  | c :: word, cs, h, hword => by
    obtain ⟨ds, hfirst, hmore⟩ := Option.bind_eq_some_iff.mp h
    rw [List.mem_cons, not_or] at hword
    exact (reads_expect hfirst (Ne.symm hword.1)).trans (reads_expectAll hmore hword.2)

theorem reads_skipSpace (cs : List Char) : Reads cs (skipSpace cs) := by
  refine ⟨cs.takeWhile isSpace, (List.takeWhile_append_dropWhile ..).symm, .of_noMinus fun hmem => ?_⟩
  cases (List.mem_takeWhile_imp hmem : isSpace '-' = true)

theorem inline_digits {digits : List Char} (hdigits : ∀ c ∈ digits, c.isDigit = true) : Inline digits := by
  refine .of_noMinus fun hmem => ?_
  cases (hdigits _ hmem : Char.isDigit '-' = true)

theorem reads_signed (hsome : ((expect '-' cs).getD cs).takeWhile Char.isDigit ≠ []) :
    Reads cs (((expect '-' cs).getD cs).dropWhile Char.isDigit) := by
  have hall : ∀ ds : List Char, ∀ c ∈ ds.takeWhile Char.isDigit, c.isDigit = true := fun ds c hc =>
    List.mem_takeWhile_imp hc
  cases hsign : expect '-' cs with
  | none => exact ⟨_, (List.takeWhile_append_dropWhile ..).symm, inline_digits (hall cs)⟩
  | some ds =>
    rw [hsign, Option.getD_some] at hsome
    rw [Option.getD_some]
    cases cs with
    | nil => cases hsign
    | cons c cs =>
      simp only [expect, Option.ite_none_right_eq_some, Option.some.injEq] at hsign
      obtain ⟨rfl, rfl⟩ := hsign
      refine ⟨'-' :: cs.takeWhile Char.isDigit, ?_, .of_noBreak ?_ ?_⟩
      · rw [List.cons_append, List.takeWhile_append_dropWhile]
      · rw [List.mem_cons, not_or]
        exact ⟨by decide, fun hmem => nomatch (hall _ _ hmem : Char.isDigit '\n' = true)⟩
      · obtain ⟨d, digits, heq⟩ := List.exists_cons_of_ne_nil hsome
        rw [heq, List.getLast?_cons_cons, ← heq]
        exact fun hlast => nomatch (hall _ _ (List.mem_of_getLast? hlast) : Char.isDigit '-' = true)

theorem reads_skipDigits (h : skipDigits cs = some rest) : Reads cs rest := by
  simp only [skipDigits, Option.ite_none_left_eq_some, Option.some.injEq] at h
  obtain ⟨-, rfl⟩ := h
  exact ⟨_, (List.takeWhile_append_dropWhile ..).symm, inline_digits fun c hc => List.mem_takeWhile_imp hc⟩

theorem reads_skipFraction (h : skipFraction cs = some rest) : Reads cs rest := by
  unfold skipFraction at h
  split at h
  next ds hpoint => exact (reads_expect hpoint (by decide)).trans (reads_skipDigits h)
  next =>
    cases h
    exact .refl _

theorem reads_skipExponent (h : skipExponent cs = some rest) : Reads cs rest := by
  unfold skipExponent at h
  split at h
  next ds hletter =>
    have hfirst : Reads cs ds := by
      rcases Option.or_eq_some_iff.mp hletter with hsmall | ⟨-, hlarge⟩
      · exact reads_expect hsmall (by decide)
      · exact reads_expect hlarge (by decide)
    refine hfirst.trans ?_
    cases hminus : expect '-' ds with
    | some es =>
      simp only [hminus, Option.some_or, Option.getD_some, skipDigits, Option.ite_none_left_eq_some,
        Option.some.injEq] at h
      obtain ⟨hsome, rfl⟩ := h
      have hsigned : Reads ds (((expect '-' ds).getD ds).dropWhile Char.isDigit) := reads_signed (by rwa [hminus])
      rwa [hminus] at hsigned
    | none =>
      rw [hminus, Option.none_or] at h
      cases hplus : expect '+' ds with
      | some es =>
        rw [hplus] at h
        exact (reads_expect hplus (by decide)).trans (reads_skipDigits h)
      | none =>
        rw [hplus] at h
        exact reads_skipDigits h
  next =>
    cases h
    exact .refl _

theorem noBreak_of_hexText : ∀ {cs : List Char} {value n : Nat}, hexText cs value = some n → '\n' ∉ cs
  | [], _, _, _ => List.not_mem_nil
  | c :: cs, value, n, h => by
    obtain ⟨digit, hdigit, hmore⟩ := Option.bind_eq_some_iff.mp h
    rw [List.mem_cons, not_or]
    refine ⟨?_, noBreak_of_hexText hmore⟩
    rintro rfl
    cases hdigit

theorem noBreak_of_readUnit {unit : Nat} (h : readUnit cs = some (unit, rest)) :
    ∃ read, cs = read ++ rest ∧ '\n' ∉ read := by
  simp only [readUnit, Option.ite_none_left_eq_some, Option.map_eq_some_iff, Prod.mk.injEq] at h
  obtain ⟨-, n, hhex, -, rfl⟩ := h
  exact ⟨_, (List.take_append_drop ..).symm, noBreak_of_hexText hhex⟩

theorem noBreak_of_expectAll : ∀ {word cs : List Char}, expectAll word cs = some rest → cs = word ++ rest
  | [], cs, h => Option.some.inj h
  | c :: word, cs, h => by
    obtain ⟨ds, hfirst, hmore⟩ := Option.bind_eq_some_iff.mp h
    cases cs with
    | nil => cases hfirst
    | cons d cs =>
      simp only [expect, Option.ite_none_right_eq_some, Option.some.injEq] at hfirst
      obtain ⟨rfl, rfl⟩ := hfirst
      rw [noBreak_of_expectAll hmore, List.cons_append]

theorem noBreak_of_readEscape {c : Char} (h : readEscape cs = some (c, rest)) :
    ∃ read, cs = read ++ rest ∧ '\n' ∉ read := by
  cases cs with
  | nil => cases h
  | cons d ds =>
    rw [readEscape] at h
    split at h
    next hd =>
      obtain ⟨⟨unit, ds'⟩, hunit, hchar⟩ := Option.map_eq_some_iff.mp h
      obtain ⟨read, rfl, hread⟩ := noBreak_of_readUnit hunit
      have hfirst : '\n' ∉ d :: read := by
        rw [List.mem_cons, not_or, hd]
        exact ⟨by decide, hread⟩
      simp only at hchar
      split at hchar
      · split at hchar
        next low hlow =>
          obtain ⟨es, hletters, hlow'⟩ := Option.bind_eq_some_iff.mp hlow
          obtain ⟨⟨unit', es'⟩, hunit', hsecond⟩ := Option.bind_eq_some_iff.mp hlow'
          obtain ⟨read', rfl, hread'⟩ := noBreak_of_readUnit hunit'
          simp only [Option.ite_none_right_eq_some, Option.some.injEq] at hsecond
          obtain ⟨-, rfl⟩ := hsecond
          obtain ⟨-, rfl⟩ := Prod.mk.inj hchar
          refine ⟨d :: read ++ (['\\', 'u'] ++ read'), ?_, ?_⟩
          · rw [noBreak_of_expectAll hletters]
            simp
          · rw [List.mem_append, List.mem_append, not_or, not_or]
            exact ⟨hfirst, by decide, hread'⟩
        next =>
          cases hchar
          exact ⟨d :: read, rfl, hfirst⟩
      · split at hchar <;> obtain ⟨-, rfl⟩ := Prod.mk.inj hchar <;> exact ⟨d :: read, rfl, hfirst⟩
    next =>
      obtain ⟨e, hletter, ⟨⟩⟩ := Option.map_eq_some_iff.mp h
      refine ⟨[d], rfl, fun hmem => ?_⟩
      rw [← List.mem_singleton.mp hmem] at hletter
      cases hletter

theorem reads_readChars {fuel : Nat} {text : List Char} (h : readChars fuel cs = some (text, rest)) :
    ∃ read, cs = read ++ rest ∧ '\n' ∉ read ∧ read.getLast? = some '"' := by
  have hcons : ∀ {front read : List Char}, '\n' ∉ front → '\n' ∉ read ∧ read.getLast? = some '"' →
      '\n' ∉ front ++ read ∧ (front ++ read).getLast? = some '"' := by
    rintro front read hfront ⟨hread, hlast⟩
    rw [List.mem_append, not_or, List.getLast?_append, hlast]
    exact ⟨⟨hfront, hread⟩, rfl⟩
  induction fuel, cs using readChars.induct generalizing text rest with
  | case1 => cases h
  | case2 => cases h
  | case3 fuel cs =>
    rw [readChars, if_pos rfl] at h
    cases h
    exact ⟨['"'], rfl, by decide, rfl⟩
  | case4 fuel cs hquote ih =>
    rw [readChars, if_neg hquote, if_pos rfl] at h
    obtain ⟨⟨d, ds⟩, hd, hmore⟩ := Option.bind_eq_some_iff.mp h
    obtain ⟨⟨text', ds'⟩, hchars, ⟨⟩⟩ := Option.map_eq_some_iff.mp hmore
    obtain ⟨read, rfl, hread⟩ := noBreak_of_readEscape hd
    obtain ⟨read', hds, hread'⟩ := ih (d, ds) hchars
    have hfront : '\n' ∉ '\\' :: read := by
      rw [List.mem_cons, not_or]
      exact ⟨by decide, hread⟩
    refine ⟨'\\' :: read ++ read', ?_, hcons hfront hread'⟩
    rw [List.cons_append, List.cons_append, List.append_assoc]
    exact congrArg (fun ds => '\\' :: (read ++ ds)) hds
  | case5 fuel c cs hquote hescape hsmall =>
    rw [readChars, if_neg hquote, if_neg hescape, if_pos hsmall] at h
    cases h
  | case6 fuel c cs hquote hescape hsmall ih =>
    rw [readChars, if_neg hquote, if_neg hescape, if_neg hsmall] at h
    obtain ⟨⟨text', ds'⟩, hchars, ⟨⟩⟩ := Option.map_eq_some_iff.mp h
    obtain ⟨read, rfl, hread⟩ := ih hchars
    have hfront : '\n' ∉ [c] := by
      intro hmem
      rw [← List.mem_singleton.mp hmem] at hsmall
      exact hsmall (by decide)
    exact ⟨[c] ++ read, rfl, hcons hfront hread⟩

theorem reads_readString {text : String} (h : readString cs = some (text, rest)) : Reads cs rest := by
  obtain ⟨⟨chars, cs'⟩, hchars, ⟨⟩⟩ := Option.map_eq_some_iff.mp h
  obtain ⟨read, hcs, hbreak, hlast⟩ := reads_readChars hchars
  exact ⟨read, hcs, .of_noBreak hbreak (by simp [hlast])⟩

variable {readDouble : String → String} {value : Json}

theorem reads_readNumber (h : readNumber readDouble cs = some (value, rest)) : Reads cs rest := by
  unfold readNumber at h
  simp only at h
  split at h
  · cases h
  next hdigits =>
    rw [not_or] at hdigits
    obtain ⟨rest', hmore, hsame⟩ := Option.map_eq_some_iff.mp h
    obtain ⟨es, hfraction, hexponent⟩ := Option.bind_eq_some_iff.mp hmore
    have hread := ((reads_signed hdigits.1).trans (reads_skipFraction hfraction)).trans (reads_skipExponent hexponent)
    split at hsame <;> obtain ⟨-, rfl⟩ := Prod.mk.inj hsame <;> exact hread

theorem reads_readScalar (h : readScalar readDouble cs = some (value, rest)) : Reads cs rest := by
  unfold readScalar at h
  split at h
  next ds hword =>
    cases h
    exact reads_expectAll hword (by decide)
  next =>
    split at h
    next ds hword =>
      cases h
      exact reads_expectAll hword (by decide)
    next =>
      split at h
      next ds hword =>
        cases h
        exact reads_expectAll hword (by decide)
      next => exact reads_readNumber h

theorem reads_values (fuel : Nat) :
    (∀ {cs rest : List Char} {value : Json}, readValue readDouble fuel cs = some (value, rest) → Reads cs rest) ∧
    (∀ {cs rest : List Char} {items : List Json}, readItems readDouble fuel cs = some (items, rest) → Reads cs rest) ∧
    ∀ {entries entries' : JsonMap} {cs rest : List Char},
      readEntries readDouble fuel entries cs = some (entries', rest) → Reads cs rest := by
  induction fuel with
  | zero =>
    exact ⟨fun h => by simp [readValue] at h, fun h => by simp [readItems] at h, fun h => by simp [readEntries] at h⟩
  | succ fuel ih =>
    obtain ⟨hvalue, hitems, hentries⟩ := ih
    have hspaced : ∀ {c : Char} {cs rest rest' : List Char}, c ≠ '-' → expect c (skipSpace cs) = some rest →
        Reads (skipSpace rest) rest' → Reads cs rest' := fun hc hexpect hmore =>
      ((reads_skipSpace _).trans (reads_expect hexpect hc)).trans ((reads_skipSpace _).trans hmore)
    have hclosed : ∀ {c : Char} {cs rest : List Char}, c ≠ '-' → expect c (skipSpace cs) = some rest → Reads cs rest :=
      fun hc hexpect => (reads_skipSpace _).trans (reads_expect hexpect hc)
    refine ⟨?_, ?_, ?_⟩
    · intro cs rest value h
      rw [readValue] at h
      split at h
      next ds hquote =>
        obtain ⟨⟨text, ds'⟩, hstring, ⟨⟩⟩ := Option.map_eq_some_iff.mp h
        exact (reads_expect hquote (by decide)).trans (reads_readString hstring)
      next =>
        split at h
        next ds hbracket =>
          have hfirst := reads_expect hbracket (by decide)
          split at h
          next ds' hend =>
            cases h
            exact hfirst.trans (hclosed (by decide) hend)
          next =>
            obtain ⟨⟨items, ds'⟩, hmore, ⟨⟩⟩ := Option.map_eq_some_iff.mp h
            exact hfirst.trans ((reads_skipSpace _).trans (hitems hmore))
        next =>
          split at h
          next ds hbrace =>
            have hfirst := reads_expect hbrace (by decide)
            split at h
            next ds' hend =>
              cases h
              exact hfirst.trans (hclosed (by decide) hend)
            next =>
              obtain ⟨⟨entries, ds'⟩, hmore, ⟨⟩⟩ := Option.map_eq_some_iff.mp h
              exact hfirst.trans ((reads_skipSpace _).trans (hentries hmore))
          next => exact reads_readScalar h
    · intro cs rest items h
      rw [readItems] at h
      obtain ⟨⟨value, ds⟩, hfirst, hmore⟩ := Option.bind_eq_some_iff.mp h
      refine (hvalue hfirst).trans ?_
      split at hmore
      next es hcomma =>
        obtain ⟨⟨items', es'⟩, hrest, ⟨⟩⟩ := Option.map_eq_some_iff.mp hmore
        exact hspaced (by decide) hcomma (hitems hrest)
      next =>
        obtain ⟨es, hend, ⟨⟩⟩ := Option.map_eq_some_iff.mp hmore
        exact hclosed (by decide) hend
    · intro entries entries' cs rest h
      rw [readEntries] at h
      obtain ⟨ds, hquote, hmore⟩ := Option.bind_eq_some_iff.mp h
      obtain ⟨⟨key, ds'⟩, hkey, hmore⟩ := Option.bind_eq_some_iff.mp hmore
      obtain ⟨es, hcolon, hmore⟩ := Option.bind_eq_some_iff.mp hmore
      obtain ⟨⟨value, es'⟩, hfirst, hmore⟩ := Option.bind_eq_some_iff.mp hmore
      refine ((reads_expect hquote (by decide)).trans (reads_readString hkey)).trans ?_
      refine hspaced (by decide) hcolon ((hvalue hfirst).trans ?_)
      split at hmore
      next fs hcomma => exact hspaced (by decide) hcomma (hentries hmore)
      next =>
        obtain ⟨fs, hend, ⟨⟩⟩ := Option.map_eq_some_iff.mp hmore
        exact hclosed (by decide) hend

/-- **No line of a text that can be read ends with a minus sign.** -/
theorem inline_of_decode {source : String} (h : decode readDouble source = some value) : Inline source.toList := by
  obtain ⟨⟨value', ds⟩, hvalue, hend⟩ := Option.bind_eq_some_iff.mp h
  simp only [Option.ite_none_right_eq_some] at hend
  have hread : Reads source.toList (skipSpace ds) :=
    ((reads_skipSpace _).trans ((reads_values _).1 hvalue)).trans (reads_skipSpace ds)
  rw [hend.1] at hread
  obtain ⟨read, hread, hinline⟩ := hread
  rw [hread, List.append_nil]
  exact hinline

end Portix.Lib.Json
