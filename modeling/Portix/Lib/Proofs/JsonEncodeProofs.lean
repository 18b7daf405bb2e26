import Portix.Lib.Proofs.JsonProofs

/-!
# Soundness theorems for what is written as JSON

Values that are written alike are the same.
-/

namespace Portix.Lib.Json

def tag : Json → Char
  | .null => 'n'
  | .bool true => 't'
  | .bool false => 'f'
  | .int _ => '0'
  | .double _ => '0'
  | .string _ => '"'
  | .list _ => '['
  | .map _ => '\x7b'

def tagOf (c : Char) : Char := if c = '-' ∨ c.isDigit = true then '0' else c

variable {value : Json} (depth : Nat)

theorem head_print (h : value.encodable = true) :
    ∃ c cs, print compact depth value = c :: cs ∧ tagOf c = value.tag := by
  cases value with
  | null => exact ⟨'n', _, rfl, rfl⟩
  | bool b =>
    cases b with
    | false => exact ⟨'f', _, rfl, rfl⟩
    | true => exact ⟨'t', _, rfl, rfl⟩
  | int n =>
    obtain ⟨c, cs, heq, hc⟩ := intChars_eq_cons n
    exact ⟨c, cs, by rw [print, heq], if_pos hc⟩
  | double text =>
    rw [encodable, isDoubleText, Bool.and_eq_true] at h
    obtain ⟨c, hhead, hc⟩ := (Option.any_eq_true _ _).mp h.2
    obtain ⟨cs, heq⟩ := List.head?_eq_some_iff.mp hhead
    rw [Bool.or_eq_true, beq_iff_eq] at hc
    exact ⟨c, cs, by rw [print, heq], if_pos hc⟩
  | string s => exact ⟨'"', _, rfl, rfl⟩
  | list items =>
    cases items with
    | nil => exact ⟨'[', _, rfl, rfl⟩
    | cons item rest => exact ⟨'[', _, rfl, rfl⟩
  | map entries =>
    cases entries with
    | nil => exact ⟨'\x7b', _, rfl, rfl⟩
    | cons entry rest => exact ⟨'\x7b', _, rfl, rfl⟩

theorem tag_eq {depth : Nat} {value value' : Json} {r s : List Char} (hv : value.encodable = true)
    (hv' : value'.encodable = true) (h : print compact depth value ++ r = print compact depth value' ++ s) :
    value.tag = value'.tag := by
  obtain ⟨c, cs, heq, hc⟩ := head_print depth hv
  obtain ⟨c', cs', heq', hc'⟩ := head_print depth hv'
  rw [heq, heq', List.cons_append, List.cons_append] at h
  rw [← hc, ← hc', (List.cons.inj h).1]

/-- What can come after a value: the end, or a character that is none of a number. -/
def Ends (rest : List Char) : Prop := ∀ c ∈ rest.head?, isNumeralChar c = false

theorem takeWhile_numeral {token rest : List Char} (htoken : ∀ c ∈ token, isNumeralChar c = true) (hrest : Ends rest) :
    (token ++ rest).takeWhile isNumeralChar = token := by
  rw [List.takeWhile_append_of_pos htoken]
  cases rest with
  | nil => rw [List.takeWhile_nil, List.append_nil]
  | cons c cs => rw [List.takeWhile_cons_of_neg (by simp [hrest c rfl]), List.append_nil]

theorem numeral_unique {token token' r s : List Char} (htoken : ∀ c ∈ token, isNumeralChar c = true)
    (htoken' : ∀ c ∈ token', isNumeralChar c = true) (hr : Ends r) (hs : Ends s) (h : token ++ r = token' ++ s) :
    token = token' ∧ r = s := by
  have htokens : token = token' := by
    rw [← takeWhile_numeral htoken hr, h, takeWhile_numeral htoken' hs]
  subst htokens
  exact ⟨rfl, List.append_cancel_left h⟩

variable {c : Char}

theorem isNumeralChar_of_isDigit (hc : c.isDigit = true) : isNumeralChar c = true ∧ (c == '.' || c == 'e') = false := by
  have hne : ∀ d : Char, d.isDigit = false → (c == d) = false := by
    intro d hd
    rw [beq_eq_false_iff_ne]
    rintro rfl
    rw [hc] at hd
    cases hd
  rw [isNumeralChar, hc, hne '.' (by decide), hne 'e' (by decide)]
  exact ⟨rfl, rfl⟩

theorem isNumeralChar_of_mem_intChars {n : Int64} (hc : c ∈ intChars n) :
    isNumeralChar c = true ∧ (c == '.' || c == 'e') = false := by
  rw [intChars] at hc
  split at hc
  · rcases List.mem_cons.mp hc with rfl | hc
    · exact ⟨by decide, by decide⟩
    · exact isNumeralChar_of_isDigit (isDigit_of_mem_digits hc)
  · exact isNumeralChar_of_isDigit (isDigit_of_mem_digits hc)

theorem intChars_injective {m n : Int64} (h : intChars m = intChars n) : m = n := by
  have hm := readNumber_intChars id m Stops.nil
  have hn := readNumber_intChars id n Stops.nil
  rw [h, hn, Option.some.injEq, Prod.mk.injEq, Json.int.injEq] at hm
  exact hm.1.symm

theorem isNumeralChar_of_double {text : String} (h : isDoubleText text = true) :
    (∀ c ∈ text.toList, isNumeralChar c = true) ∧ ∃ c ∈ text.toList, (c == '.' || c == 'e') = true := by
  rw [isDoubleText, Bool.and_eq_true, Bool.and_eq_true, List.all_eq_true, List.any_eq_true] at h
  exact h.1

theorem quote_unique {s s' : String} {r r' : List Char} (h : quote s ++ r = quote s' ++ r') : s = s' ∧ r = r' := by
  have hsplit : ∀ (s : String) (r : List Char), quote s ++ r = '"' :: (s.toList.flatMap escape ++ '"' :: r) := by
    intro s r
    rw [quote, List.append_assoc]
    rfl
  rw [hsplit, hsplit, List.cons.injEq] at h
  have hread := readString_quote s r
  rw [h.2, readString_quote, Option.some.injEq, Prod.mk.injEq] at hread
  exact ⟨hread.1.symm, hread.2.symm⟩

theorem ends_of_head (hc : isNumeralChar c = false) (rest : List Char) : Ends (c :: rest) := by
  rintro _ ⟨⟩
  exact hc

theorem ends_items (depth : Nat) (items : List Json) (hc : isNumeralChar c = false) (rest : List Char) :
    Ends (printItems compact depth items ++ c :: rest) := by
  cases items with
  | nil => exact ends_of_head hc rest
  | cons item items => exact ends_of_head (by decide) _

theorem ends_entries (depth : Nat) (entries : JsonMap) (hc : isNumeralChar c = false)
    (rest : List Char) : Ends (printEntries compact depth entries ++ c :: rest) := by
  cases entries with
  | nil => exact ends_of_head hc rest
  | cons entry entries => exact ends_of_head (by decide) _

theorem print_list (item : Json) (items : List Json) (rest : List Char) :
    print compact depth (.list (item :: items)) ++ rest
      = '[' :: (print compact (depth + 1) item ++ (printItems compact (depth + 1) items ++ ']' :: rest)) := by
  simp [print, compact]

theorem print_map (key : String) (value : Json) (entries : JsonMap) (rest : List Char) :
    print compact depth (.map ((key, value) :: entries)) ++ rest = '\x7b' :: (quote key ++ ':' ::
        (print compact (depth + 1) value ++ (printEntries compact (depth + 1) entries ++ '\x7d' :: rest))) := by
  simp [print, compact]

theorem printItems_cons (item : Json) (items : List Json) (rest : List Char) :
    printItems compact depth (item :: items) ++ rest
      = ',' :: (print compact depth item ++ (printItems compact depth items ++ rest)) := by
  simp [printItems, compact]

theorem printEntries_cons (key : String) (value : Json) (entries : JsonMap)
    (rest : List Char) :
    printEntries compact depth ((key, value) :: entries) ++ rest
      = ',' :: (quote key ++ ':' :: (print compact depth value ++ (printEntries compact depth entries ++ rest))) := by
  simp [printEntries, compact]

theorem list_of_tag (h : value.tag = '[') : ∃ items, value = .list items := by
  cases value with
  | list items => exact ⟨items, rfl⟩
  | bool b => cases b <;> simp [tag] at h
  | _ => simp [tag] at h

theorem map_of_tag (h : value.tag = '\x7b') : ∃ entries, value = .map entries := by
  cases value with
  | map entries => exact ⟨entries, rfl⟩
  | bool b => cases b <;> simp [tag] at h
  | _ => simp [tag] at h

theorem string_of_tag (h : value.tag = '"') : ∃ text, value = .string text := by
  cases value with
  | string text => exact ⟨text, rfl⟩
  | bool b => cases b <;> simp [tag] at h
  | _ => simp [tag] at h

theorem number_of_tag (h : value.tag = '0') : (∃ n, value = .int n) ∨ ∃ text, value = .double text := by
  cases value with
  | int n => exact .inl ⟨n, rfl⟩
  | double text => exact .inr ⟨text, rfl⟩
  | bool b => cases b <;> simp [tag] at h
  | _ => simp [tag] at h

theorem word_of_tag {value value' : Json} (hv : value = .null ∨ ∃ b, value = .bool b) (h : value.tag = value'.tag) :
    value = value' := by
  rcases hv with rfl | ⟨b, rfl⟩
  · cases value' with
    | null => rfl
    | bool b => cases b <;> simp [tag] at h
    | _ => simp [tag] at h
  · cases value' with
    | bool b' => cases b <;> cases b' <;> simp [tag] at h ⊢
    | _ => cases b <;> simp [tag] at h

theorem number_unique {value value' : Json} {depth : Nat} {r s : List Char} (hv : value.encodable = true)
    (hv' : value'.encodable = true) (hr : Ends r) (hs : Ends s)
    (hnumber : (∃ n, value = .int n) ∨ ∃ text, value = .double text)
    (hnumber' : (∃ n, value' = .int n) ∨ ∃ text, value' = .double text)
    (h : print compact depth value ++ r = print compact depth value' ++ s) : value = value' ∧ r = s := by
  have hapart : ∀ (n : Int64) (text : String), isDoubleText text = true → intChars n ≠ text.toList := by
    intro n text htext heq
    obtain ⟨c, hc, hpoint⟩ := (isNumeralChar_of_double htext).2
    rw [← heq] at hc
    rw [(isNumeralChar_of_mem_intChars hc).2] at hpoint
    cases hpoint
  rcases hnumber with ⟨n, rfl⟩ | ⟨text, rfl⟩
  · rcases hnumber' with ⟨n', rfl⟩ | ⟨text', rfl⟩
    · obtain ⟨htoken, hrest⟩ := numeral_unique (fun c hc => (isNumeralChar_of_mem_intChars hc).1)
        (fun c hc => (isNumeralChar_of_mem_intChars hc).1) hr hs h
      exact ⟨congrArg Json.int (intChars_injective htoken), hrest⟩
    · obtain ⟨htoken, _⟩ := numeral_unique (fun c hc => (isNumeralChar_of_mem_intChars hc).1)
        (isNumeralChar_of_double hv').1 hr hs h
      exact absurd htoken (hapart n text' hv')
  · rcases hnumber' with ⟨n', rfl⟩ | ⟨text', rfl⟩
    · obtain ⟨htoken, _⟩ := numeral_unique (isNumeralChar_of_double hv).1
        (fun c hc => (isNumeralChar_of_mem_intChars hc).1) hr hs h
      exact absurd htoken.symm (hapart n' text hv)
    · obtain ⟨htoken, hrest⟩ := numeral_unique (isNumeralChar_of_double hv).1 (isNumeralChar_of_double hv').1 hr hs h
      exact ⟨congrArg Json.double (String.toList_inj.mp htoken), hrest⟩

theorem print_ne_bracket {depth : Nat} (hv : value.encodable = true) {x y : List Char} :
    print compact depth value ++ x ≠ ']' :: y := by
  intro h
  obtain ⟨c, cs, heq, hc⟩ := head_print depth hv
  rw [heq, List.cons_append, List.cons.injEq] at h
  rw [h.1] at hc
  cases value with
  | bool b => cases b <;> exact absurd hc (by decide)
  | _ => exact absurd hc (by simp [tag, tagOf])

mutual

theorem print_unique : ∀ (value value' : Json) (depth : Nat) (r s : List Char), value.encodable = true →
    value'.encodable = true → Ends r → Ends s →
    print compact depth value ++ r = print compact depth value' ++ s → value = value' ∧ r = s
  | .null, value', depth, r, s, hv, hv', _, _, h => by
    obtain rfl := word_of_tag (.inl rfl) (tag_eq hv hv' h)
    exact ⟨rfl, List.append_cancel_left h⟩
  | .bool b, value', depth, r, s, hv, hv', _, _, h => by
    obtain rfl := word_of_tag (.inr ⟨b, rfl⟩) (tag_eq hv hv' h)
    exact ⟨rfl, List.append_cancel_left h⟩
  | .int n, value', depth, r, s, hv, hv', hr, hs, h =>
    number_unique hv hv' hr hs (.inl ⟨n, rfl⟩) (number_of_tag (tag_eq hv hv' h).symm) h
  | .double text, value', depth, r, s, hv, hv', hr, hs, h =>
    number_unique hv hv' hr hs (.inr ⟨text, rfl⟩) (number_of_tag (tag_eq hv hv' h).symm) h
  | .string text, value', depth, r, s, hv, hv', _, _, h => by
    obtain ⟨text', rfl⟩ := string_of_tag (tag_eq hv hv' h).symm
    obtain ⟨rfl, rfl⟩ := quote_unique h
    exact ⟨rfl, rfl⟩
  | .list [], value', depth, r, s, hv, hv', _, _, h => by
    obtain ⟨items', rfl⟩ := list_of_tag (tag_eq hv hv' h).symm
    cases items' with
    | nil => exact ⟨rfl, List.append_cancel_left h⟩
    | cons item' items' =>
      rw [encodable, encodableItems, Bool.and_eq_true] at hv'
      rw [print_list] at h
      exact absurd (List.cons.inj h).2.symm (print_ne_bracket hv'.1)
  | .list (item :: items), value', depth, r, s, hv, hv', _, _, h => by
    obtain ⟨items', rfl⟩ := list_of_tag (tag_eq hv hv' h).symm
    rw [encodable, encodableItems, Bool.and_eq_true] at hv
    cases items' with
    | nil =>
      rw [print_list] at h
      exact absurd (List.cons.inj h).2 (print_ne_bracket hv.1)
    | cons item' items' =>
      rw [encodable, encodableItems, Bool.and_eq_true] at hv'
      rw [print_list, print_list] at h
      obtain ⟨rfl, hrest⟩ := print_unique item item' (depth + 1) _ _ hv.1 hv'.1
        (ends_items _ _ (by decide) _) (ends_items _ _ (by decide) _) (List.cons.inj h).2
      obtain ⟨rfl, rfl⟩ := printItems_unique items items' (depth + 1) r s hv.2 hv'.2 hrest
      exact ⟨rfl, rfl⟩
  | .map [], value', depth, r, s, hv, hv', _, _, h => by
    obtain ⟨entries', rfl⟩ := map_of_tag (tag_eq hv hv' h).symm
    cases entries' with
    | nil => exact ⟨rfl, List.append_cancel_left h⟩
    | cons entry' entries' =>
      rw [print_map] at h
      exact absurd (List.cons.inj (List.cons.inj h).2).1 (by decide)
  | .map ((key, value) :: entries), value', depth, r, s, hv, hv', _, _, h => by
    obtain ⟨entries', rfl⟩ := map_of_tag (tag_eq hv hv' h).symm
    rw [encodable, encodableEntries, Bool.and_eq_true] at hv
    cases entries' with
    | nil =>
      rw [print_map] at h
      exact absurd (List.cons.inj (List.cons.inj h).2).1 (by decide)
    | cons entry' entries' =>
      obtain ⟨key', value'⟩ := entry'
      rw [encodable, encodableEntries, Bool.and_eq_true] at hv'
      rw [print_map, print_map] at h
      obtain ⟨rfl, hvalue⟩ := quote_unique (List.cons.inj h).2
      obtain ⟨rfl, hrest⟩ := print_unique value value' (depth + 1) _ _ hv.1 hv'.1
        (ends_entries _ _ (by decide) _) (ends_entries _ _ (by decide) _) (List.cons.inj hvalue).2
      obtain ⟨rfl, rfl⟩ := printEntries_unique entries entries' (depth + 1) r s hv.2 hv'.2 hrest
      exact ⟨rfl, rfl⟩

theorem printItems_unique : ∀ (items items' : List Json) (depth : Nat) (r s : List Char),
    encodableItems items = true → encodableItems items' = true →
    printItems compact depth items ++ ']' :: r = printItems compact depth items' ++ ']' :: s → items = items' ∧ r = s
  | [], items', depth, r, s, _, _, h => by
    cases items' with
    | nil => exact ⟨rfl, (List.cons.inj h).2⟩
    | cons item' items' => exact absurd (List.cons.inj h).1 (by decide)
  | item :: items, items', depth, r, s, hv, hv', h => by
    cases items' with
    | nil => exact absurd (List.cons.inj h).1 (by decide)
    | cons item' items' =>
      rw [encodableItems, Bool.and_eq_true] at hv hv'
      rw [printItems_cons, printItems_cons] at h
      obtain ⟨rfl, hrest⟩ := print_unique item item' depth _ _ hv.1 hv'.1
        (ends_items _ _ (by decide) _) (ends_items _ _ (by decide) _) (List.cons.inj h).2
      obtain ⟨rfl, rfl⟩ := printItems_unique items items' depth r s hv.2 hv'.2 hrest
      exact ⟨rfl, rfl⟩

theorem printEntries_unique : ∀ (entries entries' : JsonMap) (depth : Nat) (r s : List Char),
    encodableEntries entries = true → encodableEntries entries' = true →
    printEntries compact depth entries ++ '\x7d' :: r = printEntries compact depth entries' ++ '\x7d' :: s →
    entries = entries' ∧ r = s
  | [], entries', depth, r, s, _, _, h => by
    cases entries' with
    | nil => exact ⟨rfl, (List.cons.inj h).2⟩
    | cons entry' entries' => exact absurd (List.cons.inj h).1 (by decide)
  | (key, value) :: entries, entries', depth, r, s, hv, hv', h => by
    cases entries' with
    | nil => exact absurd (List.cons.inj h).1 (by decide)
    | cons entry' entries' =>
      obtain ⟨key', value'⟩ := entry'
      rw [encodableEntries, Bool.and_eq_true] at hv hv'
      rw [printEntries_cons, printEntries_cons] at h
      obtain ⟨rfl, hvalue⟩ := quote_unique (List.cons.inj h).2
      obtain ⟨rfl, hrest⟩ := print_unique value value' depth _ _ hv.1 hv'.1
        (ends_entries _ _ (by decide) _) (ends_entries _ _ (by decide) _) (List.cons.inj hvalue).2
      obtain ⟨rfl, rfl⟩ := printEntries_unique entries entries' depth r s hv.2 hv'.2 hrest
      exact ⟨rfl, rfl⟩

end

theorem jsonEncode_injective {value value' : Json} {text : String} (h : jsonEncode value = some text)
    (h' : jsonEncode value' = some text) : value = value' := by
  rw [jsonEncode] at h h'
  split at h
  · rename_i hv
    split at h'
    · rename_i hv'
      have htext := (Option.some.inj h).trans (Option.some.inj h').symm
      have hprint : print compact 0 value ++ [] = print compact 0 value' ++ [] := by
        rw [List.append_nil, List.append_nil]
        exact String.ofList_injective htext
      exact (print_unique value value' 0 [] [] hv hv' (by simp [Ends]) (by simp [Ends]) hprint).1
    · cases h'
  · cases h

end Portix.Lib.Json
