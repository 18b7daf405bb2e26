import Mathlib.Algebra.GroupWithZero.Nat
import Mathlib.Data.List.DropRight
import Mathlib.Data.List.Infix

/-!
# Text

The string operations of the source's languages, on the characters of a string.
-/

namespace Portix.Lib

/-- A character with the Unicode property `White_Space` (`char::is_whitespace`). -/
def isWhitespace (c : Char) : Bool :=
  let n := c.toNat
  (9 ≤ n && n ≤ 13) || n == 0x20 || n == 0x85 || n == 0xA0 || n == 0x1680 ||
    (0x2000 ≤ n && n ≤ 0x200A) || n == 0x2028 || n == 0x2029 || n == 0x202F || n == 0x205F ||
    n == 0x3000

/-- What `String.trim` of Dart removes: white space and the byte order mark. -/
def isDartWhitespace (c : Char) : Bool := isWhitespace c || c.toNat == 0xFEFF

def isRegExpSpace (c : Char) : Bool := isDartWhitespace c && c.toNat != 0x85

def trimBy (p : Char → Bool) (s : String) : String :=
  String.ofList ((s.toList.dropWhile p).rdropWhile p)

def trim (s : String) : String := trimBy isWhitespace s

def dartTrim (s : String) : String := trimBy isDartWhitespace s

def firstIs (p : Char → Bool) (s : String) : Bool := s.toList.head?.any p

def lastIs (p : Char → Bool) (s : String) : Bool := s.toList.getLast?.any p

variable {s : String} {p : Char → Bool} {c : Char} {cs : List Char}

theorem toList_trimBy_of_head (hs : s.toList = c :: cs) (hc : p c = false) :
    (trimBy p s).toList = s.toList.rdropWhile p := by
  simp [trimBy, hs, hc]

theorem toList_trimBy_cons (hs : s.toList = c :: cs) (hc : p c = false) : ∃ ds, (trimBy p s).toList = c :: ds := by
  rw [toList_trimBy_of_head hs hc, hs]
  obtain ⟨t, ht⟩ := List.rdropWhile_prefix p (l := c :: cs)
  cases hd : (c :: cs).rdropWhile p with
  | nil =>
    have hall := (List.rdropWhile_eq_nil_iff.mp hd) c (List.mem_cons_self ..)
    rw [hc] at hall
    exact absurd hall (by simp)
  | cons d ds =>
    rw [hd, List.cons_append, List.cons.injEq] at ht
    exact ⟨ds, by rw [ht.1]⟩

theorem toList_trimBy_prefix (hs : s.toList = c :: cs) (hc : p c = false) : (trimBy p s).toList <+: s.toList := by
  rw [toList_trimBy_of_head hs hc]
  exact List.rdropWhile_prefix p _

/-- A text that does not start with a removed character is kept by trimming exactly when it does
not end with one. -/
theorem trimBy_eq_self_iff (hs : s.toList = c :: cs) (hc : p c = false) : trimBy p s = s ↔ lastIs p s = false := by
  have hne : s.toList ≠ [] := by rw [hs]; exact List.cons_ne_nil c cs
  rw [← String.toList_inj, toList_trimBy_of_head hs hc, List.rdropWhile_eq_self_iff, lastIs,
    List.getLast?_eq_getLast_of_ne_nil hne]
  simp [hne]

theorem trimBy_trimBy (p : Char → Bool) (s : String) : trimBy p (trimBy p s) = trimBy p s := by
  have hhead : ((s.toList.dropWhile p).rdropWhile p).dropWhile p = (s.toList.dropWhile p).rdropWhile p := by
    obtain ⟨t, ht⟩ := List.rdropWhile_prefix p (l := s.toList.dropWhile p)
    cases hcs : (s.toList.dropWhile p).rdropWhile p with
    | nil => rfl
    | cons c cs =>
      have hdrop : s.toList.dropWhile p = c :: (cs ++ t) := by rw [← ht, hcs]; rfl
      have hc : p c = false := by
        have hfirst := List.head?_dropWhile_not p s.toList
        rw [hdrop] at hfirst
        simpa using hfirst
      exact List.dropWhile_cons_of_neg (by simp [hc])
  unfold trimBy
  rw [String.toList_ofList, hhead, List.rdropWhile_idempotent]

theorem trimBy_sublist (p : Char → Bool) (s : String) : (trimBy p s).toList.Sublist s.toList := by
  unfold trimBy
  rw [String.toList_ofList]
  exact (List.rdropWhile_prefix p _).sublist.trans (List.dropWhile_sublist p)

theorem mem_trimBy_of_not (hc : c ∈ s.toList) (hp : p c = false) : c ∈ (trimBy p s).toList := by
  have hdrop : ∀ l : List Char, c ∈ l → c ∈ l.dropWhile p := by
    intro l hl
    rw [← List.takeWhile_append_dropWhile (p := p) (l := l)] at hl
    refine (List.mem_append.mp hl).resolve_left fun htake => ?_
    rw [List.mem_takeWhile_imp htake] at hp
    cases hp
  rw [trimBy, String.toList_ofList, List.rdropWhile, List.mem_reverse]
  exact hdrop _ (List.mem_reverse.mpr (hdrop _ hc))

theorem lastIs_mono {p q : Char → Bool} (hpq : ∀ c, p c = true → q c = true) (hq : lastIs q s = false) :
    lastIs p s = false := by
  unfold lastIs at hq ⊢
  cases hl : s.toList.getLast? with
  | none => rfl
  | some c =>
    rw [hl] at hq
    by_contra hp
    have hpc : p c = true := by simpa using hp
    simp [hpq c hpc] at hq

theorem trimBy_eq_self_of (hfirst : firstIs p s = false) (hlast : lastIs p s = false) : trimBy p s = s := by
  cases hs : s.toList with
  | nil => rw [← String.toList_inj, trimBy, hs]; rfl
  | cons c cs =>
    have hc : p c = false := by
      rw [firstIs, hs] at hfirst
      exact hfirst
    exact (trimBy_eq_self_iff hs hc).mpr hlast

theorem firstIs_trimBy (p : Char → Bool) (s : String) : firstIs p (trimBy p s) = false := by
  unfold firstIs trimBy
  rw [String.toList_ofList]
  have hprefix := List.rdropWhile_prefix p (s.toList.dropWhile p)
  have hhead := List.head?_dropWhile_not p s.toList
  cases hl : (s.toList.dropWhile p).rdropWhile p with
  | nil => rfl
  | cons c cs =>
    rw [hl] at hprefix
    obtain ⟨t, ht⟩ := hprefix
    rw [← ht] at hhead
    simpa using hhead

theorem lastIs_trimBy (p : Char → Bool) (s : String) : lastIs p (trimBy p s) = false := by
  unfold lastIs trimBy
  rw [String.toList_ofList]
  by_cases hnil : (s.toList.dropWhile p).rdropWhile p = []
  · rw [hnil]
    rfl
  · rw [List.getLast?_eq_some_getLast hnil, Option.any_some]
    simpa using List.rdropWhile_last_not p _ hnil

variable {α : Type} {l r piece : List α}

theorem rdropWhile_append {p : α → Bool} (h : r.rdropWhile p ≠ []) : (l ++ r).rdropWhile p = l ++ r.rdropWhile p := by
  unfold List.rdropWhile at h ⊢
  rw [List.reverse_append, List.dropWhile_append]
  have hne : (r.reverse.dropWhile p).isEmpty = false := by
    simpa using h
  rw [hne]
  simp

theorem rdropWhile_append_of_nil {p : α → Bool} (h : r.rdropWhile p = []) : (l ++ r).rdropWhile p = l.rdropWhile p := by
  unfold List.rdropWhile at h ⊢
  rw [List.reverse_append, List.dropWhile_append]
  have he : (r.reverse.dropWhile p).isEmpty = true := by
    simpa using h
  rw [he, if_pos rfl]

theorem span_append {p : α → Bool} (hl : ∀ a ∈ l, p a = true)
    (hr : ∀ a ∈ r.head?, p a = false) : (l ++ r).takeWhile p = l ∧ (l ++ r).dropWhile p = r := by
  rw [List.takeWhile_append_of_pos hl, List.dropWhile_append_of_pos hl]
  cases r with
  | nil => exact ⟨List.append_nil l, rfl⟩
  | cons a r =>
    have ha : ¬p a = true := by rw [hr a rfl]; exact Bool.false_ne_true
    rw [List.takeWhile_cons_of_neg ha, List.dropWhile_cons_of_neg ha, List.append_nil]
    exact ⟨rfl, rfl⟩

def stripPrefix (pre s : String) : Option String :=
  if pre.toList.isPrefixOf s.toList then some (String.ofList (s.toList.drop pre.length)) else none

theorem stripPrefix_eq_none {pre s : String} {c d : Char} {cs ds : List Char}
    (hpre : pre.toList = c :: cs) (hs : s.toList = d :: ds) (hne : c ≠ d) :
    stripPrefix pre s = none := by
  simp [stripPrefix, hpre, hs, List.isPrefixOf, hne]

def endsWith (s : String) (c : Char) : Bool := s.toList.getLast? == some c

def containsChar (s : String) (c : Char) : Bool := s.toList.contains c

/-- The pieces of a text between the occurrences of a character (`str::split`). -/
def splitChar (c : Char) (s : String) : List String := (s.toList.splitOn c).map String.ofList

theorem of_mem_splitOnP {p : α → Bool} (h : piece ∈ l.splitOnP p) :
    ∀ a ∈ piece, p a = false ∧ a ∈ l := by
  induction l generalizing piece with
  | nil =>
    rw [List.splitOnP_nil, List.mem_singleton] at h
    subst h
    exact fun a ha => absurd ha List.not_mem_nil
  | cons x rest ih =>
    obtain ⟨first, others, hpieces⟩ := List.exists_cons_of_ne_nil (List.splitOnP_ne_nil p rest)
    rw [hpieces] at ih
    rw [List.splitOnP_cons_eq_if_modifyHead, hpieces] at h
    by_cases hx : p x = true
    · rw [if_pos hx] at h
      rcases List.mem_cons.mp h with rfl | h
      · exact fun a ha => absurd ha List.not_mem_nil
      · exact fun a ha => ⟨(ih h a ha).1, List.mem_cons_of_mem _ (ih h a ha).2⟩
    · rw [if_neg hx, List.modifyHead_cons] at h
      intro a ha
      rcases List.mem_cons.mp h with rfl | h
      · rcases List.mem_cons.mp ha with rfl | ha
        · exact ⟨Bool.eq_false_iff.mpr hx, List.mem_cons_self⟩
        · obtain ⟨hp, hmem⟩ := ih List.mem_cons_self a ha
          exact ⟨hp, List.mem_cons_of_mem _ hmem⟩
      · obtain ⟨hp, hmem⟩ := ih (List.mem_cons_of_mem _ h) a ha
        exact ⟨hp, List.mem_cons_of_mem _ hmem⟩

theorem mem_piece_splitOnP {p : α → Bool} {a : α} (h : a ∈ l) (hp : p a = false) :
    ∃ piece ∈ l.splitOnP p, a ∈ piece := by
  induction l with
  | nil => exact absurd h List.not_mem_nil
  | cons x rest ih =>
    obtain ⟨first, others, hpieces⟩ := List.exists_cons_of_ne_nil (List.splitOnP_ne_nil p rest)
    rw [hpieces] at ih
    rw [List.splitOnP_cons_eq_if_modifyHead, hpieces]
    rcases List.mem_cons.mp h with rfl | h
    · rw [if_neg (Bool.eq_false_iff.mp hp), List.modifyHead_cons]
      exact ⟨_, List.mem_cons_self, List.mem_cons_self⟩
    · obtain ⟨piece, hpiece, ha⟩ := ih h
      by_cases hx : p x = true
      · rw [if_pos hx]
        exact ⟨piece, List.mem_cons_of_mem _ hpiece, ha⟩
      · rw [if_neg hx, List.modifyHead_cons]
        rcases List.mem_cons.mp hpiece with rfl | hpiece
        · exact ⟨_, List.mem_cons_self, List.mem_cons_of_mem _ ha⟩
        · exact ⟨piece, List.mem_cons_of_mem _ hpiece, ha⟩

theorem subset_of_mem_splitOn [BEq α] {a : α} (h : piece ∈ l.splitOn a) :
    piece ⊆ l := fun b hb => (of_mem_splitOnP h b hb).2

theorem notMem_of_mem_splitOn [BEq α] [LawfulBEq α] {a : α} (h : piece ∈ l.splitOn a) : a ∉ piece := by
  intro hmem
  have hne := (of_mem_splitOnP h a hmem).1
  rw [beq_self_eq_true] at hne
  cases hne

theorem eq_of_splitOn_empty [BEq α] [LawfulBEq α] {a : α} (h : ∀ piece ∈ l.splitOn a, piece = []) : ∀ b ∈ l, b = a := by
  induction l with
  | nil => exact fun _ hb => nomatch hb
  | cons x rest ih =>
    obtain ⟨first, others, hpieces⟩ := List.exists_cons_of_ne_nil (List.splitOn_ne_nil a rest)
    rw [List.splitOn_cons_eq_if_modifyHead, hpieces] at h
    rw [hpieces] at ih
    split at h
    case isTrue hx =>
      intro b hb
      rcases List.mem_cons.mp hb with rfl | hb
      · exact beq_iff_eq.mp hx
      · exact ih (fun piece hpiece => h piece (List.mem_cons_of_mem _ hpiece)) b hb
    case isFalse =>
      rw [List.modifyHead_cons] at h
      exact absurd (h _ List.mem_cons_self) (List.cons_ne_nil _ _)

theorem splitOn_replicate [BEq α] [LawfulBEq α] (a : α) (k : Nat) :
    (List.replicate k a).splitOn a = List.replicate (k + 1) [] := by
  induction k with
  | zero => exact List.splitOn_nil a
  | succ k ih =>
    have hcons : List.replicate (k + 1) a = [] ++ a :: List.replicate k a := rfl
    rw [hcons, List.splitOn_append_cons_self_of_not_mem List.not_mem_nil, ih]
    rfl

theorem infix_append_cons_iff {x : α} {a b : List α} (hx : x ∉ l) : l <:+: a ++ x :: b ↔ l <:+: a ∨ l <:+: b := by
  constructor
  · rintro ⟨s, t, heq⟩
    rcases List.append_eq_append_iff.mp heq with ⟨a', rfl, -⟩ | ⟨c, hc, hrest⟩
    · exact .inl ⟨s, a', rfl⟩
    · cases c with
      | nil =>
        rw [List.append_nil] at hc
        exact .inl ⟨s, [], by rw [hc, List.append_nil]⟩
      | cons y c =>
        cases hrest
        rcases List.append_eq_append_iff.mp hc with ⟨a', -, rfl⟩ | ⟨d, -, hd⟩
        · exact absurd (by simp) hx
        · cases d with
          | nil =>
            rw [List.nil_append] at hd
            exact absurd (by rw [← hd]; exact List.mem_cons_self) hx
          | cons y d =>
            cases hd
            exact .inr ⟨d, t, rfl⟩
  · rintro (hfirst | hsecond)
    · exact hfirst.trans List.infix_append_left
    · exact hsecond.trans ⟨a ++ [x], [], by simp⟩

/-- Each occurrence of a character is replaced by a text (`String.replaceAll` of Dart). -/
def replaceChar (c : Char) (text s : String) : String :=
  String.ofList (s.toList.flatMap fun d => if d = c then text.toList else [d])

/-- The lines of a text without their ends, which are `\n` or `\r\n` (`str::lines`). -/
def lines (s : String) : List String :=
  let pieces := s.toList.splitOn '\n'
  let pieces := if pieces.getLast? = some [] then pieces.dropLast else pieces
  pieces.map fun piece =>
    String.ofList (if piece.getLast? = some '\r' then piece.dropLast else piece)

def isAbsolute (path : String) : Bool := path.toList.head? == some '/'

def replacement : Char := Char.ofNat 0xFFFD

/-- The first UTF-16 code units of a text (`substring` of Dart from its start); half of a character
becomes the replacement character when it is sent. -/
def takeUnits : Nat → List Char → List Char
  | 0, _ => []
  | _, [] => []
  | n + 1, c :: rest =>
    if c.toNat < 0x10000 then c :: takeUnits n rest
    else match n with
      | 0 => [replacement]
      | n + 1 => c :: takeUnits n rest

/-- The UTF-16 code units of a text: what `compareTo` and regular expressions of Dart see of it. -/
def units (s : String) : List Nat :=
  s.toList.flatMap fun c =>
    if c.toNat < 0x10000 then [c.toNat]
    else [0xD800 + (c.toNat - 0x10000) / 0x400, 0xDC00 + (c.toNat - 0x10000) % 0x400]

def unitLength (s : String) : Nat := (s.toList.map fun c => if c.toNat < 0x10000 then 1 else 2).sum

/-- How many bytes follow the first byte of a character, and the range of the first of them. -/
def utf8Follow (b : Nat) : Option (Nat × Nat × Nat) :=
  if 0xC2 ≤ b ∧ b ≤ 0xDF then some (1, 0x80, 0xBF)
  else if b = 0xE0 then some (2, 0xA0, 0xBF)
  else if b = 0xED then some (2, 0x80, 0x9F)
  else if 0xE1 ≤ b ∧ b ≤ 0xEF then some (2, 0x80, 0xBF)
  else if b = 0xF0 then some (3, 0x90, 0xBF)
  else if 0xF1 ≤ b ∧ b ≤ 0xF3 then some (3, 0x80, 0xBF)
  else if b = 0xF4 then some (3, 0x80, 0x8F)
  else none

/-- The reading of a character in the middle: how many bytes are to come, the range of the next one,
and the number so far. -/
structure Utf8Pending where
  left : Nat
  low : Nat
  high : Nat
  code : Nat

def utf8Start (b : Nat) : Char ⊕ Utf8Pending :=
  if b < 0x80 then .inl (Char.ofNat b)
  else match utf8Follow b with
    | some (left, low, high) => .inr ⟨left, low, high, b &&& (0x3F >>> left)⟩
    | none => .inl replacement

/-- Bytes as UTF-8; the longest start of a character that is broken off becomes a replacement
character. -/
def utf8Chars : Option Utf8Pending → List UInt8 → List Char
  | none, [] => []
  | some _, [] => [replacement]
  | pending, b :: rest =>
    let start (out : List Char) : List Char := match utf8Start b.toNat with
      | .inl c => out ++ c :: utf8Chars none rest
      | .inr p => out ++ utf8Chars (some p) rest
    match pending with
    | none => start []
    | some p =>
      if p.low ≤ b.toNat ∧ b.toNat ≤ p.high then
        let code := p.code * 64 + b.toNat % 64
        if p.left = 1 then Char.ofNat code :: utf8Chars none rest
        else utf8Chars (some ⟨p.left - 1, 0x80, 0xBF, code⟩) rest
      else start [replacement]

def fromUtf8Lossy (bytes : List UInt8) : String := String.ofList (utf8Chars none bytes)

example : fromUtf8Lossy [0x61, 0xC3, 0xA9, 0xE2, 0x82, 0x62] = "aé\uFFFDb" := by decide

end Portix.Lib
