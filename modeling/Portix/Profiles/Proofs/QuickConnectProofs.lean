import Portix.Lib.Integers
import Portix.Profiles.SshProfile

/-!
# Soundness theorems for quick connect
-/

namespace Portix.Profiles

open Lib Regex

variable (part : List Char)

/-- What `sshPattern` matches. -/
def IsSsh : Prop :=
  part = [] ∨ ∃ blanks, part = ['s', 's', 'h'] ++ blanks ∧ blanks ≠ [] ∧ ∀ c ∈ blanks, isRegExpSpace c = true

/-- What `userPattern` matches and captures. -/
def IsUser (captures : Captures) : Prop :=
  (part = [] ∧ captures = []) ∨
    ∃ user, part = user ++ ['@'] ∧ user ≠ [] ∧ (∀ c ∈ user, isUserChar c = true) ∧ captures = [(1, user)]

/-- What `hostPattern` matches. -/
def IsHost (host : List Char) : Prop :=
  (∃ inner, host = '[' :: (inner ++ [']']) ∧ inner ≠ [] ∧ ∀ c ∈ inner, isIpv6Char c = true) ∨
    host ≠ [] ∧ ∀ c ∈ host, isHostChar c = true

/-- One to five digits. -/
def IsPort (digits : List Char) : Prop := digits ≠ [] ∧ digits.length ≤ 5 ∧ ∀ c ∈ digits, c.isDigit = true

/-- A port after a colon. -/
def IsColonPort (captures : Captures) : Prop :=
  (part = [] ∧ captures = []) ∨ ∃ digits, part = ':' :: digits ∧ IsPort digits ∧ captures = [(3, digits)]

/-- A port after `-p`. -/
def IsDashPort (captures : Captures) : Prop :=
  (part = [] ∧ captures = []) ∨ ∃ blanks blanks' digits, part = blanks ++ ['-', 'p'] ++ blanks' ++ digits ∧
    blanks ≠ [] ∧ (∀ c ∈ blanks, isRegExpSpace c = true) ∧ (∀ c ∈ blanks', isRegExpSpace c = true) ∧ IsPort digits ∧
    captures = [(4, digits)]

variable {captures : Captures} {text : List Char}

theorem matches_portPattern {n : Nat} :
    Matches (portPattern n) text captures ↔ IsPort text ∧ captures = [(n, text)] := by
  rw [portPattern, matches_group, IsPort]
  simp only [Matches, Option.mem_def, Option.some.injEq, forall_eq', Nat.one_le_iff_ne_zero, Ne,
    List.length_eq_zero_iff]
  constructor
  · rintro ⟨_, ⟨hall, hne, hlen, rfl⟩, rfl⟩
    exact ⟨⟨hne, hlen, hall⟩, rfl⟩
  · rintro ⟨⟨hne, hlen, hall⟩, rfl⟩
    exact ⟨[], ⟨hall, hne, hlen, rfl⟩, rfl⟩

theorem matches_sshPattern : Matches sshPattern text captures ↔ IsSsh text ∧ captures = [] := by
  rw [sshPattern, matches_opt, IsSsh]
  simp only [matches_lit_cons, matches_plus_cons, matches_nil]
  constructor
  · rintro (⟨_, rfl, _, rfl, _, rfl, blanks, _, rfl, hne, hall, rfl, rfl⟩ | ⟨rfl, rfl⟩)
    · rw [List.append_nil]
      exact ⟨.inr ⟨blanks, rfl, hne, hall⟩, rfl⟩
    · exact ⟨.inl rfl, rfl⟩
  · rintro ⟨rfl | ⟨blanks, rfl, hne, hall⟩, rfl⟩
    · exact .inr ⟨rfl, rfl⟩
    · exact .inl ⟨_, rfl, _, rfl, _, rfl, blanks, [], (List.append_nil _).symm, hne, hall, rfl, rfl⟩

theorem matches_userPattern : Matches userPattern text captures ↔ IsUser text captures := by
  rw [userPattern, matches_opt, matches_cons, IsUser, or_comm]
  refine or_congr Iff.rfl ?_
  simp only [matches_group, matches_plus, matches_lit_cons, matches_nil]
  constructor
  · rintro ⟨user, _, _, _, rfl, rfl, ⟨_, ⟨hall, hne, rfl⟩, rfl⟩, _, rfl, rfl, rfl⟩
    exact ⟨user, rfl, hne, hall, rfl⟩
  · rintro ⟨user, rfl, hne, hall, rfl⟩
    exact ⟨user, ['@'], [(1, user)], [], rfl, rfl, ⟨[], ⟨hall, hne, rfl⟩, rfl⟩, [], rfl, rfl, rfl⟩

theorem matches_hostPattern : Matches hostPattern text captures ↔ IsHost text ∧ captures = [(2, text)] := by
  rw [hostPattern, matches_group, IsHost]
  simp only [matches_alt, matches_lit_cons, matches_plus_cons, matches_nil, matches_plus]
  constructor
  · rintro ⟨_, ⟨_, rfl, inner, _, rfl, hne, hall, _, rfl, rfl, rfl⟩ | ⟨hall, hne, rfl⟩, rfl⟩
    · exact ⟨.inl ⟨inner, rfl, hne, hall⟩, rfl⟩
    · exact ⟨.inr ⟨hne, hall⟩, rfl⟩
  · rintro ⟨⟨inner, rfl, hne, hall⟩ | ⟨hne, hall⟩, rfl⟩
    · exact ⟨[], .inl ⟨_, rfl, inner, [']'], rfl, hne, hall, [], rfl, rfl, rfl⟩, rfl⟩
    · exact ⟨[], .inr ⟨hall, hne, rfl⟩, rfl⟩

theorem matches_colonPort :
    Matches (opt (seqs [lit ':', portPattern 3])) text captures ↔ IsColonPort text captures := by
  rw [matches_opt, matches_lit_cons, IsColonPort, or_comm]
  refine or_congr Iff.rfl ?_
  simp only [matches_singleton, matches_portPattern]

theorem matches_dashPort :
    Matches (opt (seqs [plus isRegExpSpace, lit '-', lit 'p', star isRegExpSpace, portPattern 4])) text captures ↔
      IsDashPort text captures := by
  rw [matches_opt, IsDashPort, or_comm]
  refine or_congr Iff.rfl ?_
  simp only [matches_plus_cons, matches_lit_cons, matches_star_cons, matches_singleton, matches_portPattern]
  constructor
  · rintro ⟨blanks, _, rfl, hne, hall, _, rfl, _, rfl, blanks', digits, rfl, hall', hport, rfl⟩
    exact ⟨blanks, blanks', digits, by simp, hne, hall, hall', hport, rfl⟩
  · rintro ⟨blanks, blanks', digits, rfl, hne, hall, hall', hport, rfl⟩
    exact ⟨blanks, _, by simp, hne, hall, _, rfl, _, rfl, blanks', digits, rfl, hall', hport, rfl⟩

theorem matches_quickConnect :
    Matches quickConnect text captures ↔ ∃ ssh user host port dash userTaken portTaken dashTaken,
      text = ssh ++ (user ++ (host ++ (port ++ dash))) ∧
      captures = userTaken ++ ((2, host) :: (portTaken ++ dashTaken)) ∧
      IsSsh ssh ∧ IsUser user userTaken ∧ IsHost host ∧ IsColonPort port portTaken ∧ IsDashPort dash dashTaken := by
  simp only [quickConnect, matches_cons, matches_nil, matches_sshPattern, matches_userPattern, matches_hostPattern,
    matches_colonPort, matches_dashPort]
  constructor
  · rintro ⟨ssh, _, _, _, rfl, rfl, ⟨hssh, rfl⟩, user, _, userTaken, _, rfl, rfl, huser, host, _, _, _, rfl, rfl,
      ⟨hhost, rfl⟩, port, _, portTaken, _, rfl, rfl, hport, dash, _, dashTaken, _, rfl, rfl, hdash, rfl, rfl⟩
    exact ⟨ssh, user, host, port, dash, userTaken, portTaken, dashTaken, by simp, by simp, hssh, huser, hhost, hport,
      hdash⟩
  · rintro ⟨ssh, user, host, port, dash, userTaken, portTaken, dashTaken, rfl, rfl, hssh, huser, hhost, hport, hdash⟩
    exact ⟨ssh, _, [], _, rfl, rfl, ⟨hssh, rfl⟩, user, _, userTaken, _, rfl, rfl, huser, host, _, [(2, host)], _, rfl,
      rfl, ⟨hhost, rfl⟩, port, dash, portTaken, dashTaken, rfl, rfl, hport, dash, [], dashTaken, [], by simp, by simp,
      hdash, rfl, rfl⟩

variable {c : Char}

theorem isHostChar_iff : isHostChar c = true ↔ (65 ≤ c.toNat ∧ c.toNat ≤ 90) ∨
    (97 ≤ c.toNat ∧ c.toNat ≤ 122) ∨ (48 ≤ c.toNat ∧ c.toNat ≤ 57) ∨ c.toNat = 46 ∨ c.toNat = 95 ∨ c.toNat = 45 := by
  have halphanum : c.isAlphanum = (decide (c.val ≥ 65 ∧ c.val ≤ 90) ||
      decide (c.val ≥ 97) && decide (c.val ≤ 122) || decide (c.val ≥ 48) && decide (c.val ≤ 57)) := rfl
  simp only [isHostChar, halphanum, Bool.or_eq_true, Bool.and_eq_true, decide_eq_true_eq, beq_iff_eq,
    UInt32.le_iff_toNat_le, ge_iff_le, or_assoc, ← Char.toNat_inj]
  exact Iff.rfl

theorem isIpv6Char_iff : isIpv6Char c = true ↔ (48 ≤ c.toNat ∧ c.toNat ≤ 57) ∨
    (97 ≤ c.toNat ∧ c.toNat ≤ 102) ∨ (65 ≤ c.toNat ∧ c.toNat ≤ 70) ∨ c.toNat = 58 ∨ c.toNat = 46 := by
  simp only [isIpv6Char, Char.le_def, Char.isDigit, Bool.or_eq_true, Bool.and_eq_true, decide_eq_true_eq, beq_iff_eq,
    UInt32.le_iff_toNat_le, ge_iff_le, or_assoc, ← Char.toNat_inj]
  exact Iff.rfl

theorem isRegExpSpace_iff : isRegExpSpace c = true ↔ isDartWhitespace c = true ∧ c ≠ nextLine := by
  rw [isRegExpSpace, Bool.and_eq_true, bne_iff_ne, Ne, Ne, ← Char.toNat_inj]
  exact Iff.rfl

theorem isUserChar_iff : isUserChar c = true ↔ c ≠ '@' ∧ isRegExpSpace c = false := by
  rw [isUserChar, Bool.and_eq_true, bne_iff_ne, Bool.not_eq_true']

/-- A visible character of ASCII, up to the small letters. -/
def IsVisible (c : Char) : Prop := 33 ≤ c.toNat ∧ c.toNat ≤ 122

theorem IsVisible.not_space (h : IsVisible c) : isDartWhitespace c = false := by
  obtain ⟨hlow, hhigh⟩ := h
  simp only [isDartWhitespace, isWhitespace, Bool.or_eq_false_iff, Bool.and_eq_false_iff,
    decide_eq_false_iff_not, beq_eq_false_iff_ne]
  omega

theorem IsVisible.not_regExpSpace (h : IsVisible c) : isRegExpSpace c = false := by
  rw [isRegExpSpace, h.not_space, Bool.false_and]

variable {host : List Char}

theorem IsHost.visible (h : IsHost host) (hc : c ∈ host) : IsVisible c ∧ c ≠ '@' := by
  rw [IsVisible, Ne, ← Char.toNat_inj]
  show (33 ≤ c.toNat ∧ c.toNat ≤ 122) ∧ c.toNat ≠ 64
  rcases h with ⟨inner, rfl, _, hall⟩ | ⟨_, hall⟩
  · rcases List.mem_cons.mp hc with rfl | hc
    · decide
    · rcases List.mem_append.mp hc with hc | hc
      · have hchar := isIpv6Char_iff.mp (hall c hc)
        omega
      · rw [List.mem_singleton.mp hc]
        decide
  · have hchar := isHostChar_iff.mp (hall c hc)
    omega

variable {port ssh rest user : List Char}

theorem IsColonPort.visible (h : IsColonPort port captures) (hc : c ∈ port) : IsVisible c ∧ c ≠ '@' := by
  rw [IsVisible, Ne, ← Char.toNat_inj]
  show (33 ≤ c.toNat ∧ c.toNat ≤ 122) ∧ c.toNat ≠ 64
  rcases h with ⟨rfl, _⟩ | ⟨digits, rfl, ⟨_, _, hall⟩, _⟩
  · exact absurd hc List.not_mem_nil
  · rcases List.mem_cons.mp hc with rfl | hc
    · decide
    · have hchar := isDigit_iff.mp (hall c hc)
      omega

theorem IsDashPort.not_special {dash : List Char} (h : IsDashPort dash captures) (hc : c ∈ dash) :
    c ≠ '@' ∧ c ≠ nextLine := by
  have hspace : ∀ c, isRegExpSpace c = true → c ≠ '@' ∧ c ≠ nextLine := by
    intro c hc
    refine ⟨?_, (isRegExpSpace_iff.mp hc).2⟩
    rintro rfl
    exact absurd hc (by decide)
  rcases h with ⟨rfl, _⟩ | ⟨blanks, blanks', digits, rfl, _, hall, hall', ⟨_, _, hdigits⟩, _⟩
  · exact absurd hc List.not_mem_nil
  · simp only [List.mem_append, List.mem_cons, List.not_mem_nil, or_false] at hc
    rcases hc with ((hc | rfl | rfl) | hc) | hc
    · exact hspace c (hall c hc)
    · decide
    · decide
    · exact hspace c (hall' c hc)
    · have hchar := isDigit_iff.mp (hdigits c hc)
      rw [Ne, Ne, ← Char.toNat_inj, ← Char.toNat_inj]
      show c.toNat ≠ 64 ∧ c.toNat ≠ 133
      omega

theorem IsSsh.not_special (h : IsSsh ssh) (hc : c ∈ ssh) : c ≠ '@' ∧ c ≠ nextLine := by
  rcases h with rfl | ⟨blanks, rfl, _, hall⟩
  · exact absurd hc List.not_mem_nil
  · simp only [List.mem_append, List.mem_cons, List.not_mem_nil, or_false] at hc
    rcases hc with (rfl | rfl | rfl) | hc
    · decide
    · decide
    · decide
    · refine ⟨?_, (isRegExpSpace_iff.mp (hall c hc)).2⟩
      rintro rfl
      exact absurd (hall _ hc) (by decide)

theorem append_cons_unique {α : Type} {p : α → Bool} {x y r s : List α} {a b : α} (h : x ++ a :: r = y ++ b :: s)
    (hx : ∀ c ∈ x, p c = true) (ha : p a = false) (hy : ∀ c ∈ y, p c = true) (hb : p b = false) :
    x = y ∧ a = b ∧ r = s := by
  have htake := congrArg (List.takeWhile p) h
  rw [List.takeWhile_append_of_pos hx, List.takeWhile_append_of_pos hy,
    List.takeWhile_cons_of_neg (by simp [ha]), List.takeWhile_cons_of_neg (by simp [hb]), List.append_nil,
    List.append_nil] at htake
  subst htake
  cases List.append_cancel_left h
  exact ⟨rfl, rfl, rfl⟩

theorem takeWhile_host {host : List Char} {taken : Captures} (hhost : ∀ c ∈ host, isHostChar c = true)
    (hport : IsColonPort port taken) : (host ++ port).takeWhile isHostChar = host := by
  rw [List.takeWhile_append_of_pos hhost]
  rcases hport with ⟨rfl, _⟩ | ⟨digits, rfl, _⟩
  · rw [List.takeWhile_nil, List.append_nil]
  · rw [List.takeWhile_cons_of_neg (by decide), List.append_nil]

theorem host_ne_bracket {host : List Char} (hne : host ≠ []) (hhost : ∀ c ∈ host, isHostChar c = true) :
    host ++ port ≠ '[' :: rest := by
  intro h
  obtain ⟨c, cs, rfl⟩ := List.exists_cons_of_ne_nil hne
  have hc := hhost c List.mem_cons_self
  rw [(List.cons.inj h).1] at hc
  exact absurd hc (by decide)

theorem host_port_unique {host host' port' : List Char} {taken taken' : Captures} (hhost : IsHost host)
    (hhost' : IsHost host') (hport : IsColonPort port taken) (hport' : IsColonPort port' taken')
    (h : host ++ port = host' ++ port') : host = host' ∧ port = port' ∧ taken = taken' := by
  have hhosts : host = host' := by
    rcases hhost with ⟨inner, rfl, _, hall⟩ | ⟨hne, hall⟩
    · rcases hhost' with ⟨inner', rfl, _, hall'⟩ | ⟨hne', hall'⟩
      · have hinside : ∀ inner : List Char, (∀ c ∈ inner, isIpv6Char c = true) → ∀ c ∈ inner, (c != ']') = true := by
          intro inner hall c hc
          have hchar := isIpv6Char_iff.mp (hall c hc)
          rw [bne_iff_ne, Ne, ← Char.toNat_inj]
          show c.toNat ≠ 93
          omega
        simp only [List.cons_append, List.append_assoc, List.nil_append, List.cons.injEq, true_and] at h
        rw [(append_cons_unique h (hinside inner hall) (by decide) (hinside inner' hall') (by decide)).1]
      · exact absurd h.symm (host_ne_bracket hne' hall')
    · rcases hhost' with ⟨inner', rfl, _, hall'⟩ | ⟨hne', hall'⟩
      · exact absurd h (host_ne_bracket hne hall)
      · rw [← takeWhile_host hall hport, h, takeWhile_host hall' hport']
  subst hhosts
  have hports := List.append_cancel_left h
  subst hports
  refine ⟨rfl, rfl, ?_⟩
  rcases hport with ⟨rfl, rfl⟩ | ⟨digits, rfl, _, rfl⟩
  · rcases hport' with ⟨_, rfl⟩ | ⟨_, h0, _⟩
    · rfl
    · cases h0
  · rcases hport' with ⟨h0, _⟩ | ⟨digits', h0, _, rfl⟩
    · cases h0
    · rw [(List.cons.inj h0).2]

/-- A host between its brackets, or one without. -/
def IsHostName (host : List Char) : Prop :=
  host ≠ [] ∧ ((∀ c ∈ host, isHostChar c = true) ∨ ∀ c ∈ host, isIpv6Char c = true)

def hostLabel (host : List Char) : List Char := if ':' ∈ host then '[' :: (host ++ [']']) else host

def portLabel (port : Nat) : List Char := if port = 22 then [] else ':' :: Nat.toDigits 10 port

def portTaken (port : Nat) : Captures := if port = 22 then [] else [(3, Nat.toDigits 10 port)]

theorem toList_quickConnectLabel (t : QuickConnectTarget) :
    (quickConnectLabel t).toList = t.user.toList ++ '@' :: (hostLabel t.host.toList ++ portLabel t.port) := by
  have hhost : (if containsChar t.host ':' then "[" ++ t.host ++ "]" else t.host).toList = hostLabel t.host.toList := by
    rw [hostLabel, containsChar]
    by_cases hc : ':' ∈ t.host.toList
    · rw [if_pos (by simpa using hc), if_pos hc, String.toList_append, String.toList_append]
      rfl
    · rw [if_neg (by simpa using hc), if_neg hc]
  have hport : (if t.port = 22 then "" else ":" ++ toString t.port).toList = portLabel t.port := by
    rw [portLabel]
    by_cases h22 : t.port = 22
    · rw [if_pos h22, if_pos h22]
      rfl
    · rw [if_neg h22, if_neg h22, String.toList_append]
      exact congrArg (':' :: ·) Nat.toList_repr
  rw [quickConnectLabel]
  simp only [String.toList_append, hhost, hport, List.append_assoc]
  rfl

theorem isHost_hostLabel (h : IsHostName host) : IsHost (hostLabel host) := by
  obtain ⟨hne, hall⟩ := h
  rw [hostLabel]
  by_cases hc : ':' ∈ host
  · rw [if_pos hc]
    rcases hall with hall | hall
    · exact absurd (hall _ hc) (by decide)
    · exact .inl ⟨host, rfl, hne, hall⟩
  · rw [if_neg hc]
    refine .inr ⟨hne, fun c hmem => ?_⟩
    rcases hall with hall | hall
    · exact hall c hmem
    · have hchar := isIpv6Char_iff.mp (hall c hmem)
      have hcolon : c.toNat ≠ 58 := by
        rintro h58
        have heq : c = ':' := Char.toNat_inj.mp h58
        exact hc (heq ▸ hmem)
      rw [isHostChar_iff]
      omega

theorem isColonPort_portLabel {port : Nat} (h : port ≤ 65535) : IsColonPort (portLabel port) (portTaken port) := by
  rw [portLabel, portTaken]
  by_cases h22 : port = 22
  · rw [if_pos h22, if_pos h22]
    exact .inl ⟨rfl, rfl⟩
  · rw [if_neg h22, if_neg h22]
    refine .inr ⟨_, rfl, ⟨Nat.toDigits_ne_nil, ?_, fun c hc => isDigit_of_mem_digits hc⟩, rfl⟩
    rw [Nat.length_toDigits_le_iff (by decide) (by decide)]
    omega

theorem label_not_space {host : List Char} {port : Nat} (hhost : IsHostName host) (hport : port ≤ 65535)
    (huser : ∀ c ∈ user, isUserChar c = true) (hc : c ∈ user ++ '@' :: (hostLabel host ++ portLabel port)) :
    isRegExpSpace c = false := by
  simp only [List.mem_append, List.mem_cons] at hc
  rcases hc with hc | rfl | hc | hc
  · exact (isUserChar_iff.mp (huser c hc)).2
  · decide
  · exact ((isHost_hostLabel hhost).visible hc).1.not_regExpSpace
  · exact ((isColonPort_portLabel hport).visible hc).1.not_regExpSpace

theorem matches_label {host : List Char} {port : Nat} (hhost : IsHostName host) (hport : port ≤ 65535)
    (huser : ∀ c ∈ user, isUserChar c = true) :
    Matches quickConnect (user ++ '@' :: (hostLabel host ++ portLabel port)) captures ↔
      user ≠ [] ∧ captures = (1, user) :: (2, hostLabel host) :: portTaken port := by
  have hhost' := isHost_hostLabel hhost
  have hport' := isColonPort_portLabel hport
  rw [matches_quickConnect]
  constructor
  · rintro ⟨ssh, userPart, host', port', dash, userTaken, taken, dashTaken, htext, rfl, hssh, huser', hhost'', hport'',
      hdash⟩
    have hblanks : ∀ blanks : List Char, blanks ≠ [] → (∀ c ∈ blanks, isRegExpSpace c = true) →
        (∀ c ∈ blanks, c ∈ user ++ '@' :: (hostLabel host ++ portLabel port)) → False := by
      intro blanks hne hall hmem
      obtain ⟨c, cs, rfl⟩ := List.exists_cons_of_ne_nil hne
      have hc := hall c List.mem_cons_self
      rw [label_not_space hhost hport huser (hmem c List.mem_cons_self)] at hc
      cases hc
    have hssh' : ssh = [] := by
      rcases hssh with hssh | ⟨blanks, rfl, hne, hall⟩
      · exact hssh
      · exact (hblanks blanks hne hall fun c hc => by rw [htext]; simp [hc]).elim
    have hdash' : dash = [] ∧ dashTaken = [] := by
      rcases hdash with hdash | ⟨blanks, blanks', digits, rfl, hne, hall, _⟩
      · exact hdash
      · exact (hblanks blanks hne hall fun c hc => by rw [htext]; simp [hc]).elim
    obtain ⟨rfl, rfl⟩ := hdash'
    subst hssh'
    rw [List.nil_append, List.append_nil] at htext
    rcases huser' with ⟨rfl, rfl⟩ | ⟨user', rfl, hne, hall, rfl⟩
    · -- Without a user there is no `@`.
      have hat : '@' ∈ host' ++ port' := by
        rw [List.nil_append] at htext
        rw [← htext]
        simp
      rcases List.mem_append.mp hat with hat | hat
      · exact absurd rfl (hhost''.visible hat).2
      · exact absurd rfl (hport''.visible hat).2
    · rw [List.append_assoc, List.singleton_append] at htext
      have hnot : ∀ user : List Char, (∀ c ∈ user, isUserChar c = true) → ∀ c ∈ user, (c != '@') = true :=
        fun user hall c hc => bne_iff_ne.mpr (isUserChar_iff.mp (hall c hc)).1
      obtain ⟨rfl, _, hrest⟩ := append_cons_unique htext (hnot user huser) (by decide) (hnot user' hall) (by decide)
      obtain ⟨rfl, rfl, rfl⟩ := host_port_unique hhost' hhost'' hport' hport'' hrest
      exact ⟨hne, by rw [List.append_nil]; rfl⟩
  · rintro ⟨hne, rfl⟩
    exact ⟨[], user ++ ['@'], hostLabel host, portLabel port, [], [(1, user)], portTaken port, [], by simp, by simp,
      .inl rfl, .inr ⟨user, rfl, hne, huser, rfl⟩, hhost', hport', .inl ⟨rfl, rfl⟩⟩

def bareHost (host : List Char) : List Char :=
  if host.head? = some '[' then (host.drop 1).take (host.length - 2) else host

theorem bareHost_bracket (inner : List Char) : bareHost ('[' :: (inner ++ [']'])) = inner := by
  rw [bareHost, List.head?_cons, if_pos rfl, List.drop_succ_cons, List.drop_zero, List.length_cons, List.length_append,
    List.length_singleton]
  exact List.take_left' (by omega)

theorem bareHost_plain (h : ∀ c ∈ host, isHostChar c = true) : bareHost host = host := by
  rw [bareHost, if_neg]
  intro hhead
  exact absurd (h '[' (List.mem_of_head? hhead)) (by decide)

theorem isHostName_bareHost (h : IsHost host) : IsHostName (bareHost host) := by
  rcases h with ⟨inner, rfl, hne, hall⟩ | ⟨hne, hall⟩
  · rw [bareHost_bracket]
    exact ⟨hne, .inr hall⟩
  · rw [bareHost_plain hall]
    exact ⟨hne, .inl hall⟩

theorem bareHost_hostLabel (h : IsHostName host) : bareHost (hostLabel host) = host := by
  rw [hostLabel]
  by_cases hc : ':' ∈ host
  · rw [if_pos hc, bareHost_bracket]
  · have hhost := isHost_hostLabel h
    rw [hostLabel, if_neg hc] at hhost
    rw [if_neg hc]
    rcases hhost with ⟨inner, rfl, _⟩ | ⟨_, hall⟩
    · rcases h.2 with hall | hall
      · exact bareHost_plain hall
      · exact absurd (hall '[' List.mem_cons_self) (by decide)
    · exact bareHost_plain hall

variable {t : QuickConnectTarget} {input defaultUser : String}

theorem parseQuickConnect_some (h : parseQuickConnect input defaultUser = some t) :
    ∃ captures, Matches quickConnect (dartTrim input).toList captures ∧
      t.user = ((captures.lookup 1).map String.ofList).getD defaultUser ∧
      t.host.toList = bareHost ((captures.lookup 2).getD []) ∧ 1 ≤ t.port ∧ t.port ≤ 65535 := by
  rw [parseQuickConnect] at h
  split at h
  · cases h
  · rename_i captures hmatch
    dsimp only at h
    split at h
    · cases h
    · split at h
      · cases h
      · rename_i hport
        rw [not_or, not_lt, gt_iff_lt, not_lt] at hport
        refine ⟨captures, fullMatch_sound hmatch, ?_⟩
        rw [← Option.some.inj h]
        exact ⟨rfl, String.toList_ofList, hport.1, hport.2⟩

theorem parseQuickConnect_parts (h : parseQuickConnect input defaultUser = some t) :
    ∃ ssh user rest userTaken, (dartTrim input).toList = ssh ++ (user ++ rest) ∧ IsSsh ssh ∧ IsUser user userTaken ∧
      (∀ c ∈ rest, c ≠ '@' ∧ c ≠ nextLine) ∧ t.user = ((userTaken.lookup 1).map String.ofList).getD defaultUser ∧
      IsHostName t.host.toList ∧ 1 ≤ t.port ∧ t.port ≤ 65535 := by
  obtain ⟨captures, hmatch, huser, hhost, hport⟩ := parseQuickConnect_some h
  obtain ⟨ssh, user, host, port, dash, userTaken, taken, dashTaken, htext, rfl, hssh, huser', hhost', hport', hdash⟩ :=
    matches_quickConnect.mp hmatch
  have hrest : ∀ c ∈ host ++ (port ++ dash), c ≠ '@' ∧ c ≠ nextLine := by
    have hvisible : ∀ c, IsVisible c → c ≠ nextLine := by
      rintro c ⟨_, hhigh⟩ rfl
      exact absurd hhigh (by decide)
    intro c hc
    rcases List.mem_append.mp hc with hc | hc
    · exact ⟨(hhost'.visible hc).2, hvisible c (hhost'.visible hc).1⟩
    · rcases List.mem_append.mp hc with hc | hc
      · exact ⟨(hport'.visible hc).2, hvisible c (hport'.visible hc).1⟩
      · exact hdash.not_special hc
  -- The numbers of the groups tell the captures apart.
  have hlater : (taken ++ dashTaken).lookup 1 = none := by
    rcases hport' with ⟨_, rfl⟩ | ⟨_, _, _, rfl⟩
    · rcases hdash with ⟨_, rfl⟩ | ⟨_, _, _, _, _, _, _, _, rfl⟩
      · rfl
      · rfl
    · rcases hdash with ⟨_, rfl⟩ | ⟨_, _, _, _, _, _, _, _, rfl⟩
      · rfl
      · rfl
  have hone : (userTaken ++ (2, host) :: (taken ++ dashTaken)).lookup 1 = userTaken.lookup 1 := by
    rcases huser' with ⟨_, rfl⟩ | ⟨_, _, _, _, rfl⟩
    · exact hlater
    · rfl
  have htwo : (userTaken ++ (2, host) :: (taken ++ dashTaken)).lookup 2 = some host := by
    rcases huser' with ⟨_, rfl⟩ | ⟨_, _, _, _, rfl⟩
    · rfl
    · rfl
  rw [hone] at huser
  rw [htwo, Option.getD_some] at hhost
  refine ⟨ssh, user, _, userTaken, htext, hssh, huser', hrest, huser, ?_, hport⟩
  rw [hhost]
  exact isHostName_bareHost hhost'

theorem dartTrim_label (hhost : IsHostName t.host.toList) (hhigh : t.port ≤ 65535)
    (hne : t.user.toList ≠ []) (hfirst : firstIs isDartWhitespace t.user = false) :
    dartTrim (quickConnectLabel t) = quickConnectLabel t := by
  refine trimBy_eq_self_of ?_ ?_
  · rw [firstIs, toList_quickConnectLabel, List.head?_append_of_ne_nil _ hne]
    exact hfirst
  · have hhost' := isHost_hostLabel hhost
    have hend : hostLabel t.host.toList ++ portLabel t.port ≠ [] := by
      intro hnil
      rcases hhost' with ⟨inner, heq, _⟩ | ⟨hne, _⟩
      · rw [(List.append_eq_nil_iff.mp hnil).1] at heq
        cases heq
      · exact hne (List.append_eq_nil_iff.mp hnil).1
    rw [lastIs, toList_quickConnectLabel, ← List.singleton_append, ← List.append_assoc,
      List.getLast?_append_of_ne_nil _ hend, List.getLast?_eq_some_getLast hend, Option.any_some]
    rcases List.mem_append.mp (List.getLast_mem hend) with hc | hc
    · exact (hhost'.visible hc).1.not_space
    · exact ((isColonPort_portLabel hhigh).visible hc).1.not_space

theorem parseQuickConnect_label (hhost : IsHostName t.host.toList) (hlow : 1 ≤ t.port)
    (hhigh : t.port ≤ 65535) (huser : ∀ c ∈ t.user.toList, isUserChar c = true) (hne : t.user.toList ≠ [])
    (hfirst : firstIs isDartWhitespace t.user = false) (defaultUser : String) :
    parseQuickConnect (quickConnectLabel t) defaultUser = some t := by
  have hfull : fullMatch quickConnect (dartTrim (quickConnectLabel t)).toList
      = some ((1, t.user.toList) :: (2, hostLabel t.host.toList) :: portTaken t.port) := by
    rw [dartTrim_label hhost hhigh hne hfirst, toList_quickConnectLabel]
    refine fullMatch_of_unique ((matches_label hhost hhigh huser).mpr ⟨hne, rfl⟩) fun captures hmatch => ?_
    exact ((matches_label hhost hhigh huser).mp hmatch).2
  have hport : Nat.ofDigitChars 10 ((((portTaken t.port).lookup 4).or ((portTaken t.port).lookup 3)).getD
      "22".toList) 0 = t.port := by
    rw [portTaken]
    by_cases h22 : t.port = 22
    · rw [if_pos h22, h22]
      decide
    · rw [if_neg h22]
      exact Nat.ofDigitChars_toDigits (by decide) (by decide)
  have hname : (if (hostLabel t.host.toList).head? = some '[' then
      ((hostLabel t.host.toList).drop 1).take ((hostLabel t.host.toList).length - 2) else hostLabel t.host.toList)
      = t.host.toList := bareHost_hostLabel hhost
  -- What the groups have captured.
  have hlookup1 : ((1, t.user.toList) :: (2, hostLabel t.host.toList) :: portTaken t.port).lookup 1
      = some t.user.toList := rfl
  have hlookup2 : ((1, t.user.toList) :: (2, hostLabel t.host.toList) :: portTaken t.port).lookup 2
      = some (hostLabel t.host.toList) := rfl
  have hlookup3 : ((1, t.user.toList) :: (2, hostLabel t.host.toList) :: portTaken t.port).lookup 3
      = (portTaken t.port).lookup 3 := rfl
  have hlookup4 : ((1, t.user.toList) :: (2, hostLabel t.host.toList) :: portTaken t.port).lookup 4
      = (portTaken t.port).lookup 4 := rfl
  rw [parseQuickConnect]
  simp only [hfull, hlookup1, hlookup2, hlookup3, hlookup4, Option.getD_some, Option.isSome_some, Bool.or_true,
    Bool.not_true, Bool.false_eq_true, if_false, hname, hport, Option.map_some, String.ofList_toList]
  rw [if_neg (by omega)]

theorem isUserChar_of_parse (hdefault : IsDefaultUser defaultUser) (h : parseQuickConnect input defaultUser = some t) :
    ∀ c ∈ t.user.toList, isUserChar c = true := by
  obtain ⟨_, _, _, _, _, _, huser, _, htuser, _⟩ := parseQuickConnect_parts h
  rw [htuser]
  rcases huser with ⟨_, rfl⟩ | ⟨user, _, _, hall, rfl⟩
  · intro c hc
    obtain ⟨hat, hspace⟩ := hdefault c hc
    refine isUserChar_iff.mpr ⟨hat, ?_⟩
    rw [isRegExpSpace, hspace, Bool.false_and]
  · show ∀ c ∈ (String.ofList user).toList, isUserChar c = true
    rw [String.toList_ofList]
    exact hall

theorem trimmed_ne_nextLine {s : String} : (dartTrim s).toList ≠ nextLine :: rest := by
  intro h
  have hfirst := firstIs_trimBy isDartWhitespace s
  rw [firstIs, show trimBy isDartWhitespace s = dartTrim s from rfl, h, List.head?_cons, Option.any_some] at hfirst
  exact absurd hfirst (by decide)

theorem user_of_read_back (hhost : IsHostName t.host.toList) (hhigh : t.port ≤ 65535)
    (huser : ∀ c ∈ t.user.toList, isUserChar c = true)
    (h : parseQuickConnect (quickConnectLabel t) defaultUser = some t) :
    t.user.toList ≠ [] ∧ t.user.toList.head? ≠ some nextLine := by
  obtain ⟨ssh, user, rest, userTaken, htext, hssh, huser', hrest, htuser, _⟩ := parseQuickConnect_parts h
  have hat : '@' ∈ ssh ++ (user ++ rest) := by
    rw [← htext]
    refine mem_trimBy_of_not ?_ (by decide)
    rw [toList_quickConnectLabel]
    simp
  rcases huser' with ⟨rfl, rfl⟩ | ⟨name, rfl, hne, hall, rfl⟩
  · rcases List.mem_append.mp hat with hat | hat
    · exact absurd rfl (hssh.not_special hat).1
    · exact absurd rfl (hrest _ hat).1
  · have hname : t.user.toList = name := by
      rw [htuser]
      exact String.toList_ofList
    rw [hname]
    refine ⟨hne, fun hhead => ?_⟩
    obtain ⟨cs, rfl⟩ := List.head?_eq_some_iff.mp hhead
    rcases hssh with rfl | ⟨blanks, rfl, hblanks, hspaces⟩
    · exact trimmed_ne_nextLine htext
    · -- Blanks before the user would be blanks of the label.
      obtain ⟨b, bs, rfl⟩ := List.exists_cons_of_ne_nil hblanks
      have hmem : b ∈ (quickConnectLabel t).toList := by
        refine (trimBy_sublist isDartWhitespace (quickConnectLabel t)).subset ?_
        rw [show trimBy isDartWhitespace (quickConnectLabel t) = dartTrim (quickConnectLabel t) from rfl, htext]
        simp
      rw [toList_quickConnectLabel] at hmem
      have hb := hspaces b List.mem_cons_self
      rw [label_not_space hhost hhigh huser hmem] at hb
      cases hb

/-- Where the input names a user, its name starts with U+0085 just when that comes after `ssh` and blanks. -/
theorem nextLine_user_iff {name : List Char} (hssh : IsSsh ssh) (hne : name ≠ [])
    (hall : ∀ c ∈ name, isUserChar c = true) (htext : (dartTrim input).toList = ssh ++ (name ++ '@' :: rest)) :
    name.head? = some nextLine ↔ ∃ blanks rest, blanks ≠ [] ∧ (∀ c ∈ blanks, isRegExpSpace c = true) ∧
      (dartTrim input).toList = ['s', 's', 'h'] ++ blanks ++ nextLine :: rest := by
  constructor
  · intro hhead
    obtain ⟨cs, rfl⟩ := List.head?_eq_some_iff.mp hhead
    rcases hssh with rfl | ⟨blanks, rfl, hblanks, hspaces⟩
    · exact absurd htext trimmed_ne_nextLine
    · exact ⟨blanks, _, hblanks, hspaces, htext⟩
  · rintro ⟨blanks, rest', hblanks, hspaces, htext'⟩
    rw [htext] at htext'
    obtain ⟨c, cs, rfl⟩ := List.exists_cons_of_ne_nil hne
    have hc := (isUserChar_iff.mp (hall c List.mem_cons_self)).2
    rcases hssh with rfl | ⟨blanks', rfl, _, hspaces'⟩
    · -- A name has no blank, and no `@` comes before the blanks.
      obtain ⟨b, bs, rfl⟩ := List.exists_cons_of_ne_nil hblanks
      have hb := hspaces b List.mem_cons_self
      have hleft : ∀ x ∈ c :: cs ++ ['@'], (!isRegExpSpace x) = true := by
        intro x hx
        rcases List.mem_append.mp hx with hx | hx
        · rw [(isUserChar_iff.mp (hall x hx)).2]
          rfl
        · rw [List.mem_singleton.mp hx]
          decide
      have hsplit : [] ++ (c :: cs ++ '@' :: rest) = c :: cs ++ ['@'] ++ rest := by simp
      have hsplit' : ['s', 's', 'h'] ++ b :: bs ++ nextLine :: rest' =
          ['s', 's', 'h'] ++ b :: (bs ++ nextLine :: rest') := by simp
      have htake := congrArg (List.takeWhile fun x => !isRegExpSpace x) htext'
      have hssh' : (['s', 's', 'h'] ++ b :: (bs ++ nextLine :: rest')).takeWhile (fun x => !isRegExpSpace x)
          = ['s', 's', 'h'] := by
        have hword : ∀ x ∈ ['s', 's', 'h'], (!isRegExpSpace x) = true := List.all_eq_true.mp (by decide)
        rw [List.takeWhile_append_of_pos hword, List.takeWhile_cons_of_neg (by simp [hb]), List.append_nil]
      rw [hsplit, hsplit', hssh', List.takeWhile_append_of_pos hleft] at htake
      have hat : '@' ∈ ['s', 's', 'h'] := by
        rw [← htake]
        simp
      exact absurd hat (by decide)
    · rw [List.append_assoc, List.append_assoc] at htext'
      have hrest := List.append_cancel_left htext'
      rw [List.cons_append] at hrest
      obtain ⟨_, hcn, _⟩ := append_cons_unique hrest hspaces' hc hspaces (by decide)
      rw [hcn, List.head?_cons]

theorem labelReadsBack_iff (hdefault : IsDefaultUser defaultUser) (h : parseQuickConnect input defaultUser = some t) :
    LabelReadsBack input defaultUser ↔ t.user.toList ≠ [] ∧ t.user.toList.head? ≠ some nextLine := by
  obtain ⟨ssh, user, rest, userTaken, htext, hssh, huser, hrest, htuser, _⟩ := parseQuickConnect_parts h
  rw [LabelReadsBack]
  rcases huser with ⟨rfl, rfl⟩ | ⟨name, rfl, hne, hall, rfl⟩
  · -- The default user.
    have hdefaultUser : t.user = defaultUser := htuser
    have hnone : ∀ c ∈ (dartTrim input).toList, c ≠ '@' ∧ c ≠ nextLine := by
      intro c hc
      rw [htext] at hc
      rcases List.mem_append.mp hc with hc | hc
      · exact hssh.not_special hc
      · exact hrest c hc
    have hfirst : t.user.toList.head? ≠ some nextLine := by
      intro hhead
      rw [hdefaultUser] at hhead
      exact absurd (hdefault _ (List.mem_of_head? hhead)).2 (by decide)
    rw [hdefaultUser] at hfirst ⊢
    have hempty : defaultUser ≠ "" ↔ defaultUser.toList ≠ [] := by
      rw [Ne, Ne, String.toList_eq_nil_iff]
    constructor
    · rintro ⟨hat | hne, _⟩
      · exact absurd rfl (hnone _ hat).1
      · exact ⟨hempty.mp hne, hfirst⟩
    · rintro ⟨hne, _⟩
      refine ⟨.inr (hempty.mpr hne), ?_⟩
      rintro ⟨blanks, rest', _, _, heq⟩
      exact absurd rfl (hnone nextLine (by rw [heq]; simp)).2
  · have hname : t.user.toList = name := by
      rw [htuser]
      exact String.toList_ofList
    rw [List.append_assoc, List.singleton_append] at htext
    have hat : '@' ∈ (dartTrim input).toList := by
      rw [htext]
      simp
    rw [hname, ← nextLine_user_iff hssh hne hall htext]
    exact ⟨fun hread => ⟨hne, hread.2⟩, fun hname => ⟨.inl hat, hname.2⟩⟩

theorem quickConnectLabel_injective {t t' : QuickConnectTarget} (hhost : IsHostName t.host.toList)
    (hhost' : IsHostName t'.host.toList) (hport : t.port ≤ 65535) (hport' : t'.port ≤ 65535)
    (huser : ∀ c ∈ t.user.toList, isUserChar c = true) (huser' : ∀ c ∈ t'.user.toList, isUserChar c = true)
    (h : quickConnectLabel t = quickConnectLabel t') : t = t' := by
  have hlists := congrArg String.toList h
  rw [toList_quickConnectLabel, toList_quickConnectLabel] at hlists
  have hnot : ∀ user : List Char, (∀ c ∈ user, isUserChar c = true) → ∀ c ∈ user, (c != '@') = true :=
    fun user hall c hc => bne_iff_ne.mpr (isUserChar_iff.mp (hall c hc)).1
  obtain ⟨hname, _, hrest⟩ := append_cons_unique hlists (hnot _ huser) (by decide) (hnot _ huser') (by decide)
  obtain ⟨hhosts, hports, _⟩ := host_port_unique (isHost_hostLabel hhost) (isHost_hostLabel hhost')
    (isColonPort_portLabel hport) (isColonPort_portLabel hport') hrest
  obtain ⟨user, host, port⟩ := t
  obtain ⟨user', host', port'⟩ := t'
  have huserEq : user = user' := String.toList_inj.mp hname
  have hhostEq : host = host' := by
    rw [← String.toList_inj, ← bareHost_hostLabel hhost, hhosts, bareHost_hostLabel hhost']
  have hportEq : port = port' := by
    simp only [portLabel] at hports
    split at hports
    · rename_i h22
      split at hports
      · rename_i h22'
        exact h22.trans h22'.symm
      · cases hports
    · split at hports
      · cases hports
      · exact toDigits_injective (List.cons.inj hports).2
  rw [huserEq, hhostEq, hportEq]

/-- The label of a target is read back, whatever the default user, just when the input names a user or there is a
default one, and the name does not start with U+0085; and two targets have the same saved profile just when they are
the same. -/
theorem labels_faithful_iff {input input' defaultUser defaultUser' : String} (hdefault : IsDefaultUser defaultUser)
    (hdefault' : IsDefaultUser defaultUser') {t t' : QuickConnectTarget}
    (h : parseQuickConnect input defaultUser = some t) (h' : parseQuickConnect input' defaultUser' = some t') :
    ((∀ user, parseQuickConnect (quickConnectLabel t) user = some t) ↔ LabelReadsBack input defaultUser) ∧
      ((quickConnectProfile t).id = (quickConnectProfile t').id ↔ t = t') := by
  have huser := isUserChar_of_parse hdefault h
  have huser' := isUserChar_of_parse hdefault' h'
  obtain ⟨_, _, _, _, _, _, _, _, _, hhost, hlow, hhigh⟩ := parseQuickConnect_parts h
  obtain ⟨_, _, _, _, _, _, _, _, _, hhost', _, hhigh'⟩ := parseQuickConnect_parts h'
  rw [labelReadsBack_iff hdefault h]
  refine ⟨⟨fun hall => user_of_read_back hhost hhigh huser (hall ""), fun ⟨hne, hfirst⟩ user => ?_⟩, ?_, ?_⟩
  · refine parseQuickConnect_label hhost hlow hhigh huser hne ?_ user
    -- The first character of a user is no white space, U+0085 apart.
    obtain ⟨c, cs, hcs⟩ := List.exists_cons_of_ne_nil hne
    rw [firstIs, hcs, List.head?_cons, Option.any_some, ← Bool.not_eq_true]
    intro hspace
    have hc := (isUserChar_iff.mp (huser c (by rw [hcs]; exact List.mem_cons_self))).2
    rw [← Bool.not_eq_true, isRegExpSpace_iff, not_and, not_not] at hc
    rw [hcs, hc hspace] at hfirst
    exact hfirst rfl
  · intro hid
    have hlabel : quickConnectLabel t = quickConnectLabel t' := by
      have hlists := congrArg String.toList hid
      rw [quickConnectProfile, quickConnectProfile, String.toList_append, String.toList_append] at hlists
      exact String.toList_inj.mp (List.append_cancel_left hlists)
    exact quickConnectLabel_injective hhost hhost' hhigh hhigh' huser huser' hlabel
  · rintro rfl
    rfl

theorem isDefaultUser_me : IsDefaultUser "me" := by
  have hlist : "me".toList = ['m', 'e'] := rfl
  intro c hc
  rw [hlist, List.mem_cons, List.mem_singleton] at hc
  rcases hc with rfl | rfl
  · decide
  · decide

theorem labels_faithful_me :
    ((∀ user, parseQuickConnect (quickConnectLabel ⟨"me", "fe80::1", 2222⟩) user = some ⟨"me", "fe80::1", 2222⟩) ↔
        LabelReadsBack "[fe80::1]:2222" "me") ∧
      ((quickConnectProfile ⟨"me", "fe80::1", 2222⟩).id = (quickConnectProfile ⟨"me", "fe80::1", 22⟩).id ↔
        (⟨"me", "fe80::1", 2222⟩ : QuickConnectTarget) = ⟨"me", "fe80::1", 22⟩) :=
  labels_faithful_iff isDefaultUser_me isDefaultUser_me
    (show parseQuickConnect "[fe80::1]:2222" "me" = some ⟨"me", "fe80::1", 2222⟩ by decide)
    (show parseQuickConnect "ssh [fe80::1] -p 22" "me" = some ⟨"me", "fe80::1", 22⟩ by decide)

/-- With an empty default user, as an empty USER variable gives, a label is no address; and a user may lose the U+0085
that it starts with. -/
theorem empty_user_not_read_back :
    IsDefaultUser "" ∧ parseQuickConnect "10.0.0.5" "" = some ⟨"", "10.0.0.5", 22⟩ ∧
      parseQuickConnect (quickConnectLabel ⟨"", "10.0.0.5", 22⟩) "" = none ∧
      parseQuickConnect "ssh \u0085root@10.0.0.5" "me" = some ⟨"\u0085root", "10.0.0.5", 22⟩ ∧
      parseQuickConnect (quickConnectLabel ⟨"\u0085root", "10.0.0.5", 22⟩) "me" = some ⟨"root", "10.0.0.5", 22⟩ := by
  refine ⟨fun c hc => absurd hc List.not_mem_nil, ?_⟩
  decide

end Portix.Profiles
