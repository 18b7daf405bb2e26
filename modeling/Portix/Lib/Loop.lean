import Mathlib.Data.List.Basic

/-!
# Loops and graphs

A loop goes round on a state of its own until a turn ends it with a result. A turn may also wait
for something that never comes. And the nodes of a graph that are some number of steps away.
-/

namespace Portix.Lib

variable {σ ρ : Type}

/-- What one turn of a loop ends with. -/
inductive Turn (σ ρ : Type) where
  | next (s : σ)
  | done (r : ρ)
  | waits

def Turn.andThen : Turn σ ρ → (σ → Turn σ ρ) → Turn σ ρ
  | next s, f => f s
  | done r, _ => done r
  | waits, _ => waits

def afterTurns (turn : σ → Turn σ ρ) : Nat → σ → Turn σ ρ
  | 0, s => .next s
  | n + 1, s => (turn s).andThen (afterTurns turn n)

variable {turn turn' : σ → Turn σ ρ} {s : σ}

theorem afterTurns_next (n : Nat) : afterTurns turn (n + 1) s = (turn s).andThen (afterTurns turn n) := rfl

theorem afterTurns_one : afterTurns turn 1 s = turn s := by
  rw [afterTurns_next]
  cases turn s <;> rfl

theorem afterTurns_succ (n : Nat) : afterTurns turn (n + 1) s = (afterTurns turn n s).andThen turn := by
  induction n generalizing s with
  | zero => exact afterTurns_one
  | succ n ih =>
    rw [afterTurns_next, afterTurns_next]
    cases turn s with
    | next s' => exact ih
    | done r => rfl
    | waits => rfl

/-- The rule of invariants: what every turn keeps still holds in the last turn. -/
theorem exists_last_turn {I : σ → Prop} {r : ρ} (hkeep : ∀ s s', I s → turn s = .next s' → I s') (n : Nat)
    (hstart : I s) (hdone : afterTurns turn n s = .done r) : ∃ s', I s' ∧ turn s' = .done r := by
  induction n generalizing s with
  | zero => cases hdone
  | succ n ih =>
    rw [afterTurns_next] at hdone
    cases hturn : turn s with
    | next s' =>
      rw [hturn] at hdone
      exact ih (hkeep s s' hstart hturn) hdone
    | done r' =>
      rw [hturn] at hdone
      exact ⟨s, hstart, hturn.trans hdone⟩
    | waits =>
      rw [hturn] at hdone
      cases hdone

/-- The rule of variants: a loop that goes down with every turn comes to its end. -/
theorem exists_done_of_variant {I : σ → Prop} (μ : σ → Nat) (hwaits : ∀ s, I s → turn s ≠ .waits)
    (hkeep : ∀ s s', I s → turn s = .next s' → I s' ∧ μ s' < μ s) (n : Nat) (hstart : I s) (hlt : μ s < n) :
    ∃ r, afterTurns turn n s = .done r := by
  induction n generalizing s with
  | zero => exact absurd hlt (Nat.not_lt_zero _)
  | succ n ih =>
    rw [afterTurns_next]
    cases hturn : turn s with
    | next s' =>
      obtain ⟨hnext, hless⟩ := hkeep s s' hstart hturn
      exact ih hnext (by omega)
    | done r => exact ⟨r, rfl⟩
    | waits => exact absurd hturn (hwaits s hstart)

/-- The rule of lockstep: two loops agree for ever if their turns agree on the states one of them
comes by. -/
theorem afterTurns_congr (hturn : ∀ n s', afterTurns turn n s = .next s' → turn s' = turn' s')
    (n : Nat) : afterTurns turn n s = afterTurns turn' n s := by
  induction n with
  | zero => rfl
  | succ n ih =>
    rw [afterTurns_succ, afterTurns_succ, ← ih]
    cases hafter : afterTurns turn n s with
    | next s' => exact hturn n s' hafter
    | done r => rfl
    | waits => rfl

end Portix.Lib

-- The nodes that are some number of steps away from a root, and the list of those that are at most `n` steps away,
-- each as often as there are ways to it.

namespace Portix.Lib

variable {α : Type}

def within (children : α → List α) : Nat → α → List α
  | 0, a => [a]
  | n + 1, a => a :: (children a).flatMap (within children n)

/-- The node is that many steps away from the root. -/
inductive AtLevel (children : α → List α) (root : α) : Nat → α → Prop where
  | root : AtLevel children root 0 root
  | child {n : Nat} {a b : α} (hat : AtLevel children root n a) (hmem : b ∈ children a) :
      AtLevel children root (n + 1) b

variable {children children' : α → List α} {root a b : α} {n m : Nat}

theorem within_succ : within children (n + 1) a = a :: (children a).flatMap (within children n) := rfl

theorem length_within_pos : 0 < (within children n a).length := by
  cases n with
  | zero => exact Nat.one_pos
  | succ n => exact Nat.succ_pos _

theorem length_le_flatMap {β : Type} {f : α → List β} {l : List α} (hpos : ∀ a ∈ l, 0 < (f a).length) :
    l.length ≤ (l.flatMap f).length := by
  induction l with
  | nil => exact Nat.le_refl 0
  | cons a l ih =>
    rw [List.flatMap_cons, List.length_append, List.length_cons]
    have hfirst := hpos a List.mem_cons_self
    have hrest := ih fun b hb => hpos b (List.mem_cons_of_mem _ hb)
    omega

theorem AtLevel.of_child (hmem : b ∈ children root) (hat : AtLevel children b n a) :
    AtLevel children root (n + 1) a := by
  induction hat with
  | root => exact .child .root hmem
  | child _ hnext ih => exact .child ih hnext

theorem atLevel_succ : AtLevel children root (n + 1) a ↔ ∃ b ∈ children root, AtLevel children b n a := by
  constructor
  · intro hat
    cases hat with
    | @child _ a' _ hat hmem =>
      induction n generalizing a a' with
      | zero =>
        cases hat
        exact ⟨a, hmem, .root⟩
      | succ n ih =>
        cases hat with
        | child hat' hmem' =>
          obtain ⟨b, hb, hlevel⟩ := ih hat' hmem'
          exact ⟨b, hb, .child hlevel hmem⟩
  · rintro ⟨b, hb, hat⟩
    exact hat.of_child hb

theorem mem_within_iff : a ∈ within children n root ↔ ∃ m ≤ n, AtLevel children root m a := by
  induction n generalizing root with
  | zero =>
    constructor
    · intro hmem
      obtain rfl := List.mem_singleton.mp hmem
      exact ⟨0, Nat.le_refl 0, .root⟩
    · rintro ⟨m, hm, hat⟩
      obtain rfl := Nat.le_zero.mp hm
      cases hat
      exact List.mem_cons_self
  | succ n ih =>
    rw [within_succ, List.mem_cons, List.mem_flatMap]
    constructor
    · rintro (rfl | ⟨b, hb, hmem⟩)
      · exact ⟨0, Nat.zero_le _, .root⟩
      · obtain ⟨m, hm, hat⟩ := ih.mp hmem
        exact ⟨m + 1, Nat.succ_le_succ hm, hat.of_child hb⟩
    · rintro ⟨m, hm, hat⟩
      cases m with
      | zero =>
        cases hat
        exact .inl rfl
      | succ m =>
        obtain ⟨b, hb, hat⟩ := atLevel_succ.mp hat
        exact .inr ⟨b, hb, ih.mpr ⟨m, Nat.le_of_succ_le_succ hm, hat⟩⟩

theorem AtLevel.of_congr (hsame : ∀ m a, AtLevel children root m a → m < n → children a = children' a)
    (hat : AtLevel children' root m a) (hm : m ≤ n) : AtLevel children root m a := by
  induction hat with
  | root => exact .root
  | child _ hmem ih =>
    have hbefore := ih (Nat.le_of_succ_le hm)
    rw [← hsame _ _ hbefore hm] at hmem
    exact .child hbefore hmem

theorem within_congr (hsame : ∀ m a, AtLevel children root m a → m < n → children a = children' a) :
    within children n root = within children' n root := by
  induction n generalizing root with
  | zero => rfl
  | succ n ih =>
    rw [within_succ, within_succ, ← hsame 0 root .root (Nat.succ_pos n)]
    congr 1
    apply List.flatMap_congr
    intro b hb
    exact ih fun m a hat hm => hsame (m + 1) a (hat.of_child hb) (Nat.succ_lt_succ hm)

end Portix.Lib
