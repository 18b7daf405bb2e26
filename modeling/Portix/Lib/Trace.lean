import Portix.Lib.Prog

/-!
# Traces

An environment may answer a request in several ways, or never. A trace is what a program has asked so
far, with the answers, and the program that is left.
-/

namespace Portix.Lib.Prog

variable {Q : Type} {R : Q → Type} {ε α β σ : Type}

abbrev Event (Q : Type) (R : Q → Type) : Type := (q : Q) × R q

/-- How the environment may answer a request in a state, and the state it is in afterwards. -/
abbrev Environment (Q : Type) (R : Q → Type) (σ : Type) : Type := (q : Q) → σ → R q → σ → Prop

inductive Trace (env : Environment Q R σ) :
    Prog Q R ε α → σ → List (Event Q R) → Prog Q R ε α → σ → Prop
  | nil (p : Prog Q R ε α) (s : σ) : Trace env p s [] p s
  | cons {q : Q} {k : R q → Prog Q R ε α} {s s' s'' : σ} {r : R q} {es : List (Event Q R)}
      {p : Prog Q R ε α} : env q s r s' → Trace env (k r) s' es p s'' →
      Trace env (ask q k) s (⟨q, r⟩ :: es) p s''

variable {env : Environment Q R σ}

/-- Every trace from a state keeps `P`, whether it is finished or not; if the program has ended well, its
result satisfies `D`. -/
def Meets (env : Environment Q R σ) (p : Prog Q R ε α) (s : σ) (P : List (Event Q R) → Prop)
    (D : α → List (Event Q R) → Prop) : Prop :=
  ∀ es p' s', Trace env p s es p' s' → P es ∧ ∀ a, p' = .done (.ok a) → D a es

/-- No trace from a state uses up the bound of a loop. -/
def Bounded (env : Environment Q R σ) (p : Prog Q R ε α) (s : σ) : Prop :=
  ∀ es p' s', Trace env p s es p' s' → p' ≠ .more

/-- Every request that a program makes is `ok` after what came before it, whatever the answers are, and its
result satisfies `D`. -/
def Guarded (ok : List (Event Q R) → Q → Prop) (D : α → List (Event Q R) → Prop) :
    Prog Q R ε α → List (Event Q R) → Prop
  | .done (.ok a), before => D a before
  | .done (.error _), _ => True
  | .ask q k, before => ok before q ∧ ∀ r, (k r).Guarded ok D (before ++ [⟨q, r⟩])
  | .more, _ => True

/-- Every request of a trace is `ok` after the ones before it. -/
def Justified (ok : List (Event Q R) → Q → Prop) (es : List (Event Q R)) : Prop :=
  ∀ es₁ e es₂, es = es₁ ++ e :: es₂ → ok es₁ e.1

section Rules

variable {p p' : Prog Q R ε α} {f : α → Prog Q R ε β} {r : Except ε α} {s s' : σ} {es : List (Event Q R)}
  {P : List (Event Q R) → Prop} {D : α → List (Event Q R) → Prop}

theorem Trace.done_iff : Trace env (done r) s es p' s' ↔ es = [] ∧ p' = done r ∧ s' = s := by
  constructor
  · rintro ⟨⟩
    exact ⟨rfl, rfl, rfl⟩
  · rintro ⟨rfl, rfl, rfl⟩
    exact .nil _ _

theorem Trace.answered (h : Trace env p s es p' s') : ∀ event ∈ es, ∃ s₁ s₂, env event.1 s₁ event.2 s₂ := by
  induction h with
  | nil => exact fun _ hevent => nomatch hevent
  | cons hanswer _ ih =>
    intro event hevent
    rcases List.mem_cons.mp hevent with rfl | hevent
    · exact ⟨_, _, hanswer⟩
    · exact ih event hevent

theorem Trace.bind_cases {q : Prog Q R ε β} (h : Trace env (p >>= f) s es q s') :
    (∃ p', Trace env p s es p' s' ∧ q = p' >>= f) ∨
      ∃ a es₁ es₂ s₁, Trace env p s es₁ (.done (.ok a)) s₁ ∧ Trace env (f a) s₁ es₂ q s' ∧ es = es₁ ++ es₂ := by
  induction p generalizing s es with
  | done r =>
    cases r with
    | ok a => exact Or.inr ⟨a, [], es, s, .nil _ _, h, rfl⟩
    | error e =>
      rw [done_error_bind] at h
      obtain ⟨rfl, rfl, rfl⟩ := Trace.done_iff.mp h
      exact Or.inl ⟨.done (.error e), .nil _ _, rfl⟩
  | more =>
    rw [more_bind] at h
    cases h
    exact Or.inl ⟨.more, .nil _ _, rfl⟩
  | ask request k ih =>
    rw [ask_bind] at h
    cases h with
    | nil => exact Or.inl ⟨_, .nil _ _, (ask_bind ..).symm⟩
    | cons hanswer hrest =>
      rcases ih _ hrest with ⟨p', hp', rfl⟩ | ⟨a, es₁, es₂, s₁, hfirst, hsecond, rfl⟩
      · exact Or.inl ⟨p', .cons hanswer hp', rfl⟩
      · exact Or.inr ⟨a, _ :: es₁, es₂, s₁, .cons hanswer hfirst, hsecond, rfl⟩

theorem Meets.done (hP : P []) (hD : ∀ a, r = .ok a → D a []) : Meets env (done r) s P D := by
  intro es p' s' h
  obtain ⟨rfl, rfl, -⟩ := Trace.done_iff.mp h
  refine ⟨hP, fun a ha => hD a ?_⟩
  cases ha
  rfl

theorem Meets.more (hP : P []) : Meets env (.more : Prog Q R ε α) s P D := by
  rintro es p' s' ⟨⟩
  exact ⟨hP, fun a ha => nomatch ha⟩

/-- The rule of one request. -/
theorem Meets.call {q : Q} {k : R q → Prog Q R ε α} (hP : P []) (hk : ∀ r s', env q s r s' →
      Meets env (k r) s' (fun es => P (⟨q, r⟩ :: es)) fun a es => D a (⟨q, r⟩ :: es)) :
    Meets env (call q >>= k) s P D := by
  intro es p' s' h
  rw [call_bind] at h
  cases h with
  | nil => exact ⟨hP, fun a ha => nomatch ha⟩
  | cons hanswer hrest => exact hk _ _ hanswer _ _ _ hrest

/-- The rule of sequencing. -/
theorem Meets.bind {P' : List (Event Q R) → Prop} {D' : β → List (Event Q R) → Prop}
    (hp : Meets env p s P D) (hP : ∀ es, P es → P' es)
    (hf : ∀ a es s', P es → D a es → Meets env (f a) s' (fun es' => P' (es ++ es')) fun b es' => D' b (es ++ es')) :
    Meets env (p >>= f) s P' D' := by
  intro es q s' h
  rcases h.bind_cases with ⟨p', hp', rfl⟩ | ⟨a, es₁, es₂, s₁, hfirst, hsecond, rfl⟩
  · obtain ⟨hes, hresult⟩ := hp _ _ _ hp'
    refine ⟨hP es hes, fun b hb => ?_⟩
    cases p' with
    | done r => cases r with
      | ok a =>
        rw [done_ok_bind] at hb
        have hend : D' b (es ++ []) := (hf a es s' hes (hresult a rfl) [] (f a) s' (.nil _ _)).2 b hb
        rwa [List.append_nil] at hend
      | error e => cases hb
    | ask q k => cases hb
    | more => cases hb
  · obtain ⟨hes, hresult⟩ := hp _ _ _ hfirst
    exact hf a es₁ s₁ hes (hresult a rfl) _ _ _ hsecond

theorem Meets.mono {P' : List (Event Q R) → Prop} {D' : α → List (Event Q R) → Prop}
    (h : Meets env p s P D) (hP : ∀ es, P es → P' es) (hD : ∀ a es, P es → D a es → D' a es) :
    Meets env p s P' D' := by
  intro es p' s' htrace
  obtain ⟨hes, hresult⟩ := h es p' s' htrace
  exact ⟨hP es hes, fun a ha => hD a es hes (hresult a ha)⟩

theorem Bounded.done : Bounded env (done r : Prog Q R ε α) s := by
  intro es p' s' h
  obtain ⟨-, rfl, -⟩ := Trace.done_iff.mp h
  exact fun hmore => nomatch hmore

theorem Bounded.call {q : Q} {k : R q → Prog Q R ε α}
    (hk : ∀ r s', env q s r s' → Bounded env (k r) s') : Bounded env (call q >>= k) s := by
  intro es p' s' h
  rw [call_bind] at h
  cases h with
  | nil => exact fun hmore => nomatch hmore
  | cons hanswer hrest => exact hk _ _ hanswer _ _ _ hrest

theorem Bounded.bind (hp : Bounded env p s) (hmeets : Meets env p s P D)
    (hf : ∀ a es s', D a es → Bounded env (f a) s') : Bounded env (p >>= f) s := by
  intro es q s' h
  rcases h.bind_cases with ⟨p', hp', rfl⟩ | ⟨a, es₁, es₂, s₁, hfirst, hsecond, -⟩
  · cases p' with
    | done r => cases r with
      | ok a => exact hf a es s' ((hmeets _ _ _ hp').2 a rfl) [] _ s' (.nil _ _)
      | error e => exact fun hmore => nomatch hmore
    | ask q k => exact fun hmore => nomatch hmore
    | more => exact absurd rfl (hp _ _ _ hp')
  · exact hf a es₁ s₁ ((hmeets _ _ _ hfirst).2 a rfl) _ _ _ hsecond

variable {before : List (Event Q R)} {ok : List (Event Q R) → Q → Prop} {D' : β → List (Event Q R) → Prop}

theorem Guarded.call {q : Q} {k : R q → Prog Q R ε α} (hq : ok before q)
    (hk : ∀ r, (k r).Guarded ok D (before ++ [⟨q, r⟩])) : (call q >>= k).Guarded ok D before := ⟨hq, hk⟩

theorem Guarded.lift (hf : ∀ a, r = .ok a → (f a).Guarded ok D' before) : (lift r >>= f).Guarded ok D' before := by
  cases r with
  | ok a => exact hf a rfl
  | error e => trivial

theorem Guarded.bind (hp : p.Guarded ok D before) (hf : ∀ a es, D a es → (f a).Guarded ok D' es) :
    (p >>= f).Guarded ok D' before := by
  induction p generalizing before with
  | done r => cases r with
    | ok a => exact hf a before hp
    | error e => trivial
  | ask q k ih => exact ⟨hp.1, fun r => ih r (hp.2 r)⟩
  | more => trivial

/-- What the events before a program have, and further events leave alone, is still there when it has ended. -/
theorem Guarded.keep {I : List (Event Q R) → Prop} (hp : p.Guarded ok (fun _ _ => True) before)
    (hmono : ∀ es es', es <+: es' → I es → I es') (hI : I before) : p.Guarded ok (fun _ es => I es) before := by
  induction p generalizing before with
  | done r => cases r with
    | ok a => exact hI
    | error e => trivial
  | ask q k ih => exact ⟨hp.1, fun r => ih r (hp.2 r) (hmono _ _ (List.prefix_append _ _) hI)⟩
  | more => trivial

/-- A program is guarded under a condition that fails already. -/
theorem Guarded.of_not {T : List (Event Q R) → Prop} (hmono : ∀ es es', es <+: es' → T es' → T es)
    (hnot : ¬T before) : p.Guarded (fun es q => T es → ok es q) (fun _ _ => True) before := by
  induction p generalizing before with
  | done r => cases r <;> trivial
  | ask q k ih =>
    exact ⟨fun hT => absurd hT hnot, fun r => ih r fun hT => hnot (hmono _ _ (List.prefix_append _ _) hT)⟩
  | more => trivial

theorem Guarded.forM {γ : Type} {I : List (Event Q R) → Prop} {g : γ → Prog Q R ε PUnit} {items : List γ}
    (hg : ∀ item ∈ items, ∀ es, I es → (g item).Guarded ok (fun _ es => I es) es) (hI : I before) :
    (items.forM g).Guarded ok (fun _ es => I es) before := by
  induction items generalizing before with
  | nil => exact hI
  | cons item rest ih =>
    rw [List.forall_mem_cons] at hg
    exact (hg.1 before hI).bind fun _ es hes => ih hg.2 hes

theorem Guarded.trace (hp : p.Guarded ok D before) (h : Trace env p s es p' s') :
    (∀ es₁ e es₂, es = es₁ ++ e :: es₂ → ok (before ++ es₁) e.1) ∧
      ∀ a, p' = .done (.ok a) → D a (before ++ es) := by
  induction h generalizing before with
  | nil =>
    refine ⟨fun es₁ e es₂ hes => by simp at hes, ?_⟩
    rintro a rfl
    rw [List.append_nil]
    exact hp
  | @cons q _ _ _ _ r _ _ _ _ ih =>
    obtain ⟨hok, hresult⟩ := ih (hp.2 r)
    refine ⟨fun es₁ e es₂ hes => ?_, fun a ha => ?_⟩
    · rcases List.cons_eq_append_iff.mp hes with ⟨rfl, hcons⟩ | ⟨es₁', rfl, htail⟩
      · cases hcons
        rw [List.append_nil]
        exact hp.1
      · have hlater := hok es₁' e es₂ htail
        rwa [List.append_assoc] at hlater
    · have hend := hresult a ha
      rwa [List.append_assoc] at hend

/-- What the environment answers to the first request may be needed for the others. -/
theorem Justified.of_first {q : Q} {k : R q → Prog Q R ε α} (hq : ok [] q)
    (hk : ∀ r s', env q s r s' → (k r).Guarded ok D [⟨q, r⟩]) (h : Trace env (ask q k) s es p' s') :
    Justified ok es := by
  cases h with
  | nil => exact fun es₁ e es₂ hes => by simp at hes
  | cons hanswer hrest =>
    intro es₁ e es₂ hes
    rcases List.cons_eq_append_iff.mp hes with ⟨rfl, hcons⟩ | ⟨es₁', rfl, htail⟩
    · cases hcons
      exact hq
    · exact ((hk _ _ hanswer).trace hrest).1 es₁' e es₂ htail

theorem Guarded.justified (hp : p.Guarded ok D []) (h : Trace env p s es p' s') : Justified ok es := (hp.trace h).1

theorem Guarded.meets (hp : p.Guarded ok D []) : Meets env p s (Justified ok) D := by
  intro es p' s' h
  exact hp.trace h

end Rules

end Portix.Lib.Prog
