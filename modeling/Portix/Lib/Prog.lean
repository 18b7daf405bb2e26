import Mathlib.Tactic.Common

/-!
# Interactive programs

A program that talks to an environment is a tree: it ends with a result, or it asks a request
and goes on with the answer. The environment is given separately, as a handler that answers
requests on a state of its own, so that one program can be run against a well-behaved server, a
failing one, or be read for the requests it can make.

A loop of unbounded length is written with a bound on its iterations; `more` marks the place
where the bound is used up. It is not a result: a run that reaches it says nothing.
-/

namespace Portix.Lib

/-- A program asking requests `q : Q`, answered in `R q`, that ends with an `α` or fails with an
`ε`. -/
inductive Prog (Q : Type) (R : Q → Type) (ε α : Type) where
  | done (r : Except ε α)
  | ask (q : Q) (k : R q → Prog Q R ε α)
  | more

namespace Prog

variable {Q : Type} {R : Q → Type} {ε α β γ σ : Type}

protected def bind : Prog Q R ε α → (α → Prog Q R ε β) → Prog Q R ε β
  | done (.ok a), f => f a
  | done (.error e), _ => done (.error e)
  | ask q k, f => ask q fun r => (k r).bind f
  | more, _ => more

instance : Monad (Prog Q R ε) where
  pure a := done (.ok a)
  bind := Prog.bind

def call (q : Q) : Prog Q R ε (R q) := ask q fun r => done (.ok r)

def lift (r : Except ε α) : Prog Q R ε α := done r

def fail (e : ε) : Prog Q R ε α := done (.error e)

def first : Prog Q R ε α → Option Q
  | ask q _ => some q
  | _ => none

@[simp] theorem pure_eq (a : α) : (pure a : Prog Q R ε α) = done (.ok a) := rfl

@[simp] theorem done_ok_bind (a : α) (f : α → Prog Q R ε β) : (done (.ok a) >>= f) = f a := rfl

@[simp] theorem done_error_bind (e : ε) (f : α → Prog Q R ε β) : (done (.error e) >>= f) = done (.error e) := rfl

@[simp] theorem ask_bind (q : Q) (k : R q → Prog Q R ε α) (f : α → Prog Q R ε β) :
    (ask q k >>= f) = ask q fun r => k r >>= f := rfl

@[simp] theorem more_bind (f : α → Prog Q R ε β) : ((more : Prog Q R ε α) >>= f) = more := rfl

@[simp] theorem call_bind (q : Q) (f : R q → Prog Q R ε β) : (call q >>= f) = ask q f := rfl

@[simp] theorem first_ask (q : Q) (k : R q → Prog Q R ε α) : (ask q k).first = some q := rfl

@[simp] theorem forM_nil (f : β → Prog Q R ε PUnit) : ([] : List β).forM f = done (.ok ⟨⟩) := rfl

@[simp] theorem forM_cons (f : β → Prog Q R ε PUnit) (b : β) (bs : List β) :
    (b :: bs).forM f = f b >>= fun _ => bs.forM f := rfl

/-- Run a program against the handler `h` of its requests. There is no outcome when a loop uses up
its bound. -/
def run (h : (q : Q) → σ → R q × σ) : Prog Q R ε α → σ → Option (Except ε α × σ)
  | done r, s => some (r, s)
  | ask q k, s => (k (h q s).1).run h (h q s).2
  | more, _ => none

variable {h : (q : Q) → σ → R q × σ}

@[simp] theorem run_done (r : Except ε α) (s : σ) : (done r : Prog Q R ε α).run h s = some (r, s) :=
  rfl

@[simp] theorem run_ask (q : Q) (k : R q → Prog Q R ε α) (s : σ) :
    (ask q k).run h s = (k (h q s).1).run h (h q s).2 := rfl

@[simp] theorem run_more (s : σ) : (more : Prog Q R ε α).run h s = none := rfl

theorem run_bind (p : Prog Q R ε α) (f : α → Prog Q R ε β) (s : σ) : (p >>= f).run h s = (p.run h s).bind fun
      | (.ok a, s') => (f a).run h s'
      | (.error e, s') => some (.error e, s') := by
  induction p generalizing s with
  | done r => cases r <;> rfl
  | ask q k ih => exact ih _ _
  | more => rfl

variable {p : Prog Q R ε α} {f : α → Prog Q R ε β}

theorem run_bind_ok {s s' : σ} {a : α} (hp : p.run h s = some (.ok a, s')) : (p >>= f).run h s = (f a).run h s' := by
  rw [run_bind, hp]; rfl

theorem run_bind_eq_ok {s s' : σ} {b : β} (hr : (p >>= f).run h s = some (.ok b, s')) :
    ∃ a s1, p.run h s = some (.ok a, s1) ∧ (f a).run h s1 = some (.ok b, s') := by
  rw [run_bind] at hr
  obtain ⟨⟨r, s1⟩, hp, hf⟩ := Option.bind_eq_some_iff.mp hr
  cases r with
  | ok a => exact ⟨a, s1, hp, hf⟩
  | error e => simp at hf

/-- If `p`, run from `s`, ends, then its result and the state it leaves satisfy `P`. -/
def Ends (h : (q : Q) → σ → R q × σ) (p : Prog Q R ε α) (s : σ) (P : Except ε α → σ → Prop) :
    Prop :=
  ∀ r s', p.run h s = some (r, s') → P r s'

variable {s : σ} {P : Except ε α → σ → Prop}

theorem Ends.done {r : Except ε α} (hP : P r s) : Ends h (done r : Prog Q R ε α) s P := by
  intro r' s' hr
  simp only [run_done, Option.some.injEq, Prod.mk.injEq] at hr
  obtain ⟨rfl, rfl⟩ := hr
  exact hP

theorem Ends.more : Ends h (more : Prog Q R ε α) s P := by
  intro r s' hr
  simp at hr

/-- The rule of one request: what the handler can answer is looked at case by case. -/
theorem Ends.step {q : Q} {k : R q → Prog Q R ε α} (hk : ∀ r s', h q s = (r, s') → Ends h (k r) s' P) : Ends h
    (call q >>= k) s P :=
  hk _ _ rfl

theorem Ends.mono {P P' : Except ε α → σ → Prop} (hp : Ends h p s P)
    (himp : ∀ r s', P r s' → P' r s') : Ends h p s P' :=
  fun r s' hr => himp r s' (hp r s' hr)

/-- The rule of sequencing: `M` holds between the two parts. -/
theorem Ends.bind {M : Except ε α → σ → Prop} {P : Except ε β → σ → Prop} (hp : Ends h p s M)
    (hok : ∀ a s', M (.ok a) s' → Ends h (f a) s' P)
    (herr : ∀ e s', M (.error e) s' → P (.error e) s') : Ends h (p >>= f) s P := by
  intro r s' hr
  rw [run_bind] at hr
  obtain ⟨⟨r1, s1⟩, hp1, hf⟩ := Option.bind_eq_some_iff.mp hr
  cases r1 with
  | ok a => exact hok a s1 (hp _ _ hp1) r s' hf
  | error e =>
    simp only [Option.some.injEq, Prod.mk.injEq] at hf
    obtain ⟨rfl, rfl⟩ := hf
    exact herr e s1 (hp _ _ hp1)

/-- The run of `p` from `s` does not use up the bound of a loop. -/
def Halts (h : (q : Q) → σ → R q × σ) (p : Prog Q R ε α) (s : σ) : Prop :=
  (p.run h s).isSome = true

theorem Halts.done {r : Except ε α} : Halts h (done r : Prog Q R ε α) s := rfl

theorem Halts.step {q : Q} {k : R q → Prog Q R ε α} (hk : ∀ r s', h q s = (r, s') → Halts h (k r) s') : Halts h
    (call q >>= k) s :=
  hk _ _ rfl

theorem Halts.bind (hp : Halts h p s)
    (hf : ∀ a s', p.run h s = some (.ok a, s') → Halts h (f a) s') : Halts h (p >>= f) s := by
  obtain ⟨⟨r, s'⟩, hr⟩ := Option.isSome_iff_exists.mp hp
  unfold Halts
  rw [run_bind, hr]
  cases r with
  | ok a => exact hf a s' hr
  | error e => rfl

theorem Halts.lift {r : Except ε α} (hf : ∀ a, Halts h (f a) s) : Halts h (lift r >>= f) s := by
  cases r with
  | ok a => exact hf a
  | error e => rfl

end Prog

end Portix.Lib
