import Mathlib.Data.List.Basic

/-!
# Machines with a history

A machine takes one event at a time, in any order its events come in, and emits observations. What
it has emitted so far is its history. Runs may be restricted to steps that meet a condition on the
state before the step and its event.
-/

namespace Portix.Lib

theorem some_mk_inj {α β : Type*} {a a' : α} {b b' : β} (h : some (a, b) = some (a', b')) : a = a' ∧ b = b' :=
  Prod.mk.inj (Option.some.inj h)

theorem ite_some_mk_inj {α β : Type*} {c : Prop} [Decidable c] {a a' : α} {b b' : β}
    (h : (if c then some (a, b) else none) = some (a', b')) : c ∧ a = a' ∧ b = b' := by
  obtain ⟨hc, h⟩ := Option.ite_none_right_eq_some.mp h
  exact ⟨hc, some_mk_inj h⟩

theorem bind_ite_some_mk_inj {α β γ : Type*} {c : γ → Prop} [DecidablePred c] {x? : Option γ} {f : γ → α × β} {a : α}
    {b : β} (h : (x?.bind fun x => if c x then some (f x) else none) = some (a, b)) :
    ∃ x, x? = some x ∧ c x ∧ (f x).1 = a ∧ (f x).2 = b := by
  obtain ⟨x, hx, h⟩ := Option.bind_eq_some_iff.mp h
  obtain ⟨hc, h⟩ := Option.ite_none_right_eq_some.mp h
  exact ⟨x, hx, hc, some_mk_inj h⟩

section Parties

variable {α : Type} {parties : List α} {i j : Nat} {old new party : α}

theorem getElem?_set_eq_some (hold : parties[i]? = some old) : (parties.set i new)[j]? = some party ↔
      (j = i ∧ party = new) ∨ (j ≠ i ∧ parties[j]? = some party) := by
  obtain ⟨hlt, -⟩ := List.getElem?_eq_some_iff.mp hold
  by_cases hsame : j = i
  · rw [hsame, List.getElem?_set_self hlt, Option.some.injEq, eq_comm]
    simp
  · rw [List.getElem?_set_ne (Ne.symm hsame)]
    simp [hsame]

theorem getElem?_set_of_ne (hold : parties[i]? = some old) (hne : party ≠ old) (hne' : party ≠ new) :
    (parties.set i new)[j]? = some party ↔ parties[j]? = some party := by
  rw [getElem?_set_eq_some hold]
  constructor
  · rintro (⟨_, hsame⟩ | ⟨_, hat⟩)
    · exact absurd hsame hne'
    · exact hat
  · intro hat
    refine .inr ⟨?_, hat⟩
    rintro rfl
    exact hne (Option.some.inj (hat.symm.trans hold))

theorem getElem?_concat_eq_some : (parties ++ [new])[j]? = some party ↔
      parties[j]? = some party ∨ (j = parties.length ∧ party = new) := by
  by_cases hlt : j < parties.length
  · have hne : j ≠ parties.length := by omega
    rw [List.getElem?_append_left hlt]
    simp [hne]
  · have hnone : parties[j]? = none := List.getElem?_eq_none (by omega)
    rw [List.getElem?_append_right (by omega), hnone]
    by_cases hend : j = parties.length
    · rw [hend, Nat.sub_self, List.getElem?_cons_zero, Option.some.injEq, eq_comm]
      simp
    · have hbeyond : [new][j - parties.length]? = none := by
        apply List.getElem?_eq_none
        rw [List.length_singleton]
        omega
      rw [hbeyond]
      simp [hend]

end Parties

variable {σ ε ω : Type}

/-- The machine can get from `s0` to a state, with a history, by steps that meet `G`. An event that
is not possible in a state has no step. -/
inductive Reaches (step : σ → ε → Option (σ × List ω)) (G : σ → ε → Prop) (s0 : σ) :
    List ω → σ → Prop where
  | start : Reaches step G s0 [] s0
  | next {h o : List ω} {s s' : σ} {e : ε} (before : Reaches step G s0 h s) (guard : G s e)
      (taken : step s e = some (s', o)) : Reaches step G s0 (h ++ o) s'

namespace Reaches

variable {step : σ → ε → Option (σ × List ω)} {G : σ → ε → Prop} {s0 s : σ} {h : List ω}

/-- The rule of invariants: what holds at the start and is kept by every step holds on every run. -/
theorem invariant {I : List ω → σ → Prop} (hstart : I [] s0)
    (hstep : ∀ {h s e s' o}, I h s → G s e → step s e = some (s', o) → I (h ++ o) s')
    (hreach : Reaches step G s0 h s) : I h s := by
  induction hreach with
  | start => exact hstart
  | next _ guard taken ih => exact hstep ih guard taken

/-- The rule of potentials: where no step makes more observations of one kind than it makes of
another and lowers the potential by, no run does. -/
theorem potential {a b : ω → Bool} (φ : σ → Nat)
    (hstep : ∀ {s e s' o}, step s e = some (s', o) → o.countP a + φ s' ≤ φ s + o.countP b)
    (hreach : Reaches step G s0 h s) : h.countP a + φ s ≤ φ s0 + h.countP b := by
  induction hreach with
  | start => simp
  | next _ _ taken ih =>
    have hone := hstep taken
    rw [List.countP_append, List.countP_append]
    omega

/-- The rule of inclusion: a machine whose steps are steps of another makes only runs of the other. -/
theorem mono {step' : σ → ε → Option (σ × List ω)} {G' : σ → ε → Prop}
    (hstep : ∀ {s e r}, G s e → step s e = some r → G' s e ∧ step' s e = some r)
    (hreach : Reaches step G s0 h s) : Reaches step' G' s0 h s := by
  induction hreach with
  | start => exact .start
  | next _ guard taken ih =>
    obtain ⟨guard', taken'⟩ := hstep guard taken
    exact ih.next guard' taken'

theorem trans {s' : σ} {h' : List ω} (hreach : Reaches step G s0 h s)
    (hlater : Reaches step G s h' s') : Reaches step G s0 (h ++ h') s' := by
  induction hlater with
  | start => rwa [List.append_nil]
  | next _ guard taken ih =>
    rw [← List.append_assoc]
    exact ih.next guard taken

/-- The rule of aftermath: where an observation that meets `T` leaves a state that meets `P i` for
some `i`, and every step from there on keeps that and makes only observations that meet `Q i`, so
does everything after that observation in a run. -/
theorem aftermath {ι : Type} {T : ω → Prop} {P : ι → σ → Prop} {Q : ι → ω → Prop}
    (hfirst : ∀ {h s e s' o x o'}, Reaches step G s0 h s → G s e →
      step s e = some (s', o ++ x :: o') → T x → ∃ i, P i s' ∧ ∀ y ∈ o', Q i y)
    (hlater : ∀ {i s e s' o}, P i s → G s e → step s e = some (s', o) → P i s' ∧ ∀ y ∈ o, Q i y)
    (hreach : Reaches step G s0 h s) {h1 h2 : List ω} {x : ω} (hsplit : h = h1 ++ x :: h2)
    (hx : T x) : ∃ i, P i s ∧ ∀ y ∈ h2, Q i y := by
  induction hreach generalizing h2 with
  | start => simp at hsplit
  | @next h o s s' e before guard taken ih =>
    rcases List.append_eq_append_iff.mp hsplit with ⟨o1, -, ho⟩ | ⟨hrest, hh, ho⟩
    · exact hfirst before guard (ho ▸ taken) hx
    · cases hrest with
      | nil =>
        have hnow : step s e = some (s', [] ++ x :: h2) := by rw [taken, ho]; rfl
        exact hfirst before guard hnow hx
      | cons y rest =>
        cases ho
        obtain ⟨i, hafter, hseen⟩ := ih hh
        obtain ⟨hafter', hnew⟩ := hlater hafter guard taken
        refine ⟨i, hafter', fun y hy => ?_⟩
        exact (List.mem_append.mp hy).elim (hseen y) (hnew y)

/-- The rule of observations: where each step makes only observations that fit the history before
them, so does every run. -/
theorem observed {Q : List ω → ω → Prop} (hstep : ∀ {h s e s' o1 x o2}, Reaches step G s0 h s → G s e →
      step s e = some (s', o1 ++ x :: o2) → Q (h ++ o1) x)
    (hreach : Reaches step G s0 h s) {h1 h2 : List ω} {x : ω} (hsplit : h = h1 ++ x :: h2) :
    Q h1 x := by
  induction hreach generalizing h2 with
  | start => simp at hsplit
  | @next h o s s' e before guard taken ih =>
    rcases List.append_eq_append_iff.mp hsplit with ⟨o1, rfl, ho⟩ | ⟨rest, hh, ho⟩
    · exact hstep before guard (ho ▸ taken)
    · cases rest with
      | nil =>
        have hnow : step s e = some (s', [] ++ x :: h2) := by rw [taken, ho]; rfl
        have hlast := hstep before guard hnow
        rw [hh] at hlast
        simpa using hlast
      | cons y rest =>
        cases ho
        exact ih hh

end Reaches

def traced (step : σ → ε → Option (σ × List ω)) (s : σ) (e : ε) : Option (σ × List ε) :=
  (step s e).map fun r => (r.1, [e])

theorem traced_eq_some {step : σ → ε → Option (σ × List ω)} {s s' : σ} {e : ε} {trace : List ε} :
    traced step s e = some (s', trace) ↔ (∃ o, step s e = some (s', o)) ∧ trace = [e] := by
  unfold traced
  rw [Option.map_eq_some_iff]
  constructor
  · rintro ⟨r, hstep, ⟨⟩⟩
    exact ⟨⟨r.2, hstep⟩, rfl⟩
  · rintro ⟨⟨o, hstep⟩, rfl⟩
    exact ⟨(s', o), hstep, rfl⟩

/-- The state and the history after a list of events, if all of them are possible. -/
def runEvents (step : σ → ε → Option (σ × List ω)) : List ε → σ → Option (σ × List ω)
  | [], s => some (s, [])
  | e :: rest, s => (step s e).bind fun r =>
    (runEvents step rest r.1).map fun r' => (r'.1, r.2 ++ r'.2)

theorem Reaches.of_runEvents {step : σ → ε → Option (σ × List ω)} {G : σ → ε → Prop} {s0 : σ}
    (events : List ε) : ∀ {h o : List ω} {s s' : σ}, (∀ s e, e ∈ events → G s e) →
      Reaches step G s0 h s → runEvents step events s = some (s', o) →
      Reaches step G s0 (h ++ o) s' := by
  induction events with
  | nil =>
    intro h o s s' _ hreach hrun
    cases Option.some.inj hrun
    rwa [List.append_nil]
  | cons e rest ih =>
    intro h o s s' hguard hreach hrun
    obtain ⟨⟨s1, o1⟩, hstep, hrest⟩ := Option.bind_eq_some_iff.mp hrun
    obtain ⟨⟨s2, o2⟩, hrun2, ⟨⟩⟩ := Option.map_eq_some_iff.mp hrest
    have hnext := hreach.next (hguard s e (by simp)) hstep
    rw [← List.append_assoc]
    exact ih (fun s e he => hguard s e (List.mem_cons_of_mem _ he)) hnext hrun2

def checked (check : σ → ε → Bool) (step : σ → ε → Option (σ × List ω)) (s : σ) (e : ε) :
    Option (σ × List ω) :=
  if check s e then step s e else none

theorem Reaches.of_checkedEvents {step : σ → ε → Option (σ × List ω)} {G : σ → ε → Prop} {s0 s : σ}
    {o : List ω} (check : σ → ε → Bool) (hcheck : ∀ s e, check s e = true → G s e)
    (events : List ε) (hrun : runEvents (checked check step) events s0 = some (s, o)) :
    Reaches step G s0 o s := by
  have hstart : Reaches (checked check step) (fun _ _ => True) s0 [] s0 := .start
  have hreach := Reaches.of_runEvents events (fun _ _ _ => trivial) hstart hrun
  refine hreach.mono fun {s e r} _ hstep => ?_
  unfold checked at hstep
  by_cases hpass : check s e = true
  · rw [if_pos hpass] at hstep
    exact ⟨hcheck s e hpass, hstep⟩
  · rw [if_neg hpass] at hstep
    cases hstep

theorem Reaches.exists_of_events (step : σ → ε → Option (σ × List ω)) (s0 : σ) {P : σ → Prop}
    [DecidablePred P] (events : List ε)
    (hrun : (runEvents step events s0).any (fun r => P r.1) = true) :
    ∃ h s, Reaches step (fun _ _ => True) s0 h s ∧ P s := by
  obtain ⟨⟨s, h⟩, hrun, htest⟩ := Option.any_eq_true _ _ |>.mp hrun
  exact ⟨h, s, Reaches.of_runEvents events (fun _ _ _ => trivial) .start hrun, of_decide_eq_true htest⟩

theorem Reaches.exists_history (step : σ → ε → Option (σ × List ω)) {G : σ → ε → Prop}
    (s0 : σ) {P : List ω → σ → Prop} [∀ h s, Decidable (P h s)] (check : σ → ε → Bool)
    (hcheck : ∀ s e, check s e = true → G s e) (events : List ε)
    (hrun : (runEvents (checked check step) events s0).any (fun r => P r.2 r.1) = true) :
    ∃ h s, Reaches step G s0 h s ∧ P h s := by
  obtain ⟨⟨s, h⟩, hrun, htest⟩ := Option.any_eq_true _ _ |>.mp hrun
  exact ⟨h, s, Reaches.of_checkedEvents check hcheck events hrun, of_decide_eq_true htest⟩

theorem Reaches.exists_of_checkedEvents (step : σ → ε → Option (σ × List ω)) {G : σ → ε → Prop}
    (s0 : σ) {P : σ → Prop} [DecidablePred P] (check : σ → ε → Bool)
    (hcheck : ∀ s e, check s e = true → G s e) (events : List ε)
    (hrun : (runEvents (checked check step) events s0).any (fun r => P r.1) = true) :
    ∃ h s, Reaches step G s0 h s ∧ P s :=
  Reaches.exists_history step s0 (P := fun _ s => P s) check hcheck events hrun

end Portix.Lib
