import Mathlib.Tactic.Common

/-!
# Maps in both directions

A partial map and the map back, kept beside each other. They stay inverse to each other where a pair
is put in whose two ends go with nothing else, and where a pair is taken out by one of its ends.
-/

namespace Portix.Lib

variable {α β : Type}

/-- Two partial maps are inverse to each other. -/
def Inverse (there : α → Option β) (back : β → Option α) : Prop :=
  ∀ a b, there a = some b ↔ back b = some a

variable {there : α → Option β} {back : β → Option α}

theorem inverse_empty : Inverse (fun _ : α => (none : Option β)) fun _ => none :=
  fun _ _ => ⟨nofun, nofun⟩

variable [DecidableEq α] [DecidableEq β] {a : α} {b : β}

theorem Inverse.insert (hinv : Inverse there back) (hthere : there a = none ∨ there a = some b)
    (hback : back b = none ∨ back b = some a) :
    Inverse (Function.update there a (some b)) (Function.update back b (some a)) := by
  -- whatever else goes with one of the two ends would go with the other
  have hother : ∀ {b'}, b' ≠ b → back b' ≠ some a := by
    intro b' hne hb'
    have ha := (hinv a b').mpr hb'
    rcases hthere with hnone | hsome
    · rw [hnone] at ha
      cases ha
    · rw [hsome] at ha
      exact hne (Option.some.inj ha).symm
  have hother' : ∀ {a'}, a' ≠ a → there a' ≠ some b := by
    intro a' hne ha'
    have hb := (hinv a' b).mp ha'
    rcases hback with hnone | hsome
    · rw [hnone] at hb
      cases hb
    · rw [hsome] at hb
      exact hne (Option.some.inj hb).symm
  intro a' b'
  by_cases ha : a' = a
  · by_cases hb : b' = b
    · rw [ha, hb, Function.update_self, Function.update_self]
      exact ⟨fun _ => rfl, fun _ => rfl⟩
    · rw [ha, Function.update_self, Function.update_of_ne hb]
      exact ⟨fun h => absurd (Option.some.inj h).symm hb, fun h => absurd h (hother hb)⟩
  · rw [Function.update_of_ne ha]
    by_cases hb : b' = b
    · rw [hb, Function.update_self]
      exact ⟨fun h => absurd h (hother' ha), fun h => absurd (Option.some.inj h).symm ha⟩
    · rw [Function.update_of_ne hb]
      exact hinv a' b'

theorem Inverse.erase (hinv : Inverse there back) (hback : back b = some a) :
    Inverse (Function.update there a none) (Function.update back b none) := by
  have hthere := (hinv a b).mpr hback
  intro a' b'
  by_cases ha : a' = a
  · subst ha
    rw [Function.update_self]
    by_cases hb : b' = b
    · subst hb
      rw [Function.update_self]
      exact ⟨nofun, nofun⟩
    · rw [Function.update_of_ne hb]
      refine ⟨nofun, fun h => ?_⟩
      have hthere' := (hinv a' b').mpr h
      rw [hthere] at hthere'
      exact absurd (Option.some.inj hthere').symm hb
  · rw [Function.update_of_ne ha]
    by_cases hb : b' = b
    · subst hb
      rw [Function.update_self]
      refine ⟨fun h => ?_, nofun⟩
      have hback' := (hinv a' b').mp h
      rw [hback] at hback'
      exact absurd (Option.some.inj hback').symm ha
    · rw [Function.update_of_ne hb]
      exact hinv a' b'

omit [DecidableEq α] in
/-- Taking out what is not there changes nothing. -/
theorem update_none_of_none (hback : back b = none) : Function.update back b none = back := by
  rw [← hback, Function.update_eq_self]

end Portix.Lib
