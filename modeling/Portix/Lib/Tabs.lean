import Mathlib.Data.List.Nodup

/-!
# Tabs

A row of tabs, one of which is shown: where the shown one is after a tab has been closed.
-/

namespace Portix.Lib

variable {α : Type} {tabs : List α} {active index : Nat}

/-- What is shown once the tab at `index` has been closed: the tab that was shown before, or a neighbour of it if it
was the one that is closed. -/
structure KeepsShown (tabs : List α) (active index : Nat) (shown : Option α) : Prop where
  other : index ≠ active → shown = tabs[active]?
  own : index = active → 1 < tabs.length →
    ∃ i, (i + 1 = active ∨ i = active + 1) ∧ i < tabs.length ∧ shown = tabs[i]?

theorem KeepsShown.stay (hle : active ≤ index) (hactive : active + 1 < tabs.length) :
    KeepsShown tabs active index (tabs.eraseIdx index)[active]? where
  other hne := by
    rw [List.getElem?_eraseIdx, if_pos (by omega)]
  own heq _ := by
    refine ⟨active + 1, .inr rfl, hactive, ?_⟩
    rw [List.getElem?_eraseIdx, if_neg (by omega)]

theorem KeepsShown.moved (hle : index ≤ active)
    (hlast : index = active → active + 1 = tabs.length) :
    KeepsShown tabs active index (tabs.eraseIdx index)[active - 1]? where
  other hne := by
    rw [List.getElem?_eraseIdx, if_neg (by omega), Nat.sub_add_cancel (by omega)]
  own heq hlength := by
    have hend := hlast heq
    refine ⟨active - 1, .inl (by omega), by omega, ?_⟩
    rw [List.getElem?_eraseIdx, if_pos (by omega)]

theorem not_keepsShown (hnodup : tabs.Nodup) (hlt : index < active) (hactive : active + 1 < tabs.length) :
    ¬ KeepsShown tabs active index (tabs.eraseIdx index)[active]? := by
  intro hkeeps
  have hshown := hkeeps.other (by omega)
  rw [List.getElem?_eraseIdx, if_neg (by omega)] at hshown
  have hplace := (List.getElem?_inj hactive hnodup).mp hshown
  omega

end Portix.Lib
