import Portix.Kubernetes.KubeTabs
import Portix.Lib.Machine

/-!
# One cluster is shown

A tab is shown after every step, and closing one keeps the shown one.
-/

namespace Portix.Kubernetes

namespace KubeTabs

open Lib

/-- A tab is shown, and no two tabs have the same cluster. -/
structure Shows (s : KubeTabs) : Prop where
  inRange : s.active < s.tabs.length
  nodup : s.tabs.Nodup
  made : ∀ cluster ∈ s.tabs, cluster < s.made

variable {s s' : KubeTabs} {index : Nat}

theorem remaining_of_isEmpty (hempty : (s.tabs.eraseIdx index).isEmpty = true) : s.remaining index = [s.made] := by
  simp [remaining, hempty]

theorem remaining_of_not (hempty : ¬ (s.tabs.eraseIdx index).isEmpty = true) :
    s.remaining index = s.tabs.eraseIdx index := by
  simp [remaining, hempty]

theorem length_remaining_pos (s : KubeTabs) (index : Nat) : 0 < (s.remaining index).length := by
  by_cases hempty : (s.tabs.eraseIdx index).isEmpty = true
  · simp [remaining_of_isEmpty hempty]
  · rw [remaining_of_not hempty, List.length_pos_iff]
    simpa using hempty

theorem shows_start : Shows {} :=
  ⟨Nat.one_pos, List.nodup_singleton _, fun cluster hmem => by
    rw [List.mem_singleton.mp hmem]
    exact Nat.one_pos⟩

theorem Shows.add (h : s.Shows) : s.add.Shows where
  inRange := by simp [KubeTabs.add]
  nodup := List.nodup_append.mpr ⟨h.nodup, List.nodup_singleton _, fun cluster hmem _ hnew heq => by
    rw [List.mem_singleton.mp hnew] at heq
    exact absurd (h.made cluster hmem) (by omega)⟩
  made cluster hmem := by
    rcases List.mem_append.mp hmem with hold | hnew
    · exact Nat.lt_succ_of_lt (h.made cluster hold)
    · rw [List.mem_singleton.mp hnew]
      exact Nat.lt_succ_self _

theorem Shows.close (h : s.Shows) : (s.close index).Shows where
  inRange := by
    have hpos := length_remaining_pos s index
    simp only [KubeTabs.close]
    split <;> omega
  nodup := by
    simp only [KubeTabs.close, remaining]
    split
    · exact List.nodup_singleton _
    · exact h.nodup.sublist (List.eraseIdx_sublist _ _)
  made cluster hmem := by
    simp only [KubeTabs.close, remaining] at hmem ⊢
    split at hmem
    case isTrue hempty =>
      rw [if_pos hempty, List.mem_singleton.mp hmem]
      exact Nat.lt_succ_self _
    case isFalse hempty =>
      rw [if_neg hempty]
      exact h.made cluster (List.mem_of_mem_eraseIdx hmem)

theorem Shows.step {e : KubeTabEvent} {o : List Unit} (h : s.Shows) (hstep : s.step e = some (s', o)) :
    s'.Shows := by
  cases e with
  | add =>
    cases hstep
    exact h.add
  | select index =>
    simp only [KubeTabs.step] at hstep
    split at hstep
    case isTrue hlt =>
      cases hstep
      exact ⟨hlt, h.nodup, h.made⟩
    case isFalse => cases hstep
  | close index =>
    simp only [KubeTabs.step] at hstep
    split at hstep
    case isTrue =>
      cases hstep
      exact h.close
    case isFalse => cases hstep

theorem Shows.keepsShown (h : s.Shows) (hindex : index < s.tabs.length) :
    KeepsShown s.tabs s.active index (s.close index).current := by
  have hrange := h.inRange
  have hlength := List.length_eraseIdx_of_lt hindex
  by_cases hone : s.tabs.length = 1
  · -- The only tab is closed: there is no other one and no neighbour.
    exact ⟨fun hne => absurd (by omega) hne, fun _ hmore => absurd hone (by omega)⟩
  have hempty : ¬ (s.tabs.eraseIdx index).isEmpty = true := by
    rw [List.isEmpty_iff_length_eq_zero]
    omega
  simp only [current, KubeTabs.close, remaining_of_not hempty, hlength]
  by_cases hstay : s.tabs.length - 1 ≤ s.active ∨ index < s.active
  · rw [if_pos hstay, Nat.min_eq_left (by omega)]
    exact .moved (by omega) (by omega)
  · rw [if_neg hstay]
    exact .stay (by omega) (by omega)

end KubeTabs

end Portix.Kubernetes
