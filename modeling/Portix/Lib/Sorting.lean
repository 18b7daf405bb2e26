import Mathlib.Data.List.Sort
import Mathlib.Data.Prod.Lex

/-!
# Orders to sort by

What a comparison has to be for a sort by it to mean anything, and stable sorting by a key.
-/

namespace Portix.Lib

variable {α : Type} {S : α → Prop} {lt : α → α → Prop}

/-- A strict weak order on the values with a property. -/
structure StrictWeakOn (S : α → Prop) (lt : α → α → Prop) : Prop where
  irrefl : ∀ a, S a → ¬ lt a a
  trans : ∀ a b c, S a → S b → S c → lt a b → lt b c → lt a c
  incomp_trans : ∀ a b c, S a → S b → S c → ¬ lt a b ∧ ¬ lt b a → ¬ lt b c ∧ ¬ lt c b → ¬ lt a c ∧ ¬ lt c a

namespace StrictWeakOn

theorem asymm (h : StrictWeakOn S lt) {a b : α} (ha : S a) (hb : S b) (hlt : lt a b) : ¬ lt b a :=
  fun hback => h.irrefl a ha (h.trans a b a ha hb ha hlt hback)

theorem below_or_below (h : StrictWeakOn S lt) {a b c : α} (ha : S a) (hb : S b) (hc : S c) (hlt : lt a c) :
    lt a b ∨ lt b c := by
  by_contra hneither
  rw [not_or] at hneither
  obtain ⟨hab, hbc⟩ := hneither
  by_cases hba : lt b a
  · exact hbc (h.trans b a c hb ha hc hba hlt)
  · by_cases hcb : lt c b
    · exact hab (h.trans a c b ha hc hb hlt hcb)
    · exact (h.incomp_trans a b c ha hb hc ⟨hab, hba⟩ ⟨hbc, hcb⟩).1 hlt

theorem of_below_or_below (hasymm : ∀ a b, S a → S b → lt a b → ¬ lt b a)
    (hbelow : ∀ a b c, S a → S b → S c → lt a c → lt a b ∨ lt b c) : StrictWeakOn S lt where
  irrefl a ha hlt := hasymm a a ha ha hlt hlt
  trans a b c ha hb hc hab hbc := (hbelow a c b ha hc hb hab).resolve_right (hasymm b c hb hc hbc)
  incomp_trans a b c ha hb hc hab hbc :=
    ⟨fun hac => (hbelow a b c ha hb hc hac).elim hab.1 hbc.1, fun hca => (hbelow c b a hc hb ha hca).elim hbc.2 hab.2⟩

theorem flip (h : StrictWeakOn S lt) : StrictWeakOn S fun a b => lt b a :=
  of_below_or_below (fun _ _ ha hb hlt => h.asymm hb ha hlt)
    fun _ _ _ ha hb hc hlt => (h.below_or_below hc hb ha hlt).symm

theorem congr {lt' : α → α → Prop} (h : StrictWeakOn S lt) (hlt : ∀ a b, lt' a b ↔ lt a b) : StrictWeakOn S lt' := by
  have heq : lt' = lt := funext fun a => funext fun b => propext (hlt a b)
  rwa [heq]

end StrictWeakOn

end Portix.Lib

-- a list is sorted by a key with the places of its entries to break ties

namespace Portix.Lib

variable {α κ : Type} [LinearOrder κ]

def placeKey (key : α → κ) (entry : α × Nat) : κ ×ₗ Nat := toLex (key entry.1, entry.2)

def stableLe (key : α → κ) (a b : α × Nat) : Bool := decide (placeKey key a ≤ placeKey key b)

theorem placeKey_lt_iff {key : α → κ} {a b : α × Nat} :
    placeKey key a < placeKey key b ↔ key a.1 < key b.1 ∨ key a.1 = key b.1 ∧ a.2 < b.2 :=
  Prod.Lex.toLex_lt_toLex

theorem placeKey_le_iff {key : α → κ} {a b : α × Nat} :
    placeKey key a ≤ placeKey key b ↔ key a.1 < key b.1 ∨ key a.1 = key b.1 ∧ a.2 ≤ b.2 :=
  Prod.Lex.toLex_le_toLex

theorem mergeSort_congr {β : Type} {r s : β → β → Bool} {l : List β} (h : ∀ a ∈ l, ∀ b ∈ l, r a b = s a b) :
    l.mergeSort r = l.mergeSort s := by
  have hmap : (l.mergeSort r).map id = (l.map id).mergeSort s := List.map_mergeSort h
  rwa [List.map_id, List.map_id] at hmap

theorem map_snd_zipIdx (l : List α) : l.zipIdx.map Prod.snd = List.range l.length := by
  rw [List.zipIdx_map_snd, List.range_eq_range']

theorem pairwise_stableSort (key : α → κ) (l : List α) :
    (l.zipIdx.mergeSort (stableLe key)).Pairwise fun a b => placeKey key a < placeKey key b := by
  have hle : (l.zipIdx.mergeSort (stableLe key)).Pairwise fun a b => stableLe key a b = true := by
    refine List.pairwise_mergeSort (fun a b c hab hbc => ?_) (fun a b => ?_) _
    · unfold stableLe at hab hbc ⊢
      exact decide_eq_true ((of_decide_eq_true hab).trans (of_decide_eq_true hbc))
    · unfold stableLe
      simpa using le_total (placeKey key a) (placeKey key b)
  have hplaces : ((l.zipIdx.mergeSort (stableLe key)).map Prod.snd).Nodup := by
    have hperm := (l.zipIdx.mergeSort_perm (stableLe key)).map Prod.snd
    rw [map_snd_zipIdx] at hperm
    exact hperm.nodup_iff.mpr List.nodup_range
  have hne := List.pairwise_map.mp hplaces
  refine (hle.and hne).imp fun {a b} ⟨hab, hplace⟩ => ?_
  refine lt_of_le_of_ne (of_decide_eq_true hab) fun hsame => hplace ?_
  exact congrArg (fun entry => (ofLex entry).2) hsame

theorem infix_of_pairwise {β : Type} {r : β → β → Prop} (hasymm : ∀ a b, r a b → ¬ r b a) {l : List β} {a b : β}
    (hsorted : l.Pairwise r) (ha : a ∈ l) (hb : b ∈ l) (hab : r a b) (hnone : ∀ c ∈ l, r a c → ¬ r c b) :
    [a, b] <:+: l := by
  obtain ⟨before, after, rfl⟩ := List.append_of_mem ha
  obtain ⟨-, hafter, hcross⟩ := List.pairwise_append.mp hsorted
  have hb' : b ∈ after := by
    rcases List.mem_append.mp hb with hbefore | hrest
    · exact absurd (hcross b hbefore a (List.mem_cons_self ..)) (hasymm a b hab)
    · rcases List.mem_cons.mp hrest with rfl | hrest
      · exact absurd hab (hasymm b b hab)
      · exact hrest
  cases after with
  | nil => cases hb'
  | cons c rest =>
    obtain ⟨hfirst, hrest⟩ := List.pairwise_cons.mp hafter
    rcases List.mem_cons.mp hb' with rfl | hlater
    · exact ⟨before, rest, by simp⟩
    · have hcb := (List.pairwise_cons.mp hrest).1 b hlater
      exact absurd hcb (hnone c (by simp) (hfirst c (List.mem_cons_self ..)))

end Portix.Lib
