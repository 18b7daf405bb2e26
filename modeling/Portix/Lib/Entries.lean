import Mathlib.Algebra.GroupWithZero.Nat
import Mathlib.Data.List.Nodup

/-!
# Maps as lists of entries

A map whose keys keep the order in which they first came, as Dart's do: the entry of one key is set from what it was,
and a list of elements is gathered under the keys that they have.
-/

namespace Portix.Lib

variable {κ β : Type} [DecidableEq κ]

/-- The entry of a key is what `f` makes of the old one; a key keeps its place. -/
def putEntry (key : κ) (f : Option β → β) : List (κ × β) → List (κ × β)
  | [] => [(key, f none)]
  | (k, b) :: rest => if k = key then (k, f (some b)) :: rest else (k, b) :: putEntry key f rest

theorem putEntry_cons (key k : κ) (f : Option β → β) (b : β) (rest : List (κ × β)) : putEntry key f ((k, b) :: rest) =
    if k = key then (k, f (some b)) :: rest else (k, b) :: putEntry key f rest := rfl

theorem lookup_entries_cons (k k' : κ) (b : β) (rest : List (κ × β)) :
    ((k', b) :: rest).lookup k = if k = k' then some b else rest.lookup k := by
  rw [List.lookup_cons]
  by_cases h : k = k'
  · rw [if_pos h, beq_iff_eq.mpr h]
  · rw [if_neg h, beq_eq_false_iff_ne.mpr h]

theorem lookup_putEntry (key : κ) (f : Option β → β) (entries : List (κ × β)) (k : κ) :
    (putEntry key f entries).lookup k = if k = key then some (f (entries.lookup key)) else entries.lookup k := by
  induction entries with
  | nil => exact lookup_entries_cons k key _ []
  | cons entry rest ih =>
    obtain ⟨name, b⟩ := entry
    rw [putEntry_cons]
    by_cases hname : name = key
    · subst hname
      rw [if_pos rfl, lookup_entries_cons, lookup_entries_cons, lookup_entries_cons, if_pos rfl]
      by_cases hk : k = name
      · rw [if_pos hk, if_pos hk]
      · rw [if_neg hk, if_neg hk, if_neg hk]
    · rw [if_neg hname, lookup_entries_cons k name _, lookup_entries_cons k name b rest,
        lookup_entries_cons key name b, if_neg (fun h : key = name => hname h.symm), ih]
      by_cases hk : k = name
      · rw [if_pos hk, if_pos hk, if_neg (fun h => hname (hk.symm.trans h))]
      · rw [if_neg hk, if_neg hk]

variable {entries : List (κ × β)}

theorem mem_keys_putEntry {key k : κ} {f : Option β → β} :
    k ∈ (putEntry key f entries).map Prod.fst ↔ k = key ∨ k ∈ entries.map Prod.fst := by
  induction entries with
  | nil => simp [putEntry]
  | cons entry rest ih =>
    obtain ⟨name, b⟩ := entry
    rw [putEntry_cons]
    by_cases hname : name = key
    · rw [if_pos hname, List.map_cons, List.map_cons, List.mem_cons, hname]
      simp
    · rw [if_neg hname, List.map_cons, List.map_cons, List.mem_cons, List.mem_cons, ih]
      simp only [or_left_comm]

theorem nodup_putEntry {key : κ} {f : Option β → β} (h : (entries.map Prod.fst).Nodup) :
    ((putEntry key f entries).map Prod.fst).Nodup := by
  induction entries with
  | nil => exact List.nodup_singleton key
  | cons entry rest ih =>
    obtain ⟨name, b⟩ := entry
    rw [List.map_cons, List.nodup_cons] at h
    rw [putEntry_cons]
    by_cases hname : name = key
    · rw [if_pos hname, List.map_cons, List.nodup_cons]
      exact h
    · rw [if_neg hname, List.map_cons, List.nodup_cons, mem_keys_putEntry, not_or]
      exact ⟨⟨hname, h.1⟩, ih h.2⟩

theorem putEntry_of_notMem {key : κ} {f : Option β → β} (hnew : key ∉ entries.map Prod.fst) :
    putEntry key f entries = entries ++ [(key, f none)] := by
  induction entries with
  | nil => rfl
  | cons entry rest ih =>
    rw [List.map_cons, List.mem_cons, not_or] at hnew
    rw [putEntry_cons, if_neg (Ne.symm hnew.1), ih hnew.2]
    rfl

theorem lookup_entries_filter (key : κ) (entries : List (κ × β)) (k : κ) :
    (entries.filter fun entry => entry.1 ≠ key).lookup k = if k = key then none else entries.lookup k := by
  induction entries with
  | nil => exact (ite_self none).symm
  | cons entry rest ih =>
    obtain ⟨name, b⟩ := entry
    by_cases hname : name = key
    · rw [List.filter_cons_of_neg (by simp [hname]), ih, lookup_entries_cons, hname]
      split_ifs <;> rfl
    · rw [List.filter_cons_of_pos (by simp [hname]), lookup_entries_cons, lookup_entries_cons, ih]
      by_cases hk : k = name
      · have hkey : k ≠ key := fun h => hname (hk.symm.trans h)
        rw [if_pos hk, if_neg hkey, if_pos hk]
      · rw [if_neg hk, if_neg hk]

theorem mem_iff_lookup (h : (entries.map Prod.fst).Nodup) {k : κ} {b : β} :
    (k, b) ∈ entries ↔ entries.lookup k = some b := by
  induction entries with
  | nil => simp
  | cons entry rest ih =>
    obtain ⟨name, b'⟩ := entry
    rw [List.map_cons, List.nodup_cons] at h
    rw [List.mem_cons, Prod.mk.injEq, lookup_entries_cons]
    by_cases hk : k = name
    · subst hk
      rw [if_pos rfl, Option.some.injEq]
      constructor
      · rintro (⟨_, rfl⟩ | hmem)
        · rfl
        · exact absurd (List.mem_map_of_mem (f := Prod.fst) hmem) h.1
      · intro hb
        exact .inl ⟨rfl, hb.symm⟩
    · rw [if_neg hk, ← ih h.2]
      simp [hk]

theorem sum_putEntry {w : β → ℕ} {f : Option β → β} (h : ∀ old, w (f old) = old.elim 0 w + 1) (key : κ)
    (entries : List (κ × β)) :
    ((putEntry key f entries).map fun entry => w entry.2).sum = (entries.map fun entry => w entry.2).sum + 1 := by
  induction entries with
  | nil => exact h none
  | cons entry rest ih =>
    obtain ⟨name, b⟩ := entry
    rw [putEntry_cons]
    by_cases hname : name = key
    · rw [if_pos hname, List.map_cons, List.map_cons, List.sum_cons, List.sum_cons, h, Option.elim_some]
      exact Nat.add_right_comm _ _ _
    · rw [if_neg hname, List.map_cons, List.map_cons, List.sum_cons, List.sum_cons, ih]
      omega

section

variable {α : Type} (key : α → κ) (f : α → Option β → β)

/-- The elements of a list gathered under their keys, one after the other. -/
def gather (entries : List (κ × β)) (items : List α) : List (κ × β) :=
  items.foldl (fun entries item => putEntry (key item) (f item) entries) entries

theorem keys_gather {items : List α} {k : κ} :
    k ∈ (gather key f entries items).map Prod.fst ↔ k ∈ entries.map Prod.fst ∨ k ∈ items.map key := by
  induction items generalizing entries with
  | nil => simp [gather]
  | cons item rest ih =>
    rw [gather, List.foldl_cons, ← gather, ih, mem_keys_putEntry, List.map_cons, List.mem_cons]
    simp only [or_assoc, or_left_comm]

theorem nodup_gather (h : (entries.map Prod.fst).Nodup) (items : List α) :
    ((gather key f entries items).map Prod.fst).Nodup := by
  induction items generalizing entries with
  | nil => exact h
  | cons item rest ih => exact ih (nodup_putEntry h)

theorem lookup_gather (entries : List (κ × β)) (items : List α) (k : κ) : (gather key f entries items).lookup k =
      (items.filter fun item => key item = k).foldl (fun found item => some (f item found)) (entries.lookup k) := by
  induction items generalizing entries with
  | nil => rfl
  | cons item rest ih =>
    rw [gather, List.foldl_cons, ← gather, ih, lookup_putEntry]
    by_cases hk : key item = k
    · rw [List.filter_cons_of_pos (by simpa using hk), List.foldl_cons, if_pos hk.symm, hk]
    · rw [List.filter_cons_of_neg (by simpa using hk), if_neg (fun h => hk h.symm)]

theorem sum_gather {w : β → ℕ} (h : ∀ item old, w (f item old) = old.elim 0 w + 1) (entries : List (κ × β))
    (items : List α) : ((gather key f entries items).map fun entry => w entry.2).sum =
      (entries.map fun entry => w entry.2).sum + items.length := by
  induction items generalizing entries with
  | nil => rfl
  | cons item rest ih =>
    rw [gather, List.foldl_cons, ← gather, ih, sum_putEntry (h item), List.length_cons]
    omega

end

end Portix.Lib
