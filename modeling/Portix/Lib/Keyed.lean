import Mathlib.Data.List.Nodup
import Mathlib.Data.List.Perm.Basic

/-!
# Lists of items under keys

What a list holds under a key, and what is left of that by the ways in which such lists are changed; and groups under
keys, where no member is in two groups.
-/

namespace Portix.Lib

section Under

variable {α κ : Type} [DecidableEq κ] (key : α → κ)

def under (k : κ) (items : List α) : Option α := items.find? fun item => key item = k

variable {key} {k : κ} {item new : α} {items items' : List α}

@[simp] theorem under_nil : under key k [] = none := rfl

theorem under_cons (item : α) (items : List α) :
    under key k (item :: items) = if key item = k then some item else under key k items := by
  unfold under
  by_cases hkey : key item = k
  · rw [if_pos hkey, List.find?_cons_of_pos (by simpa using hkey)]
  · rw [if_neg hkey, List.find?_cons_of_neg (by simpa using hkey)]

theorem under_append (items items' : List α) :
    under key k (items ++ items') = (under key k items).or (under key k items') :=
  List.find?_append

theorem key_of_under (hunder : under key k items = some item) : key item = k :=
  of_decide_eq_true (List.find?_some (p := fun item => decide (key item = k)) hunder)

theorem mem_of_under (hunder : under key k items = some item) : item ∈ items :=
  List.mem_of_find?_eq_some hunder

theorem under_eq_none : under key k items = none ↔ k ∉ items.map key := by
  unfold under
  rw [List.find?_eq_none, List.mem_map]
  constructor
  · rintro hnone ⟨item, hmem, hkey⟩
    exact hnone item hmem (decide_eq_true hkey)
  · intro hnot item hmem hkey
    exact hnot ⟨item, hmem, of_decide_eq_true hkey⟩

theorem under_of_mem (hnodup : (items.map key).Nodup) (hmem : item ∈ items) :
    under key (key item) items = some item := by
  induction items with
  | nil => cases hmem
  | cons first rest ih =>
    rw [List.map_cons, List.nodup_cons] at hnodup
    rw [under_cons]
    rcases List.mem_cons.mp hmem with rfl | hrest
    · exact if_pos rfl
    · have hother : key first ≠ key item := by
        intro hsame
        exact hnodup.1 (hsame ▸ List.mem_map_of_mem hrest)
      rw [if_neg hother]
      exact ih hnodup.2 hrest

theorem under_filter (p : κ → Bool) (items : List α) :
    under key k (items.filter fun item => p (key item)) =
      if p k = true then under key k items else none := by
  induction items with
  | nil => simp
  | cons first rest ih =>
    by_cases hfirst : p (key first) = true
    · rw [List.filter_cons_of_pos (p := fun item => p (key item)) hfirst, under_cons, under_cons, ih]
      by_cases hkey : key first = k
      · rw [hkey] at hfirst
        rw [if_pos hkey, if_pos hkey, if_pos hfirst]
      · rw [if_neg hkey, if_neg hkey]
    · rw [List.filter_cons_of_neg (p := fun item => p (key item)) hfirst, under_cons, ih]
      by_cases hkey : key first = k
      · rw [hkey] at hfirst
        rw [if_neg hfirst, if_neg hfirst]
      · rw [if_neg hkey]

theorem under_map (f : α → α) (hkey : ∀ item, key (f item) = key item) (items : List α) :
    under key k (items.map f) = (under key k items).map f := by
  induction items with
  | nil => rfl
  | cons first rest ih =>
    rw [List.map_cons, under_cons, under_cons, ih, hkey]
    by_cases hfirst : key first = k
    · rw [if_pos hfirst, if_pos hfirst]
      rfl
    · rw [if_neg hfirst, if_neg hfirst]

theorem under_map_replace (new : α) (items : List α) :
    under key k (items.map fun item => if key item = key new then new else item) =
      if k = key new then (under key k items).map fun _ => new else under key k items := by
  induction items with
  | nil => simp
  | cons first rest ih =>
    rw [List.map_cons, under_cons, under_cons, ih]
    by_cases hfirst : key first = key new
    · rw [if_pos hfirst, hfirst]
      by_cases hkey : k = key new
      · rw [if_pos hkey, if_pos hkey, if_pos hkey.symm, if_pos hkey.symm]
        rfl
      · rw [if_neg hkey, if_neg hkey, if_neg (Ne.symm hkey), if_neg (Ne.symm hkey)]
    · rw [if_neg hfirst]
      by_cases hkey : key first = k
      · have hne : k ≠ key new := by
          rw [← hkey]
          exact hfirst
        rw [if_pos hkey, if_pos hkey, if_neg hne]
      · rw [if_neg hkey, if_neg hkey]

theorem map_key_map_replace (new : α) (items : List α) :
    (items.map fun item => if key item = key new then new else item).map key = items.map key := by
  rw [List.map_map]
  apply List.map_congr_left
  intro item _
  by_cases hkey : key item = key new
  · show key (if key item = key new then new else item) = key item
    rw [if_pos hkey, hkey]
  · show key (if key item = key new then new else item) = key item
    rw [if_neg hkey]

theorem perm_of_under (hnodup : (items.map key).Nodup) (hnodup' : (items'.map key).Nodup)
    (hsame : ∀ k, under key k items = under key k items') : items.Perm items' := by
  rw [List.perm_ext_iff_of_nodup hnodup.of_map hnodup'.of_map]
  intro item
  constructor
  · intro hmem
    have hunder := under_of_mem hnodup hmem
    rw [hsame] at hunder
    exact mem_of_under hunder
  · intro hmem
    have hunder := under_of_mem hnodup' hmem
    rw [← hsame] at hunder
    exact mem_of_under hunder

end Under

section Apart

variable {γ κ μ : Type} {key : γ → κ} {members : γ → List μ} {groups : List γ} {group new : γ} {x : μ}

variable (key members) in
/-- No two groups have the same key, and no member is in two groups, or twice in one. -/
structure Apart (groups : List γ) : Prop where
  keys : (groups.map key).Nodup
  members : (groups.flatMap members).Nodup

theorem flatMap_map_sublist {f : γ → γ}
    (hsub : ∀ group ∈ groups, (members (f group)).Sublist (members group)) :
    ((groups.map f).flatMap members).Sublist (groups.flatMap members) := by
  induction groups with
  | nil => exact .refl _
  | cons first rest ih =>
    rw [List.map_cons, List.flatMap_cons, List.flatMap_cons]
    exact (hsub first List.mem_cons_self).append
      (ih fun group hmem => hsub group (List.mem_cons_of_mem _ hmem))

theorem flatMap_sublist {groups' : List γ} (hsub : groups'.Sublist groups) :
    (groups'.flatMap members).Sublist (groups.flatMap members) := by
  induction hsub with
  | slnil => exact .refl _
  | cons group hsub ih =>
    rw [List.flatMap_cons]
    exact ih.trans (List.sublist_append_right _ _)
  | cons_cons group hsub ih =>
    rw [List.flatMap_cons, List.flatMap_cons]
    exact (List.Sublist.refl _).append ih

namespace Apart

theorem nil : Apart key members [] where
  keys := List.nodup_nil
  members := List.nodup_nil

theorem nodup (hapart : Apart key members groups) (hmem : group ∈ groups) : (members group).Nodup :=
  (List.nodup_flatMap.mp hapart.members).1 group hmem

theorem sublist {groups' : List γ} (hapart : Apart key members groups) (hsub : groups'.Sublist groups) :
    Apart key members groups' where
  keys := (hsub.map key).nodup hapart.keys
  members := (flatMap_sublist hsub).nodup hapart.members

theorem shrink {f : γ → γ} (hapart : Apart key members groups) (hkey : ∀ group, key (f group) = key group)
    (hsub : ∀ group ∈ groups, (members (f group)).Sublist (members group)) :
    Apart key members (groups.map f) where
  keys := by
    have hsame : (groups.map f).map key = groups.map key := by
      rw [List.map_map]
      exact List.map_congr_left fun group _ => hkey group
    rw [hsame]
    exact hapart.keys
  members := (flatMap_map_sublist hsub).nodup hapart.members

theorem concat (hapart : Apart key members groups) (hkey : key new ∉ groups.map key)
    (hnodup : (members new).Nodup) (hnew : ∀ x ∈ members new, x ∉ groups.flatMap members) :
    Apart key members (groups ++ [new]) where
  keys := by
    rw [List.map_append, List.map_singleton]
    exact hapart.keys.append (List.nodup_singleton _) (List.disjoint_singleton.mpr hkey)
  members := by
    rw [List.flatMap_append, List.flatMap_singleton]
    exact hapart.members.append hnodup fun x hold hx => hnew x hx hold

theorem insert {f : γ → γ} (hapart : Apart key members groups) (hmem : group ∈ groups)
    (hkey : ∀ group, key (f group) = key group) (hsame : ∀ other, key other ≠ key group → f other = other)
    (hperm : (members (f group)).Perm (x :: members group)) (hx : x ∉ groups.flatMap members) :
    Apart key members (groups.map f) where
  keys := by
    have hkeys : (groups.map f).map key = groups.map key := by
      rw [List.map_map]
      exact List.map_congr_left fun group _ => hkey group
    rw [hkeys]
    exact hapart.keys
  members := by
    obtain ⟨before, after, rfl⟩ := List.append_of_mem hmem
    have hkeys := hapart.keys
    rw [List.map_append, List.map_cons, List.nodup_middle, List.nodup_cons, List.mem_append] at hkeys
    obtain ⟨hnot, -⟩ := hkeys
    have hother : ∀ others : List γ, (∀ other ∈ others, key other ≠ key group) → others.map f = others := by
      intro others hne
      exact (List.map_congr_left fun other hmem => hsame other (hne other hmem)).trans (List.map_id' others)
    have hbefore := hother before fun other hmem heq =>
      hnot (.inl (heq ▸ List.mem_map_of_mem hmem))
    have hafter := hother after fun other hmem heq =>
      hnot (.inr (heq ▸ List.mem_map_of_mem hmem))
    have hall : ((before ++ group :: after).map f).flatMap members =
        before.flatMap members ++ (members (f group) ++ after.flatMap members) := by
      rw [List.map_append, List.map_cons, hbefore, hafter, List.flatMap_append, List.flatMap_cons]
    have hmoved : (before.flatMap members ++ (members (f group) ++ after.flatMap members)).Perm
        (x :: (before ++ group :: after).flatMap members) := by
      rw [List.flatMap_append, List.flatMap_cons]
      have hinner := (hperm.append_right (after.flatMap members)).append_left (before.flatMap members)
      exact hinner.trans List.perm_middle
    rw [hall, hmoved.nodup_iff, List.nodup_cons]
    exact ⟨hx, hapart.members⟩

end Apart

end Apart

end Portix.Lib
