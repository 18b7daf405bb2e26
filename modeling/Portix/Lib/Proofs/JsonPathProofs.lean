import Portix.Lib.JsonPath

/-!
# Values that agree

Agreement from the inside out, what a form reads as nothing, and a value that is changed at a path.
-/

namespace Portix.Lib.Json

theorem lookup_set (key : String) (value : Json) (entries : JsonMap) (k : String) :
    (set key value entries).lookup k = if k = key then some value else entries.lookup k :=
  lookup_putEntry key _ entries k

theorem lookup_erase (key : String) (entries : JsonMap) (k : String) :
    (erase key entries).lookup k = if k = key then none else entries.lookup k :=
  lookup_entries_filter key entries k

section Agree

variable {view : Shape → Option Shape} {inside : List Step → Prop} {first second third : Option Json}

theorem Agree.refl (value : Option Json) : Agree view inside value value := fun _ _ => rfl

theorem Agree.symm (h : Agree view inside first second) : Agree view inside second first :=
  fun path hpath => (h path hpath).symm

theorem Agree.trans (h : Agree view inside first second) (h' : Agree view inside second third) :
    Agree view inside first third :=
  fun path hpath => (h path hpath).trans (h' path hpath)

theorem Agree.mono {larger : List Step → Prop} (h : Agree view inside first second)
    (hsub : ∀ path, inside path → larger path) : Agree view larger first second :=
  fun path hpath => h path fun hin => hpath (hsub path hin)

@[simp] theorem shapeAt_none (path : List Step) : shapeAt none path = none := rfl

@[simp] theorem shapeAt_nil (value : Json) : shapeAt (some value) [] = some value.shape := rfl

theorem shapeAt_key (entries : JsonMap) (key : String) (path : List Step) :
    shapeAt (some (.map entries)) (.key key :: path) = shapeAt (entries.lookup key) path := rfl

theorem shapeAt_leaf {value : Json} (hmap : ∀ entries, value ≠ .map entries)
    (hlist : ∀ items, value ≠ .list items) (step : Step) (path : List Step) :
    shapeAt (some value) (step :: path) = none := by
  cases value with
  | map entries => exact absurd rfl (hmap entries)
  | list items => exact absurd rfl (hlist items)
  | null | bool _ | int _ | double _ | string _ => cases step <;> rfl

theorem Agree.map {entries entries' : JsonMap}
    (h : ∀ key, Agree view (fun path => inside (.key key :: path)) (entries.lookup key)
      (entries'.lookup key)) : Agree view inside (some (.map entries)) (some (.map entries')) := by
  intro path hpath
  cases path with
  | nil => rfl
  | cons step rest => cases step with
    | key key => exact h key rest hpath
    | index index => rfl

theorem Agree.list {items items' : List Json} (hlength : items.length = items'.length)
    (h : ∀ index, Agree view (fun path => inside (.index index :: path)) items[index]? items'[index]?) :
    Agree view inside (some (.list items)) (some (.list items')) := by
  intro path hpath
  cases path with
  | nil =>
    rw [shapeAt_nil, shapeAt_nil, shape, shape, hlength]
  | cons step rest => cases step with
    | key key => rfl
    | index index => exact h index rest hpath

theorem Agree.entry {entries entries' : JsonMap}
    (h : Agree view inside (some (.map entries)) (some (.map entries'))) (key : String) :
    Agree view (fun path => inside (.key key :: path)) (entries.lookup key) (entries'.lookup key) :=
  fun path hpath => h (.key key :: path) hpath

theorem Agree.item {items items' : List Json}
    (h : Agree view inside (some (.list items)) (some (.list items'))) (index : Nat) :
    Agree view (fun path => inside (.index index :: path)) items[index]? items'[index]? :=
  fun path hpath => h (.index index :: path) hpath

theorem Agree.of_inside (h : ∀ path, inside path) : Agree view inside first second :=
  fun path hpath => absurd (h path) hpath

end Agree

theorem Agree.alike_iff {first first' second second' : Option Json} (h : Alike first first')
    (h' : Alike second second') : Alike first second ↔ Alike first' second' :=
  ⟨fun halike => (h.symm.trans halike).trans h', fun halike => (h.trans halike).trans h'.symm⟩

theorem alike_map_iff {entries entries' : JsonMap} : Alike (some (.map entries)) (some (.map entries')) ↔
      ∀ key, Alike (entries.lookup key) (entries'.lookup key) :=
  ⟨fun h key => h.entry key, fun h => Agree.map h⟩

theorem alike_list_iff {items items' : List Json} (hlength : items.length = items'.length) :
    Alike (some (.list items)) (some (.list items')) ↔ ∀ index : Nat, Alike items[index]? items'[index]? :=
  ⟨fun h index => h.item index, fun h => Agree.list hlength h⟩

theorem alike_none {value : Json} (hsaid : value.shape.said = none)
    (hpart : ∀ step path, shapeAt (some value) (step :: path) = none) : Alike none (some value) := by
  intro path _
  cases path with
  | nil => exact hsaid.symm
  | cons step rest =>
    rw [hpart]
    rfl

theorem alike_null : Alike none (some .null) :=
  alike_none rfl (shapeAt_leaf (fun _ h => by cases h) fun _ h => by cases h)

theorem alike_empty : Alike none (some (.string "")) :=
  alike_none rfl (shapeAt_leaf (fun _ h => by cases h) fun _ h => by cases h)

theorem alike_nil_map : Alike none (some (.map [])) := by
  apply alike_none rfl
  intro step path
  cases step <;> rfl

theorem alike_nil_list : Alike none (some (.list [])) := by
  apply alike_none rfl
  intro step path
  cases step <;> rfl

/-- A text is like a value only if that is the text, or both say nothing. -/
theorem alike_text_iff (value : Option Json) : Alike (some (.string ((value.getD .null).toTextOr ""))) value ↔
      value.getD .null = .null ∨ ∃ text, value.getD .null = .string text := by
  constructor
  · intro h
    have hshape : ((some (Json.string ((value.getD .null).toTextOr ""))).map shape).bind Shape.said =
        (value.map shape).bind Shape.said := by
      have hroot := h [] id
      cases value <;> exact hroot
    cases value with
    | none => exact Or.inl rfl
    | some value => cases value with
      | null => exact Or.inl rfl
      | string text => exact Or.inr ⟨text, rfl⟩
      | bool flag => cases flag <;> cases hshape
      | int number =>
        simp only [Option.map_some, Option.bind_some, shape, Shape.said] at hshape
        split_ifs at hshape
        cases hshape
      | double text =>
        simp only [Option.map_some, Option.bind_some, shape, Shape.said] at hshape
        split_ifs at hshape
        cases hshape
      | list items =>
        have htext : ((some (Json.list items)).getD .null).toTextOr "" ≠ "" := by
          simp [toTextOr, toText?, toText]
        simp only [Option.map_some, Option.bind_some, shape, Shape.said, if_neg htext] at hshape
        split_ifs at hshape
        cases hshape
      | map entries =>
        have htext : ((some (Json.map entries)).getD .null).toTextOr "" ≠ "" := by
          simp [toTextOr, toText?, toText]
        simp only [Option.map_some, Option.bind_some, shape, Shape.said, if_neg htext] at hshape
        cases hshape
  · rintro (hnull | ⟨text, htext⟩)
    · cases value with
      | none => exact alike_empty.symm
      | some value =>
        rw [Option.getD_some] at hnull
        rw [hnull]
        exact alike_empty.symm.trans alike_null
    · cases value with
      | none => cases htext
      | some value =>
        rw [Option.getD_some] at htext
        rw [htext]
        exact Agree.refl _

theorem getPath_cons (value : Json) (key : String) (rest : List String) :
    getPath value (key :: rest) = getPath (match value with
      | .map entries => get entries key
      | _ => .null) rest := rfl

theorem getPath_null (path : List String) : getPath .null path = .null := by
  induction path with
  | nil => rfl
  | cons key rest ih => exact ih

section Modify

variable {change : Json → Option Json}

theorem modify_getPath (change : Json → Option Json) (hnull : change .null = some .null) (path : List String) :
    ∀ value : Json, change (getPath value path) =
      (modify change path value).map fun value => getPath value path := by
  induction path with
  | nil =>
    intro value
    show change value = (change value).map id
    rw [Option.map_id, id]
  | cons key rest ih =>
    intro value
    rw [getPath_cons]
    cases value with
    | map entries =>
      rw [modify]
      simp only [get]
      cases hlookup : entries.lookup key with
      | none =>
        show change (getPath .null rest) = some (getPath (get entries key) rest)
        rw [get, hlookup, Option.getD_none, getPath_null, hnull]
      | some value =>
        simp only [Option.getD_some, Option.map_map]
        rw [ih value]
        congr 1
        funext value
        show getPath value rest = getPath (get (set key value entries) key) rest
        rw [get, lookup_set, if_pos rfl, Option.getD_some]
    | null | bool _ | int _ | double _ | string _ | list _ =>
      show change (getPath .null rest) = some (getPath .null rest)
      rw [getPath_null, hnull]

theorem modify_agree {view : Shape → Option Shape} {inside : List Step → Prop} (path : List String) :
    ∀ {value value' : Json}, modify change path value = some value' →
      (∀ changed, change (getPath value path) = some changed →
        Agree view inside (some (getPath value path)) (some changed)) →
      Agree view (Under path inside) (some value) (some value') := by
  induction path with
  | nil =>
    intro value value' hmodify hchange
    exact (hchange value' hmodify).mono fun path hin => ⟨path, rfl, hin⟩
  | cons key rest ih =>
    intro value value' hmodify hchange
    cases value with
    | map entries =>
      rw [modify] at hmodify
      cases hlookup : entries.lookup key with
      | none =>
        rw [hlookup] at hmodify
        cases hmodify
        exact Agree.refl _
      | some value =>
        rw [hlookup] at hmodify
        obtain ⟨changed, hchanged, rfl⟩ := Option.map_eq_some_iff.mp hmodify
        have hpath : getPath (.map entries) (key :: rest) = getPath value rest := by
          show getPath (get entries key) rest = _
          rw [get, hlookup, Option.getD_some]
        rw [hpath] at hchange
        apply Agree.map
        intro name
        rw [lookup_set]
        by_cases hname : name = key
        · rw [if_pos hname, hname, hlookup]
          refine (ih hchanged hchange).mono fun path hin => ?_
          obtain ⟨tail, rfl, hin⟩ := hin
          exact ⟨tail, rfl, hin⟩
        · rw [if_neg hname]
          exact Agree.refl _
    | null | bool _ | int _ | double _ | string _ | list _ =>
      cases hmodify
      exact Agree.refl _

theorem alike_getPath (path : List String) : ∀ {value value' : Json}, Alike (some value) (some value') →
    Alike (some (getPath value path)) (some (getPath value' path)) := by
  have hchild : ∀ (value : Json) (key : String), Alike (value.child (.key key)) (some (getPath value [key])) := by
    intro value key
    cases value with
    | map entries =>
      show Alike (entries.lookup key) (some (get entries key))
      rw [get]
      cases entries.lookup key with
      | none => exact alike_null
      | some value => exact Agree.refl _
    | null | bool _ | int _ | double _ | string _ | list _ => exact alike_null
  induction path with
  | nil => exact id
  | cons key rest ih =>
    intro value value' h
    have hkey : Alike (value.child (.key key)) (value'.child (.key key)) :=
      fun path hpath => h (.key key :: path) hpath
    exact ih (((hchild value key).symm.trans hkey).trans (hchild value' key))

end Modify

end Portix.Lib.Json
