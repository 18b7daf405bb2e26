import Portix.Kubernetes.KubeForm
import Portix.Lib.Proofs.JsonPathProofs

/-!
# Saving the form of a workload

When the edits of the form are what is shown afterwards, nothing else is changed, each variable keeps
its source, and saving without an edit changes nothing.
-/

namespace Portix.Kubernetes

open Lib Json

section MapM

variable {α β : Type} {f : α → Option β} {xs : List α} {ys : List β}

theorem mapM_eq_some_iff : xs.mapM f = some ys ↔ List.Forall₂ (fun x y => f x = some y) xs ys := by
  induction xs generalizing ys with
  | nil =>
    rw [List.mapM_nil, List.forall₂_nil_left_iff]
    exact ⟨fun h => (Option.some.inj h).symm, fun h => congrArg some h.symm⟩
  | cons x rest ih =>
    rw [List.mapM_cons, List.forall₂_cons_left_iff]
    simp only [Option.bind_eq_bind, Option.bind_eq_some_iff, Option.pure_def, Option.some.injEq]
    constructor
    · rintro ⟨y, hy, rest', hrest, rfl⟩
      exact ⟨y, rest', hy, ih.mp hrest, rfl⟩
    · rintro ⟨y, rest', hy, hrest, rfl⟩
      exact ⟨y, hy, rest', ih.mpr hrest, rfl⟩

theorem mapM_getElem? (h : xs.mapM f = some ys) (i : Nat) : ys[i]? = (xs[i]?).bind f := by
  have hall := mapM_eq_some_iff.mp h
  clear h
  induction hall generalizing i with
  | nil => rfl
  | cons hfirst _ ih => cases i with
    | zero => exact hfirst.symm
    | succ i =>
      rw [List.getElem?_cons_succ, List.getElem?_cons_succ]
      exact ih i

theorem mapM_of_getElem? (hlength : xs.length = ys.length)
    (h : ∀ (i : Nat) (x : α), xs[i]? = some x → f x = ys[i]?) : xs.mapM f = some ys := by
  induction xs generalizing ys with
  | nil =>
    rw [List.length_nil, eq_comm, List.length_eq_zero_iff] at hlength
    rw [hlength]
    rfl
  | cons x rest ih => cases ys with
    | nil => cases hlength
    | cons y ys =>
      have hfirst : f x = some y := h 0 x rfl
      rw [List.mapM_cons, hfirst, ih (Nat.succ.inj hlength) fun i z hz => h (i + 1) z hz]
      rfl

theorem forall₂_getElem? {R : α → β → Prop} (h : List.Forall₂ R xs ys) {i : Nat}
    {x : α} (hx : xs[i]? = some x) : ∃ y, ys[i]? = some y ∧ R x y := by
  induction h generalizing i with
  | nil => cases hx
  | cons hfirst _ ih => cases i with
    | zero =>
      cases hx
      exact ⟨_, rfl, hfirst⟩
    | succ i => exact ih hx

theorem mapM_getElem (h : xs.mapM f = some ys) {i : Nat} {x : α} (hx : xs[i]? = some x) :
    ∃ y, ys[i]? = some y ∧ f x = some y :=
  forall₂_getElem? (mapM_eq_some_iff.mp h) hx

theorem mapM_isSome (h : ∀ x ∈ xs, ∃ y, f x = some y) : ∃ ys, xs.mapM f = some ys := by
  induction xs with
  | nil => exact ⟨[], rfl⟩
  | cons x rest ih =>
    obtain ⟨y, hy⟩ := h x List.mem_cons_self
    obtain ⟨ys, hys⟩ := ih fun x hx => h x (List.mem_cons_of_mem _ hx)
    refine ⟨y :: ys, ?_⟩
    rw [List.mapM_cons, hy, hys]
    rfl

end MapM

section MapOrNew

variable {entries m : JsonMap} {key : String}

theorem mapOrNew_cases (h : mapOrNew entries key = some m) :
    (Json.get entries key = .null ∧ m = []) ∨ Json.get entries key = .map m := by
  unfold mapOrNew at h
  cases hget : Json.get entries key with
  | null =>
    rw [hget] at h
    cases h
    exact Or.inl ⟨rfl, rfl⟩
  | map inner =>
    rw [hget] at h
    cases h
    exact Or.inr rfl
  | bool _ | int _ | double _ | string _ | list _ =>
    rw [hget] at h
    cases h

theorem get_congr {entries' : JsonMap} (h : entries'.lookup key = entries.lookup key) :
    Json.get entries' key = Json.get entries key := by
  rw [Json.get, Json.get, h]

theorem mapOrNew_congr {entries' : JsonMap} (h : entries'.lookup key = entries.lookup key) :
    mapOrNew entries' key = mapOrNew entries key := by
  unfold mapOrNew
  rw [get_congr h]

theorem getPath_mapOrNew (h : mapOrNew entries key = some m) (next : String) (rest : List String) :
    getPath (.map entries) (key :: next :: rest) = getPath (.map m) (next :: rest) := by
  show getPath (Json.get entries key) (next :: rest) = _
  rcases mapOrNew_cases h with ⟨hget, rfl⟩ | hget
  · rw [hget]
    rfl
  · rw [hget]

theorem lookup_of_get {value : Json} (hget : Json.get entries key = value) :
    value = .null ∧ entries.lookup key = none ∨ entries.lookup key = some value := by
  unfold Json.get at hget
  cases hlookup : entries.lookup key with
  | none =>
    rw [hlookup] at hget
    exact Or.inl ⟨hget.symm, rfl⟩
  | some value =>
    rw [hlookup, Option.getD_some] at hget
    rw [hget]
    exact Or.inr rfl

theorem lookup_of_get_map (hget : Json.get entries key = .map m) : entries.lookup key = some (.map m) := by
  rcases lookup_of_get hget with ⟨hnull, -⟩ | hlookup
  · cases hnull
  · exact hlookup

theorem shapeAt_mapOrNew (h : mapOrNew entries key = some m) (step : Step) (path : List Step) :
    shapeAt (entries.lookup key) (step :: path) = shapeAt (some (.map m)) (step :: path) := by
  rcases mapOrNew_cases h with ⟨hget, rfl⟩ | hget
  · rcases lookup_of_get hget with ⟨-, hlookup⟩ | hlookup
    · rw [hlookup]
      cases step <;> rfl
    · rw [hlookup]
      cases step <;> rfl
  · rw [lookup_of_get_map hget]

theorem lookup_setUnless (empty : Prop) [Decidable empty] (value : Json) (k : String) :
    (if empty then Json.erase key entries else Json.set key value entries).lookup k =
      if k = key then (if empty then none else some value) else entries.lookup k := by
  split_ifs with hempty hk hk
  · rw [lookup_erase, if_pos hk]
  · rw [lookup_erase, if_neg hk]
  · rw [lookup_set, if_pos hk]
  · rw [lookup_set, if_neg hk]

theorem lookup_setOrRemove (value : JsonMap) (k : String) : (setOrRemove key value entries).lookup k =
      if k = key then (if value = [] then none else some (.map value)) else entries.lookup k :=
  lookup_setUnless _ _ k

theorem mapOrNew_setOrRemove (value : JsonMap) :
    mapOrNew (setOrRemove key value entries) key = some value := by
  have hlookup := @lookup_setOrRemove entries key value key
  rw [if_pos rfl] at hlookup
  unfold mapOrNew Json.get
  rw [hlookup]
  by_cases hvalue : value = []
  · rw [if_pos hvalue, hvalue]
    rfl
  · rw [if_neg hvalue]
    rfl

end MapOrNew

def KubeContainerEdit.quantity (edit : KubeContainerEdit) (group unit : String) : String :=
  if group = "requests" then if unit = "cpu" then edit.cpuRequest else edit.memoryRequest
  else if unit = "cpu" then edit.cpuLimit else edit.memoryLimit

def quantityJson (value : String) : Option Json := if value = "" then none else some (.string value)

/-- What `_setQuantity` does: in the map of the group under the resources the unit is set. -/
structure QuantitySet (group unit value : String) (container container' : JsonMap) : Prop where
  other : ∀ key, key ≠ "resources" → container'.lookup key = container.lookup key
  inside : ∃ resources resources' quantities quantities',
    mapOrNew container "resources" = some resources ∧ mapOrNew container' "resources" = some resources' ∧
    (∀ key, key ≠ group → resources'.lookup key = resources.lookup key) ∧
    mapOrNew resources group = some quantities ∧ mapOrNew resources' group = some quantities' ∧
    ∀ key, quantities'.lookup key = if key = unit then quantityJson value else quantities.lookup key

variable {result : JsonMap} {group unit name : String}

theorem setQuantity_spec {value : String} {container container' : JsonMap}
    (h : setQuantity group unit value container = some container') :
    QuantitySet group unit value container container' := by
  unfold setQuantity at h
  obtain ⟨resources, hresources, h⟩ := Option.bind_eq_some_iff.mp h
  obtain ⟨quantities, hquantities, h⟩ := Option.map_eq_some_iff.mp h
  cases h
  constructor
  · intro key hkey
    rw [lookup_setOrRemove, if_neg hkey]
  · refine ⟨resources, _, quantities, _, hresources, mapOrNew_setOrRemove _, fun key hkey => ?_, hquantities,
      mapOrNew_setOrRemove _, fun key => ?_⟩
    · rw [lookup_setOrRemove, if_neg hkey]
    · exact lookup_setUnless _ _ key

theorem setQuantity_isSome (hgroup : group ∈ ["requests", "limits"]) (unit value : String)
    {container : JsonMap} (hplain : PlainResources container) :
    ∃ container', setQuantity group unit value container = some container' := by
  obtain ⟨resources, hresources, hrequests, hlimits⟩ := hplain
  have hsome : (mapOrNew resources group).isSome := by
    simp only [List.mem_cons, List.not_mem_nil, or_false] at hgroup
    rcases hgroup with rfl | rfl
    · exact hrequests
    · exact hlimits
  obtain ⟨quantities, hquantities⟩ := Option.isSome_iff_exists.mp hsome
  unfold setQuantity
  rw [hresources, Option.bind_some, hquantities]
  exact ⟨_, rfl⟩

theorem QuantitySet.plain {value : String} {container container' : JsonMap}
    (h : QuantitySet group unit value container container') (hplain : PlainResources container) :
    PlainResources container' := by
  obtain ⟨resources, hresources, hrequests, hlimits⟩ := hplain
  obtain ⟨_, resources', quantities, quantities', hold, hnew, hother, hquantities, hquantities', -⟩ := h.inside
  cases hresources.symm.trans hold
  have hgroup : ∀ key, (mapOrNew resources key).isSome → (mapOrNew resources' key).isSome := by
    intro key hkey
    by_cases hsame : key = group
    · rw [hsame, hquantities']
      rfl
    · rw [mapOrNew_congr (hother key hsame)]
      exact hkey
  exact ⟨resources', hnew, hgroup _ hrequests, hgroup _ hlimits⟩

/-- The quantities of a group are set. -/
structure GroupSet (group cpu memory : String) (container container' : JsonMap) : Prop where
  other : ∀ key, key ≠ "resources" → container'.lookup key = container.lookup key
  inside : ∃ resources resources' quantities quantities',
    mapOrNew container "resources" = some resources ∧ mapOrNew container' "resources" = some resources' ∧
    (∀ key, key ≠ group → resources'.lookup key = resources.lookup key) ∧
    mapOrNew resources group = some quantities ∧ mapOrNew resources' group = some quantities' ∧
    quantities'.lookup "cpu" = quantityJson cpu ∧ quantities'.lookup "memory" = quantityJson memory ∧
    ∀ key, key ≠ "cpu" → key ≠ "memory" → quantities'.lookup key = quantities.lookup key

theorem GroupSet.of_quantities {cpu memory : String} {container between container' : JsonMap}
    (hcpu : QuantitySet group "cpu" cpu container between)
    (hmemory : QuantitySet group "memory" memory between container') :
    GroupSet group cpu memory container container' := by
  obtain ⟨r, r₁, q, q₁, hr, hr₁, hother, hq, hq₁, hset⟩ := hcpu.inside
  obtain ⟨_, r₂, _, q₂, hr₁', hr₂, hother', hq₁', hq₂, hset'⟩ := hmemory.inside
  cases hr₁.symm.trans hr₁'
  cases hq₁.symm.trans hq₁'
  refine ⟨fun key hkey => (hmemory.other key hkey).trans (hcpu.other key hkey), r, r₂, q, q₂, hr, hr₂,
    fun key hkey => (hother' key hkey).trans (hother key hkey), hq, hq₂, ?_, ?_, fun key hkey hkey' => ?_⟩
  · rw [hset', if_neg (by decide), hset, if_pos rfl]
  · rw [hset', if_pos rfl]
  · rw [hset', if_neg hkey', hset, if_neg hkey]

structure SettingsWritten (edit : KubeContainerEdit) (env : List Json)
    (container container' : JsonMap) : Prop where
  other : ∀ key, key ≠ "resources" → key ≠ "env" → container'.lookup key = container.lookup key
  env : container'.lookup "env" = if env = [] then none else some (.list env)
  inside : ∃ resources resources', mapOrNew container "resources" = some resources ∧
    mapOrNew container' "resources" = some resources' ∧
    (∀ key, key ∉ ["requests", "limits"] → resources'.lookup key = resources.lookup key) ∧
    ∀ group ∈ ["requests", "limits"], ∃ quantities quantities',
      mapOrNew resources group = some quantities ∧ mapOrNew resources' group = some quantities' ∧
      (∀ unit ∈ ["cpu", "memory"], quantities'.lookup unit = quantityJson (edit.quantity group unit)) ∧
      ∀ key, key ∉ ["cpu", "memory"] → quantities'.lookup key = quantities.lookup key

theorem writeSettings_spec {edit : KubeContainerEdit} {container container' : JsonMap}
    (h : writeSettings edit container = some container') :
    ∃ env, edit.env.mapM (writtenVar container) = some env ∧ SettingsWritten edit env container container' := by
  unfold writeSettings at h
  obtain ⟨env, henv, h⟩ := Option.bind_eq_some_iff.mp h
  obtain ⟨c₁, h₁, h⟩ := Option.bind_eq_some_iff.mp h
  obtain ⟨c₂, h₂, h⟩ := Option.bind_eq_some_iff.mp h
  obtain ⟨c₃, h₃, h₄⟩ := Option.bind_eq_some_iff.mp h
  have hrequests := GroupSet.of_quantities (setQuantity_spec h₁) (setQuantity_spec h₂)
  have hlimits := GroupSet.of_quantities (setQuantity_spec h₃) (setQuantity_spec h₄)
  refine ⟨env, henv, fun key hkey hkey' => ?_, ?_, ?_⟩
  · rw [hlimits.other key hkey, hrequests.other key hkey, lookup_setUnless, if_neg hkey']
  · rw [hlimits.other _ (by decide), hrequests.other _ (by decide), lookup_setUnless, if_pos rfl]
  · obtain ⟨r, r₁, q, q₁, hr, hr₁, hother, hq, hq₁, hcpu, hmemory, hkeys⟩ := hrequests.inside
    obtain ⟨_, r₂, p, p₂, hr₁', hr₂, hlast, hp, hp₂, hcpu', hmemory', hkeys'⟩ := hlimits.inside
    cases hr₁.symm.trans hr₁'
    have hresources : mapOrNew container "resources" = some r := by
      rw [← hr]
      exact (mapOrNew_congr (by rw [lookup_setUnless, if_neg (by decide)])).symm
    refine ⟨r, r₂, hresources, hr₂, fun key hkey => ?_, fun group hgroup => ?_⟩
    · simp only [List.mem_cons, List.not_mem_nil, or_false, not_or] at hkey
      rw [hlast key hkey.2, hother key hkey.1]
    · simp only [List.mem_cons, List.not_mem_nil, or_false] at hgroup
      rcases hgroup with rfl | rfl
      · refine ⟨q, q₁, hq, ?_, fun unit hunit => ?_, fun key hkey => ?_⟩
        · rw [mapOrNew_congr (hlast "requests" (by decide)), hq₁]
        · simp only [List.mem_cons, List.not_mem_nil, or_false] at hunit
          rcases hunit with rfl | rfl
          · exact hcpu
          · exact hmemory
        · simp only [List.mem_cons, List.not_mem_nil, or_false, not_or] at hkey
          exact hkeys key hkey.1 hkey.2
      · refine ⟨p, p₂, ?_, hp₂, fun unit hunit => ?_, fun key hkey => ?_⟩
        · rw [← mapOrNew_congr (hother "limits" (by decide)), hp]
        · simp only [List.mem_cons, List.not_mem_nil, or_false] at hunit
          rcases hunit with rfl | rfl
          · exact hcpu'
          · exact hmemory'
        · simp only [List.mem_cons, List.not_mem_nil, or_false, not_or] at hkey
          exact hkeys' key hkey.1 hkey.2

theorem SettingsWritten.plain {edit : KubeContainerEdit} {env : List Json}
    {container container' : JsonMap} (h : SettingsWritten edit env container container') :
    PlainResources container := by
  obtain ⟨resources, resources', hresources, -, -, hgroups⟩ := h.inside
  obtain ⟨q, _, hq, -⟩ := hgroups "requests" (by decide)
  obtain ⟨p, _, hp, -⟩ := hgroups "limits" (by decide)
  exact ⟨resources, hresources, by rw [hq]; rfl, by rw [hp]; rfl⟩

theorem PlainResources.congr {container container' : JsonMap}
    (h : container'.lookup "resources" = container.lookup "resources") (hplain : PlainResources container) :
    PlainResources container' := by
  obtain ⟨resources, hresources, hgroups⟩ := hplain
  exact ⟨resources, by rw [mapOrNew_congr h, hresources], hgroups⟩

theorem writeSettings_isSome {edit : KubeContainerEdit} {container : JsonMap} {env : List Json}
    (hplain : PlainResources container) (henv : edit.env.mapM (writtenVar container) = some env) :
    ∃ container', writeSettings edit container = some container' := by
  have hstart : PlainResources
      (if env = [] then Json.erase "env" container else Json.set "env" (.list env) container) :=
    hplain.congr (by rw [lookup_setUnless, if_neg (by decide)])
  have hrequests : "requests" ∈ ["requests", "limits"] := by decide
  have hlimits : "limits" ∈ ["requests", "limits"] := by decide
  obtain ⟨c₁, h₁⟩ := setQuantity_isSome hrequests "cpu" edit.cpuRequest hstart
  have hplain₁ := (setQuantity_spec h₁).plain hstart
  obtain ⟨c₂, h₂⟩ := setQuantity_isSome hrequests "memory" edit.memoryRequest hplain₁
  have hplain₂ := (setQuantity_spec h₂).plain hplain₁
  obtain ⟨c₃, h₃⟩ := setQuantity_isSome hlimits "cpu" edit.cpuLimit hplain₂
  have hplain₃ := (setQuantity_spec h₃).plain hplain₂
  obtain ⟨c₄, h₄⟩ := setQuantity_isSome hlimits "memory" edit.memoryLimit hplain₃
  refine ⟨c₄, ?_⟩
  unfold writeSettings
  rw [henv]
  show (setQuantity _ _ _ _).bind _ = _
  rw [h₁]
  show (setQuantity _ _ _ _).bind _ = _
  rw [h₂]
  show (setQuantity _ _ _ _).bind _ = _
  rw [h₃]
  exact h₄

section Fields

variable (container : JsonMap)

theorem field_key : ∀ key ∈ ["name", "value", "image", "env"], field container key = Json.get container key := by
  have hpath : ∀ key ∈ ["name", "value", "image", "env"], splitChar '.' key = [key] := by decide
  intro key hkey
  rw [field, hpath key hkey]
  rfl

theorem field_name : field container "name" = Json.get container "name" := field_key _ "name" (by simp)

theorem field_value : field container "value" = Json.get container "value" := field_key _ "value" (by simp)

theorem field_image : field container "image" = Json.get container "image" := field_key _ "image" (by simp)

theorem field_env : field container "env" = Json.get container "env" := field_key _ "env" (by simp)

def quantityText (group unit : String) : String :=
  (getPath (.map container) ["resources", group, unit]).toTextOr ""

theorem strField_quantity : ∀ group ∈ ["requests", "limits"], ∀ unit ∈ ["cpu", "memory"],
    strField container ("resources." ++ group ++ "." ++ unit) = quantityText container group unit := by
  have hpath : ∀ group ∈ ["requests", "limits"], ∀ unit ∈ ["cpu", "memory"],
      splitChar '.' ("resources." ++ group ++ "." ++ unit) = ["resources", group, unit] := by decide
  intro group hgroup unit hunit
  rw [strField, field, hpath group hgroup unit hunit]
  rfl

def shownWith (env : List JsonMap) : KubeContainerEdit where
  name := strField container "name"
  image := strField container "image"
  env := env.map envVar
  cpuRequest := quantityText container "requests" "cpu"
  memoryRequest := quantityText container "requests" "memory"
  cpuLimit := quantityText container "limits" "cpu"
  memoryLimit := quantityText container "limits" "memory"

theorem containerEdit_eq : containerEdit container =
    (listField container "env").bind fun items => (asMaps items).map (shownWith container) := by
  have hcpu := strField_quantity container "requests" (by decide) "cpu" (by decide)
  have hmemory := strField_quantity container "requests" (by decide) "memory" (by decide)
  have hcpu' := strField_quantity container "limits" (by decide) "cpu" (by decide)
  have hmemory' := strField_quantity container "limits" (by decide) "memory" (by decide)
  unfold containerEdit shownWith
  rw [← hcpu, ← hmemory, ← hcpu', ← hmemory']
  rfl

end Fields

theorem containerEdit_eq_some {container : JsonMap} {shown : KubeContainerEdit} :
    containerEdit container = some shown ↔ ∃ items env, listField container "env" = some items ∧
      asMaps items = some env ∧ shownWith container env = shown := by
  rw [containerEdit_eq]
  simp only [Option.bind_eq_some_iff, Option.map_eq_some_iff]
  constructor
  · rintro ⟨items, hitems, env, henv, hshown⟩
    exact ⟨items, env, hitems, henv, hshown⟩
  · rintro ⟨items, env, hitems, henv, hshown⟩
    exact ⟨items, hitems, env, henv, hshown⟩

section Congr

variable {container container' : JsonMap}

theorem strField_name_congr (h : container'.lookup "name" = container.lookup "name") :
    strField container' "name" = strField container "name" := by
  rw [strField, strField, field_name, field_name, get_congr h]

theorem listField_congr (h : container'.lookup "env" = container.lookup "env") :
    listField container' "env" = listField container "env" := by
  rw [listField, listField, field_env, field_env, get_congr h]

theorem quantityText_congr (h : container'.lookup "resources" = container.lookup "resources")
    (group unit : String) : quantityText container' group unit = quantityText container group unit := by
  have hget : getPath (.map container') ["resources", group, unit] =
      getPath (.map container) ["resources", group, unit] := by
    show getPath (Json.get container' "resources") _ = getPath (Json.get container "resources") _
    rw [get_congr h]
  rw [quantityText, quantityText, hget]

theorem firstNamed_map {items : List Json} {first : Json}
    (h : firstNamed name items = some first) : ∃ entries, first = .map entries ∧ .map entries ∈ items := by
  induction items with
  | nil => cases h
  | cons item rest ih => cases item with
    | map old =>
      rw [firstNamed] at h
      split_ifs at h
      · cases h
        exact ⟨old, rfl, List.mem_cons_self⟩
      · obtain ⟨entries, hentries, hmem⟩ := ih h
        exact ⟨entries, hentries, List.mem_cons_of_mem _ hmem⟩
    | null | bool _ | int _ | double _ | string _ | list _ => cases h

theorem writtenVar_spec {env : KubeEnvVar} {value : Json} (h : writtenVar container env = some value) :
    ∃ entries, value = .map entries ∧ (env.source = none → envVar entries = env) ∧
      (env.source ≠ none → firstNamed env.name (envItems container) = some (.map entries)) := by
  obtain ⟨name, text, source⟩ := env
  unfold writtenVar at h
  cases source with
  | none =>
    cases h
    refine ⟨_, rfl, fun _ => ?_, fun hsource => absurd rfl hsource⟩
    unfold envVar strField
    rw [field_name, field_value]
    rfl
  | some source =>
    obtain ⟨items, hitems, hfirst⟩ := Option.bind_eq_some_iff.mp h
    obtain ⟨entries, rfl, -⟩ := firstNamed_map hfirst
    refine ⟨entries, rfl, fun hsource => absurd hsource (Option.some_ne_none _), fun _ => ?_⟩
    unfold envItems
    rw [hitems]
    exact hfirst

end Congr

theorem asMaps_map (maps : List JsonMap) : asMaps (maps.map .map) = some maps := by
  induction maps with
  | nil => rfl
  | cons first rest ih =>
    unfold asMaps at ih ⊢
    rw [List.map_cons, List.mapM_cons, ih]
    rfl

variable {maps : List JsonMap}

theorem asMaps_eq_some {items : List Json} (h : asMaps items = some maps) : items = maps.map .map := by
  have hall := mapM_eq_some_iff.mp h
  clear h
  induction hall with
  | nil => rfl
  | @cons item _ _ _ hfirst _ ih =>
    rw [List.map_cons, ← ih]
    cases item with
    | map entries =>
      cases hfirst
      rfl
    | null | bool _ | int _ | double _ | string _ | list _ => cases hfirst

theorem written_maps {container : JsonMap} {vars : List KubeEnvVar} {env : List Json}
    (h : vars.mapM (writtenVar container) = some env) : ∃ maps, env = maps.map .map ∧
      List.Forall₂ (fun var entries => (var.source = none → envVar entries = var) ∧
        (var.source ≠ none → firstNamed var.name (envItems container) = some (.map entries))) vars maps := by
  have hall := mapM_eq_some_iff.mp h
  clear h
  induction hall with
  | nil => exact ⟨[], rfl, .nil⟩
  | cons hfirst _ ih =>
    obtain ⟨entries, rfl, hnone, hsome⟩ := writtenVar_spec hfirst
    obtain ⟨maps, rfl, hmaps⟩ := ih
    exact ⟨entries :: maps, rfl, .cons ⟨hnone, hsome⟩ hmaps⟩

theorem toTextOr_quantityJson (value : String) : ((quantityJson value).getD .null).toTextOr "" = value := by
  unfold quantityJson
  split_ifs with hvalue
  · rw [hvalue]
    rfl
  · rfl

namespace SettingsWritten

variable {edit : KubeContainerEdit} {env : List Json} {container container' : JsonMap}

theorem getPath_quantity (h : SettingsWritten edit env container container')
    (hgroup : group ∈ ["requests", "limits"]) (hunit : unit ∈ ["cpu", "memory"]) :
    getPath (.map container') ["resources", group, unit] =
      (quantityJson (edit.quantity group unit)).getD .null := by
  obtain ⟨_, resources', -, hresources', -, hgroups⟩ := h.inside
  obtain ⟨_, quantities', -, hquantities', hset, -⟩ := hgroups group hgroup
  rw [getPath_mapOrNew hresources', getPath_mapOrNew hquantities']
  show Json.get quantities' unit = _
  rw [Json.get, hset unit hunit]

theorem quantityText_eq (h : SettingsWritten edit env container container') (hgroup : group ∈ ["requests", "limits"])
    (hunit : unit ∈ ["cpu", "memory"]) :
    quantityText container' group unit = edit.quantity group unit := by
  rw [quantityText, h.getPath_quantity hgroup hunit, toTextOr_quantityJson]

theorem listField_env (h : SettingsWritten edit env container container') : listField container' "env" = some env := by
  rw [listField, field_env, Json.get, h.env]
  split_ifs with henv
  · rw [henv]
    rfl
  · rfl

theorem envItems_eq (h : SettingsWritten edit env container container') : envItems container' = env := by
  rw [envItems, h.listField_env]
  rfl

theorem containerEdit_eq (h : SettingsWritten edit env container container') (hmaps : env = maps.map .map) :
    containerEdit container' = some { edit with
      name := strField container "name"
      image := strField container "image"
      env := maps.map envVar } := by
  rw [containerEdit_eq_some]
  refine ⟨env, maps, h.listField_env, ?_, ?_⟩
  · rw [hmaps, asMaps_map]
  · have hname := strField_name_congr (h.other "name" (by decide) (by decide))
    have himage : strField container' "image" = strField container "image" := by
      rw [strField, strField, field_image, field_image, get_congr (h.other "image" (by decide) (by decide))]
    have hrequests : "requests" ∈ ["requests", "limits"] := by decide
    have hlimits : "limits" ∈ ["requests", "limits"] := by decide
    have hcpu : "cpu" ∈ ["cpu", "memory"] := by decide
    have hmemory : "memory" ∈ ["cpu", "memory"] := by decide
    unfold shownWith
    rw [hname, himage, h.quantityText_eq hrequests hcpu, h.quantityText_eq hrequests hmemory,
      h.quantityText_eq hlimits hcpu, h.quantityText_eq hlimits hmemory]
    rfl

end SettingsWritten

section Container

variable {imageOnly : Bool} {containers : List KubeContainerEdit} {container : JsonMap}
  {shown edit : KubeContainerEdit}

theorem isString_iff {value : Json} {text : String} : value.isString text = true ↔ value = .string text := by
  cases value with
  | string value =>
    show (value == text) = true ↔ _
    rw [beq_iff_eq, Json.string.injEq]
  | null | bool _ | int _ | double _ | list _ | map _ =>
    constructor
    · rintro ⟨⟩
    · rintro ⟨⟩

theorem strField_of_name (hname : Json.get container "name" = .string name) : strField container "name" = name := by
  rw [strField, field_name, hname]
  rfl

theorem find_of_name (hname : Json.get container "name" = .string name) :
    containers.find? (fun edit => (Json.get container "name").isString edit.name) =
      editOf containers (strField container "name") := by
  unfold editOf
  rw [strField_of_name hname, hname]
  congr 1
  funext edit
  show (name == edit.name) = decide (edit.name = name)
  rw [beq_eq_decide]
  exact decide_eq_decide.mpr eq_comm

theorem find_of_no_name (hname : ∀ name, Json.get container "name" ≠ .string name) :
    containers.find? (fun edit => (Json.get container "name").isString edit.name) = none := by
  rw [List.find?_eq_none]
  intro edit _ hstring
  exact hname edit.name (isString_iff.mp hstring)

theorem editOf_name (hedit : editOf containers name = some edit) : edit.name = name := by
  have hfound := List.find?_some hedit
  exact of_decide_eq_true hfound

theorem shownAfter_of_edit (hedit : editOf containers shown.name = some edit) :
    shownAfter imageOnly containers shown = if imageOnly then { shown with image := edit.image } else edit := by
  unfold shownAfter
  rw [hedit]

theorem containerEdit_name (hshown : containerEdit container = some shown) :
    strField container "name" = shown.name := by
  obtain ⟨_, _, -, -, rfl⟩ := containerEdit_eq_some.mp hshown
  rfl

theorem containerEdit_image (hshown : containerEdit container = some shown) :
    strField container "image" = shown.image := by
  obtain ⟨_, _, -, -, rfl⟩ := containerEdit_eq_some.mp hshown
  rfl

theorem lookup_set_image {key : String} (image : Json) (hkey : key ≠ "image") :
    (Json.set "image" image container).lookup key = container.lookup key := by
  rw [lookup_set, if_neg hkey]

theorem containerEdit_set_image (hshown : containerEdit container = some shown) (image : String) :
    containerEdit (Json.set "image" (.string image) container) = some { shown with image := image } := by
  obtain ⟨items, env, hitems, henv, rfl⟩ := containerEdit_eq_some.mp hshown
  rw [containerEdit_eq_some]
  refine ⟨items, env, ?_, henv, ?_⟩
  · rw [listField_congr (lookup_set_image _ (by decide)), hitems]
  · have himage : strField (Json.set "image" (.string image) container) "image" = image := by
      rw [strField, field_image, Json.get, lookup_set, if_pos rfl]
      rfl
    unfold shownWith
    simp only [himage, strField_name_congr (lookup_set_image _ (by decide)),
      quantityText_congr (lookup_set_image _ (by decide))]

theorem editContainer_map (entries : JsonMap) : editContainer imageOnly containers (.map entries) =
    match containers.find? fun edit => (Json.get entries "name").isString edit.name with
    | none => some (.map entries)
    | some edit =>
      if imageOnly then some (.map (Json.set "image" (.string edit.image) entries))
      else (writeSettings edit (Json.set "image" (.string edit.image) entries)).map .map := rfl

theorem shows_written {env : List Json} {container' : JsonMap}
    (hwritten : SettingsWritten edit env (Json.set "image" (.string edit.image) container) container')
    (hname : strField container "name" = edit.name) (hmaps : env = maps.map .map) :
    containerEdit container' = some { edit with env := maps.map envVar } := by
  have hname' : strField (Json.set "image" (.string edit.image) container) "name" = edit.name := by
    rw [strField_name_congr (lookup_set_image _ (by decide)), hname]
  have himage : strField (Json.set "image" (.string edit.image) container) "image" = edit.image := by
    rw [strField, field_image, Json.get, lookup_set, if_pos rfl]
    rfl
  rw [hwritten.containerEdit_eq hmaps, hname', himage]

theorem envItems_set_image (image : Json) : envItems (Json.set "image" image container) = envItems container := by
  rw [envItems, envItems, listField_congr (lookup_set_image _ (by decide))]

structure ContainerSaved (imageOnly : Bool) (containers : List KubeContainerEdit)
    (container container' : JsonMap) (shown edit : KubeContainerEdit) : Prop where
  saved : editContainer imageOnly containers (.map container) = some (.map container')
  shows : containerEdit container' = some (shownAfter imageOnly containers shown)
  sources : imageOnly = false → SourcesKept edit container container'

theorem oneSource_of_sourcesKept {container' : JsonMap}
    (hsources : SourcesKept edit container container') {env : KubeEnvVar} (henv : env ∈ edit.env)
    (hsource : env.source ≠ none) : OneSource container env := by
  obtain ⟨i, hi⟩ := List.getElem?_of_mem henv
  intro old old' hold hold' hsame hsame'
  obtain ⟨new, hnew, hvalue⟩ := hsources i env hi hsource old hold hsame
  obtain ⟨new', hnew', hvalue'⟩ := hsources i env hi hsource old' hold' hsame'
  cases Option.some.inj (hnew.symm.trans hnew')
  rw [← hvalue, ← hvalue']

theorem editFits_of_saved {container' : JsonMap} (hshown : containerEdit container = some shown)
    (hedit : editOf containers shown.name = some edit)
    (hsaved : ContainerSaved imageOnly containers container container' shown edit) :
    EditFits imageOnly container edit := by
  have hname : edit.name = strField container "name" := by
    rw [containerEdit_name hshown, editOf_name hedit]
  have hafter : shownAfter imageOnly containers shown =
      if imageOnly then { shown with image := edit.image } else edit := shownAfter_of_edit hedit
  have hsave := hsaved.saved
  rw [editContainer_map] at hsave
  refine ⟨fun honly env henv hsource => oneSource_of_sourcesKept (hsaved.sources honly) henv hsource, ?_⟩
  by_cases hstring : (Json.get container "name").isString edit.name
  · rw [if_pos hstring]
    intro honly
    rw [find_of_name (isString_iff.mp hstring), containerEdit_name hshown, hedit] at hsave
    simp only [honly, Bool.false_eq_true, if_false] at hsave hafter
    obtain ⟨written, hwrite, ⟨⟩⟩ := Option.map_eq_some_iff.mp hsave
    obtain ⟨env, henv, hwritten⟩ := writeSettings_spec hwrite
    obtain ⟨maps, hmaps, hall⟩ := written_maps henv
    refine ⟨hwritten.plain.congr (lookup_set_image _ (by decide)).symm, fun var hvar hsource => ?_⟩
    obtain ⟨i, hi⟩ := List.getElem?_of_mem hvar
    obtain ⟨first, hfirst, -, hnamed⟩ := forall₂_getElem? hall hi
    have hshows := hsaved.shows
    rw [honly, hafter, shows_written hwritten hname.symm hmaps] at hshows
    have henvs : maps.map envVar = edit.env := congrArg KubeContainerEdit.env (Option.some.inj hshows)
    have hget : (maps.map envVar)[i]? = some (envVar first) := by
      rw [List.getElem?_map, hfirst]
      rfl
    rw [henvs, hi] at hget
    refine ⟨first, ?_, (Option.some.inj hget).symm⟩
    rw [← envItems_set_image (.string edit.image)]
    exact hnamed hsource
  · rw [if_neg hstring]
    have hno : ∀ name, Json.get container "name" ≠ .string name := by
      intro name hget
      apply hstring
      rw [isString_iff, hget, hname, strField_of_name hget]
    rw [find_of_no_name hno] at hsave
    cases Option.some.inj hsave
    have hshows := hsaved.shows
    rw [hshown, hafter] at hshows
    split_ifs at hshows ⊢
    · rw [containerEdit_image hshown]
      exact (congrArg KubeContainerEdit.image (Option.some.inj hshows)).symm
    · rw [hshown]
      exact hshows

theorem written_of_firstShown {vars : List KubeEnvVar} (hitems : listField container "env" ≠ none)
    (hfirst : ∀ env ∈ vars, env.source ≠ none → FirstShown container env) :
    ∃ maps : List JsonMap,
      vars.mapM (writtenVar container) = some (maps.map .map) ∧ maps.map envVar = vars := by
  have hsome : ∀ env ∈ vars, ∃ entries, writtenVar container env = some (.map entries) ∧ envVar entries = env := by
    intro env henv
    cases hsource : env.source with
    | none =>
      have hwritten : writtenVar container env =
          some (.map [("name", .string env.name), ("value", .string env.value)]) := by
        unfold writtenVar
        rw [hsource]
      obtain ⟨entries, heq, hshown, -⟩ := writtenVar_spec hwritten
      exact ⟨entries, by rw [hwritten, heq], hshown hsource⟩
    | some source =>
      have hne : env.source ≠ none := by
        rw [hsource]
        exact Option.some_ne_none _
      obtain ⟨first, hnamed, hshown⟩ := hfirst env henv hne
      refine ⟨first, ?_, hshown⟩
      obtain ⟨items, hlist⟩ := Option.ne_none_iff_exists'.mp hitems
      unfold writtenVar
      rw [hsource, hlist]
      rw [envItems, hlist] at hnamed
      exact hnamed
  clear hfirst
  induction vars with
  | nil => exact ⟨[], rfl, rfl⟩
  | cons env rest ih =>
    obtain ⟨entries, hwritten, hshown⟩ := hsome env List.mem_cons_self
    obtain ⟨maps, hmaps, hvars⟩ := ih fun env henv => hsome env (List.mem_cons_of_mem _ henv)
    refine ⟨entries :: maps, ?_, ?_⟩
    · rw [List.mapM_cons, hwritten, hmaps]
      rfl
    · rw [List.map_cons, hshown, hvars]

theorem listField_of_shown (hshown : containerEdit container = some shown) : listField container "env" ≠ none := by
  obtain ⟨items, env, hitems, -, -⟩ := containerEdit_eq_some.mp hshown
  rw [hitems]
  exact Option.some_ne_none _

theorem saved_of_editFits (hshown : containerEdit container = some shown)
    (hedit : editOf containers shown.name = some edit) (hfits : EditFits imageOnly container edit) :
    ∃ container', ContainerSaved imageOnly containers container container' shown edit := by
  have hname : edit.name = strField container "name" := by
    rw [containerEdit_name hshown, editOf_name hedit]
  have hafter : shownAfter imageOnly containers shown =
      if imageOnly then { shown with image := edit.image } else edit := shownAfter_of_edit hedit
  obtain ⟨hone, hfits⟩ := hfits
  by_cases hstring : (Json.get container "name").isString edit.name
  · rw [if_pos hstring] at hfits
    have hfind : containers.find? (fun edit => (Json.get container "name").isString edit.name) = some edit := by
      rw [find_of_name (isString_iff.mp hstring), containerEdit_name hshown, hedit]
    cases imageOnly with
    | true =>
      refine ⟨Json.set "image" (.string edit.image) container, ?_, ?_, fun h => by cases h⟩
      · rw [editContainer_map, hfind]
        rfl
      · rw [containerEdit_set_image hshown, hafter]
        rfl
    | false =>
      obtain ⟨hplain, hfirst⟩ := hfits rfl
      have hcongr : ∀ key, key ≠ "image" →
          (Json.set "image" (.string edit.image) container).lookup key = container.lookup key :=
        fun key => lookup_set_image _
      have hfirst' : ∀ env ∈ edit.env, env.source ≠ none →
          FirstShown (Json.set "image" (.string edit.image) container) env := by
        intro env henv hsource
        obtain ⟨first, hnamed, hsame⟩ := hfirst env henv hsource
        exact ⟨first, by rw [envItems_set_image, hnamed], hsame⟩
      obtain ⟨maps, hmaps, hvars⟩ := written_of_firstShown
        (by rw [listField_congr (hcongr _ (by decide))]; exact listField_of_shown hshown) hfirst'
      obtain ⟨container', hwrite⟩ := writeSettings_isSome (hplain.congr (hcongr _ (by decide))) hmaps
      obtain ⟨env, henv, hwritten⟩ := writeSettings_spec hwrite
      cases hmaps.symm.trans henv
      refine ⟨container', ?_, ?_, fun _ i var hi hsource old hold hsame => ?_⟩
      · rw [editContainer_map, hfind]
        simp only [Bool.false_eq_true, if_false]
        rw [hwrite]
        rfl
      · rw [shows_written hwritten hname.symm rfl, hvars, hafter]
        rfl
      · have hvar : (maps.map envVar)[i]? = some var := by rw [hvars, hi]
        obtain ⟨first, hfirst, hshows⟩ := Option.map_eq_some_iff.mp (List.getElem?_map ▸ hvar)
        have hget : (maps.map Json.map)[i]? = some (.map first) := by
          rw [List.getElem?_map, hfirst]
          rfl
        obtain ⟨_, hvalue, hwrote⟩ := mapM_getElem hmaps hi
        cases hget.symm.trans hvalue
        obtain ⟨_, heq, -, hnamed⟩ := writtenVar_spec hwrote
        cases heq
        obtain ⟨_, heq', hmem⟩ := firstNamed_map (hnamed hsource)
        cases heq'
        rw [envItems_set_image] at hmem
        refine ⟨first, ?_, hone rfl var (List.mem_of_getElem? hi) hsource old first hold hmem hsame hshows⟩
        rw [hwritten.envItems_eq, hget]
  · rw [if_neg hstring] at hfits
    have hno : ∀ name, Json.get container "name" ≠ .string name := by
      intro name hget
      apply hstring
      rw [isString_iff, hget, hname, strField_of_name hget]
    refine ⟨container, ?_, ?_, fun honly i var hi hsource old hold hsame => ?_⟩
    · rw [editContainer_map, find_of_no_name hno]
    · rw [hshown, hafter]
      split_ifs at hfits ⊢
      · rw [hfits, containerEdit_image hshown]
      · rw [← hfits, hshown]
    · rw [if_neg (by rw [honly]; decide)] at hfits
      obtain ⟨items, maps, hitems, hmaps, rfl⟩ := containerEdit_eq_some.mp hfits
      have hcontainer : envItems container = maps.map .map := by
        rw [envItems, hitems, Option.getD_some, asMaps_eq_some hmaps]
      have hvar : (maps.map envVar)[i]? = some var := hi
      obtain ⟨new, hnew, hshows⟩ := Option.map_eq_some_iff.mp (List.getElem?_map ▸ hvar)
      have hmem : .map new ∈ envItems container := by
        rw [hcontainer]
        exact List.mem_map_of_mem (List.mem_of_getElem? hnew)
      refine ⟨new, ?_, hone honly var (List.mem_of_getElem? hi) hsource old new hold hmem hsame hshows⟩
      rw [hcontainer, List.getElem?_map, hnew]
      rfl

theorem SettingsWritten.agree {env : List Json} {container' : JsonMap}
    (h : SettingsWritten edit env container container') :
    Agree some (FormPlace false) (some (.map container')) (some (.map container)) := by
  apply Agree.map
  intro key
  by_cases henv : key = "env"
  · exact Agree.of_inside fun path => ⟨key, path, rfl, Or.inr ⟨rfl, Or.inl henv⟩⟩
  by_cases hkey : key = "resources"
  · obtain ⟨resources, resources', hold, hnew, hother, hgroups⟩ := h.inside
    intro path hpath
    have hplace : ¬ResourcePlace path :=
      fun hplace => hpath ⟨key, path, rfl, Or.inr ⟨rfl, Or.inr ⟨hkey, hplace⟩⟩⟩
    rw [hkey]
    cases path with
    | nil => exact absurd (Or.inl rfl) hplace
    | cons step rest =>
      rw [shapeAt_mapOrNew hnew, shapeAt_mapOrNew hold]
      cases step with
      | index index => rfl
      | key group =>
        rw [shapeAt_key, shapeAt_key]
        by_cases hgroup : group ∈ ["requests", "limits"]
        · obtain ⟨quantities, quantities', hquantities, hquantities', -, hkeys⟩ := hgroups group hgroup
          cases rest with
          | nil => exact absurd (Or.inr ⟨group, [], rfl, hgroup, Or.inl rfl⟩) hplace
          | cons step last =>
            rw [shapeAt_mapOrNew hquantities', shapeAt_mapOrNew hquantities]
            cases step with
            | index index => rfl
            | key unit =>
              have hunit : unit ∉ ["cpu", "memory"] :=
                fun hunit => hplace (Or.inr ⟨group, _, rfl, hgroup, Or.inr ⟨unit, last, rfl, hunit⟩⟩)
              rw [shapeAt_key, shapeAt_key, hkeys unit hunit]
        · rw [hother group hgroup]
  · rw [h.other key hkey henv]
    exact Agree.refl _

theorem agree_set_image (image : Json) :
    Agree some (FormPlace imageOnly) (some (.map (Json.set "image" image container)))
      (some (.map container)) := by
  apply Agree.map
  intro key
  by_cases hkey : key = "image"
  · exact Agree.of_inside fun path => ⟨key, path, rfl, Or.inl hkey⟩
  · rw [lookup_set_image _ hkey]
    exact Agree.refl _

theorem editContainer_cases {entries : JsonMap} {value : Json}
    (h : editContainer imageOnly containers (.map entries) = some value) :
    ∃ entries', value = .map entries' ∧ (entries' = entries ∨ ∃ edit : KubeContainerEdit,
      imageOnly = true ∧ entries' = Json.set "image" (.string edit.image) entries ∨
      imageOnly = false ∧ writeSettings edit (Json.set "image" (.string edit.image) entries) = some entries') := by
  rw [editContainer_map] at h
  cases hfind : containers.find? fun edit => (Json.get entries "name").isString edit.name with
  | none =>
    rw [hfind] at h
    cases h
    exact ⟨entries, rfl, Or.inl rfl⟩
  | some edit =>
    rw [hfind] at h
    cases imageOnly with
    | true =>
      cases h
      exact ⟨_, rfl, Or.inr ⟨edit, Or.inl ⟨rfl, rfl⟩⟩⟩
    | false =>
      obtain ⟨container', hwrite, rfl⟩ := Option.map_eq_some_iff.mp h
      exact ⟨container', rfl, Or.inr ⟨edit, Or.inr ⟨rfl, hwrite⟩⟩⟩

theorem editContainer_agree {item item' : Json} (h : editContainer imageOnly containers item = some item') :
    Agree some (FormPlace imageOnly) (some item') (some item) := by
  cases item with
  | map entries =>
    obtain ⟨entries', rfl, rfl | ⟨edit, ⟨rfl, rfl⟩ | ⟨rfl, hwrite⟩⟩⟩ := editContainer_cases h
    · exact Agree.refl _
    · exact agree_set_image _
    · obtain ⟨env, -, hwritten⟩ := writeSettings_spec hwrite
      exact hwritten.agree.trans (agree_set_image _)
  | null | bool _ | int _ | double _ | string _ | list _ => cases h

theorem editContainer_of_no_edit {entries : JsonMap}
    (hedit : editOf containers (strField entries "name") = none) :
    editContainer imageOnly containers (.map entries) = some (.map entries) := by
  rw [editContainer_map]
  by_cases hname : ∃ name, Json.get entries "name" = .string name
  · obtain ⟨name, hname⟩ := hname
    rw [find_of_name hname, hedit]
  · rw [find_of_no_name fun name h => hname ⟨name, h⟩]

theorem alike_mapOrNew {entries m : JsonMap} {key : String} (h : mapOrNew entries key = some m) :
    Alike (entries.lookup key) (some (.map m)) := by
  rcases mapOrNew_cases h with ⟨hget, rfl⟩ | hget
  · rcases lookup_of_get hget with ⟨-, hlookup⟩ | hlookup
    · rw [hlookup]
      exact alike_nil_map
    · rw [hlookup]
      exact alike_null.symm.trans alike_nil_map
  · rw [lookup_of_get_map hget]
    exact Agree.refl _

theorem alike_quantityJson (value : Option Json) :
    Alike (quantityJson ((value.getD .null).toTextOr "")) value ↔ TextOrNull (value.getD .null) := by
  have htext : ∀ text, Alike (quantityJson text) (some (.string text)) := by
    intro text
    unfold quantityJson
    split_ifs with hempty
    · rw [hempty]
      exact alike_empty
    · exact Agree.refl _
  rw [TextOrNull, ← alike_text_iff]
  exact (htext _).alike_iff (Agree.refl _)

theorem alike_asList {value : Json} {items : List Json} (h : value.asList? = some items) :
    Alike (some value) (some (.list items)) := by
  cases value with
  | null =>
    cases h
    exact alike_null.symm.trans alike_nil_list
  | list _ =>
    cases h
    exact Agree.refl _
  | bool _ | int _ | double _ | string _ | map _ => cases h

theorem alike_listField {items : List Json} (h : listField container "env" = some items) :
    Alike (container.lookup "env") (some (.list items)) := by
  rw [listField, field_env] at h
  rcases lookup_of_get (@rfl _ (Json.get container "env")) with ⟨hnull, hlookup⟩ | hlookup
  · rw [hnull] at h
    cases h
    rw [hlookup]
    exact alike_nil_list
  · rw [hlookup]
    exact alike_asList h

theorem envReturns_iff (hitems : listField container "env" ≠ none) (env : JsonMap) :
    EnvReturns container env ↔ ∃ value, writtenVar container (envVar env) = some value ∧
      Alike (some value) (some (.map env)) := by
  obtain ⟨items, hlist⟩ := Option.ne_none_iff_exists'.mp hitems
  unfold EnvReturns writtenVar
  have hsource : (envVar env).source = envSource env := rfl
  rw [hsource]
  cases envSource env with
  | none =>
    constructor
    · intro h
      exact ⟨_, rfl, h⟩
    · rintro ⟨value, hvalue, h⟩
      cases hvalue
      exact h
  | some source =>
    simp only [hlist, envItems, Option.bind_some, Option.getD_some]
    rfl

theorem quantity_shownWith (maps : List JsonMap) : ∀ group ∈ ["requests", "limits"],
    ∀ unit ∈ ["cpu", "memory"], (shownWith container maps).quantity group unit = quantityText container group unit := by
  intro group hgroup unit hunit
  simp only [List.mem_cons, List.not_mem_nil, or_false] at hgroup hunit
  rcases hgroup with rfl | rfl
  · rcases hunit with rfl | rfl
    · rfl
    · rfl
  · rcases hunit with rfl | rfl
    · rfl
    · rfl

/-- Where maps have the same entries but at some keys, they are alike if the entries at these keys are. -/
theorem alike_map_iff_of_other {m m' : JsonMap} {keys : List String} {P : String → Prop}
    (hother : ∀ key, key ∉ keys → m'.lookup key = m.lookup key)
    (hkeys : ∀ key ∈ keys, Alike (m'.lookup key) (m.lookup key) ↔ P key) :
    Alike (some (.map m')) (some (.map m)) ↔ ∀ key ∈ keys, P key := by
  rw [alike_map_iff]
  constructor
  · exact fun halike key hkey => (hkeys key hkey).mp (halike key)
  · intro hall key
    by_cases hkey : key ∈ keys
    · exact (hkeys key hkey).mpr (hall key hkey)
    · rw [hother key hkey]
      exact Agree.refl _

theorem alike_writtenEnv (env : List Json) :
    Alike (if env = [] then none else some (.list env)) (some (.list env)) := by
  split_ifs with henv
  · rw [henv]
    exact alike_nil_list
  · exact Agree.refl _

theorem SettingsWritten.alike_iff {env items : List Json} {start container' : JsonMap}
    (h : SettingsWritten (shownWith container maps) env start container')
    (hstart : ∀ key, key ≠ "image" → start.lookup key = container.lookup key)
    (himage : start.lookup "image" = some (.string (strField container "image")))
    (hitems : listField container "env" = some items) (hlength : env.length = items.length) :
    Alike (some (.map container')) (some (.map container)) ↔ TextOrNull (Json.get container "image") ∧
      (∀ group ∈ ["requests", "limits"], ∀ unit ∈ ["cpu", "memory"],
        TextOrNull (getPath (.map container) ["resources", group, unit])) ∧
      ∀ i : Nat, Alike env[i]? items[i]? := by
  obtain ⟨resources, resources', hold, hnew, hother, hgroups⟩ := h.inside
  rw [mapOrNew_congr (hstart "resources" (by decide))] at hold
  have hresources : Alike (container'.lookup "resources") (container.lookup "resources") ↔
      ∀ group ∈ ["requests", "limits"], ∀ unit ∈ ["cpu", "memory"],
        TextOrNull (getPath (.map container) ["resources", group, unit]) := by
    have hquantity : ∀ group ∈ ["requests", "limits"],
        Alike (resources'.lookup group) (resources.lookup group) ↔ ∀ unit ∈ ["cpu", "memory"],
          TextOrNull (getPath (.map container) ["resources", group, unit]) := by
      intro group hgroup
      obtain ⟨quantities, quantities', hquantities, hquantities', hset, hkeys⟩ := hgroups group hgroup
      have hunit : ∀ unit ∈ ["cpu", "memory"], Alike (quantities'.lookup unit) (quantities.lookup unit) ↔
          TextOrNull (getPath (.map container) ["resources", group, unit]) := by
        intro unit hunit
        have hpath : getPath (.map container) ["resources", group, unit] =
            (quantities.lookup unit).getD .null := by
          rw [getPath_mapOrNew hold, getPath_mapOrNew hquantities]
          rfl
        rw [hset unit hunit, quantity_shownWith maps group hgroup unit hunit, quantityText, hpath]
        exact alike_quantityJson _
      rw [(alike_mapOrNew hquantities').alike_iff (alike_mapOrNew hquantities)]
      exact alike_map_iff_of_other hkeys hunit
    rw [(alike_mapOrNew hnew).alike_iff (alike_mapOrNew hold)]
    exact alike_map_iff_of_other hother hquantity
  have henv : Alike (container'.lookup "env") (container.lookup "env") ↔ ∀ i : Nat, Alike env[i]? items[i]? := by
    rw [h.env, ← alike_list_iff hlength]
    exact (alike_writtenEnv env).alike_iff (alike_listField hitems)
  have htext : Alike (container'.lookup "image") (container.lookup "image") ↔
      TextOrNull (Json.get container "image") := by
    rw [h.other "image" (by decide) (by decide), himage, strField, field_image]
    exact alike_text_iff _
  rw [alike_map_iff, ← hresources, ← henv, ← htext]
  constructor
  · intro hall
    exact ⟨hall "image", hall "resources", hall "env"⟩
  · rintro ⟨h₁, h₂, h₃⟩ key
    by_cases hkey : key = "image"
    · rw [hkey]
      exact h₁
    by_cases hkey' : key = "resources"
    · rw [hkey']
      exact h₂
    by_cases hkey'' : key = "env"
    · rw [hkey'']
      exact h₃
    rw [h.other key hkey' hkey'', hstart key hkey]
    exact Agree.refl _

theorem alike_set_image : Alike (some (.map (Json.set "image" (.string (strField container "image")) container)))
    (some (.map container)) ↔ TextOrNull (Json.get container "image") := by
  have htext : TextOrNull (Json.get container "image") ↔
      Alike (some (.string (strField container "image"))) (container.lookup "image") := by
    rw [strField, field_image]
    exact (alike_text_iff _).symm
  rw [alike_map_iff, htext]
  constructor
  · intro h
    have himage := h "image"
    rw [lookup_set, if_pos rfl] at himage
    exact himage
  · intro h key
    rw [lookup_set]
    split_ifs with hkey
    · rw [hkey]
      exact h
    · exact Agree.refl _

theorem writtenVar_congr {container' : JsonMap}
    (h : container'.lookup "env" = container.lookup "env") : writtenVar container' = writtenVar container := by
  funext env
  unfold writtenVar
  rw [listField_congr h]

theorem written_alike_iff (hitems : listField container "env" ≠ none) :
    (∃ env, (maps.map envVar).mapM (writtenVar container) = some env ∧
      ∀ i : Nat, Alike env[i]? (maps.map Json.map)[i]?) ↔ ∀ entries ∈ maps, EnvReturns container entries := by
  constructor
  · rintro ⟨env, henv, halike⟩ entries hmem
    obtain ⟨i, hi⟩ := List.getElem?_of_mem hmem
    have hvar : (maps.map envVar)[i]? = some (envVar entries) := by rw [List.getElem?_map, hi, Option.map_some]
    obtain ⟨value, hget, hwritten⟩ := mapM_getElem henv hvar
    have hvalue := halike i
    rw [List.getElem?_map, hi, Option.map_some, hget] at hvalue
    exact (envReturns_iff hitems entries).mpr ⟨value, hwritten, hvalue⟩
  · intro hreturns
    have hfound : ∀ entries ∈ maps, ∃ value, writtenVar container (envVar entries) = some value ∧
        Alike (some value) (some (.map entries)) := by
      intro entries hmem
      exact (envReturns_iff hitems entries).mp (hreturns entries hmem)
    have hall : ∀ env ∈ maps.map envVar, ∃ value, writtenVar container env = some value := by
      intro env hmem
      obtain ⟨entries, hentries, rfl⟩ := List.mem_map.mp hmem
      obtain ⟨value, hvalue, -⟩ := hfound entries hentries
      exact ⟨value, hvalue⟩
    obtain ⟨env, henv⟩ := mapM_isSome hall
    refine ⟨env, henv, fun i => ?_⟩
    rw [mapM_getElem? henv i, List.getElem?_map, List.getElem?_map]
    cases hi : maps[i]? with
    | none => exact Agree.refl _
    | some entries =>
      obtain ⟨value, hvalue, halike⟩ := hfound entries (List.mem_of_getElem? hi)
      rw [Option.map_some, Option.map_some, Option.bind_some, hvalue]
      exact halike

theorem containerReturns_iff (hshown : containerEdit container = some shown)
    (hedit : editOf containers shown.name = some shown) :
    (∃ container', editContainer imageOnly containers (.map container) = some (.map container') ∧
      Alike (some (.map container')) (some (.map container))) ↔ ContainerReturns imageOnly container := by
  unfold ContainerReturns
  by_cases hname : ∃ name, Json.get container "name" = .string name
  · obtain ⟨name, hget⟩ := id hname
    have hfind : containers.find? (fun edit => (Json.get container "name").isString edit.name) = some shown := by
      rw [find_of_name hget, containerEdit_name hshown, hedit]
    rw [editContainer_map, hfind]
    obtain ⟨items, maps, hitems, hmaps, rfl⟩ := containerEdit_eq_some.mp hshown
    cases imageOnly with
    | true =>
      constructor
      · rintro ⟨container', heq, halike⟩ _
        cases heq
        exact ⟨alike_set_image.mp halike, fun h => by cases h⟩
      · intro h
        exact ⟨_, rfl, alike_set_image.mpr (h hname).1⟩
    | false =>
      have hstart : ∀ key, key ≠ "image" → (Json.set "image"
          (.string (shownWith container maps).image) container).lookup key = container.lookup key :=
        fun key => lookup_set_image _
      have himage : (Json.set "image" (.string (shownWith container maps).image) container).lookup "image" =
          some (.string (strField container "image")) := by
        rw [lookup_set, if_pos rfl]
        rfl
      have hsome : listField container "env" ≠ none := listField_of_shown hshown
      have hmem : ∀ entries, .map entries ∈ envItems container ↔ entries ∈ maps := by
        intro entries
        rw [envItems, hitems, Option.getD_some, asMaps_eq_some hmaps, List.mem_map]
        constructor
        · rintro ⟨_, hentries, heq⟩
          exact Json.map.inj heq ▸ hentries
        · exact fun hentries => ⟨entries, hentries, rfl⟩
      have hlength : ∀ {env}, (maps.map envVar).mapM (writtenVar container) = some env → env.length = items.length := by
        intro env henv
        rw [← (mapM_eq_some_iff.mp henv).length_eq, asMaps_eq_some hmaps, List.length_map, List.length_map]
      simp only [Bool.false_eq_true, if_false, Option.map_eq_some_iff, hmem]
      constructor
      · rintro ⟨container', ⟨written, hwrite, heq⟩, halike⟩ _
        cases heq
        obtain ⟨env, henv, hwritten⟩ := writeSettings_spec hwrite
        rw [writtenVar_congr (hstart "env" (by decide))] at henv
        obtain ⟨htext, htexts, hall⟩ := (hwritten.alike_iff hstart himage hitems (hlength henv)).mp halike
        refine ⟨htext, fun _ => ⟨hwritten.plain.congr (hstart _ (by decide)).symm, htexts, ?_⟩⟩
        rw [asMaps_eq_some hmaps] at hall
        exact (written_alike_iff hsome).mp ⟨env, henv, hall⟩
      · intro h
        obtain ⟨htext, hsettings⟩ := h hname
        obtain ⟨hplain, htexts, hreturns⟩ := hsettings trivial
        obtain ⟨env, henv, hall⟩ := (written_alike_iff hsome).mpr hreturns
        have henv' := henv
        rw [← writtenVar_congr (hstart "env" (by decide))] at henv'
        obtain ⟨container', hwrite⟩ : ∃ container', writeSettings (shownWith container maps) _ =
            some container' := writeSettings_isSome (hplain.congr (hstart _ (by decide))) henv'
        obtain ⟨written, hwrote, hwritten⟩ := writeSettings_spec hwrite
        cases henv'.symm.trans hwrote
        refine ⟨container', ⟨container', hwrite, rfl⟩,
          (hwritten.alike_iff hstart himage hitems (hlength henv)).mpr ⟨htext, htexts, ?_⟩⟩
        rw [asMaps_eq_some hmaps]
        exact hall
  · constructor
    · intro _ h
      exact absurd h hname
    · intro _
      refine ⟨container, ?_, Agree.refl _⟩
      rw [editContainer_map, find_of_no_name fun name h => hname ⟨name, h⟩]

end Container

section Item

variable {kind : KubeKind} {item : JsonMap} {containers shown : List KubeContainerEdit}
  {replicas : Option Int64} {items : List Json}

theorem containersPath_eq (hform : (kubeFormSpec kind).isSome) :
    ∃ key rest, containersPath kind = "spec" :: key :: rest ∧ key ≠ "replicas" := by
  have hpods : splitChar '.' "spec.containers" = ["spec", "containers"] := by decide
  have hjobs : splitChar '.' "spec.jobTemplate.spec.template.spec.containers" =
      ["spec", "jobTemplate", "spec", "template", "spec", "containers"] := by decide
  have howners : splitChar '.' "spec.template.spec.containers" = ["spec", "template", "spec", "containers"] := by decide
  unfold containersPath
  unfold kubeFormSpec podTemplate at hform ⊢
  split_ifs at hform ⊢ with hpod hjob hcron howns
  · exact ⟨"containers", [], hpods, by decide⟩
  · cases hform
  · exact ⟨"jobTemplate", _, hjobs, by decide⟩
  · exact ⟨"template", _, howners, by decide⟩
  · cases hform

theorem setReplicas_isSome (hspec : replicas ≠ none → ∃ spec, Json.get item "spec" = .map spec) :
    ∃ copy, setReplicas replicas item = some copy := by
  cases replicas with
  | none => exact ⟨item, rfl⟩
  | some replicas =>
    obtain ⟨spec, hget⟩ := hspec (Option.some_ne_none _)
    unfold setReplicas
    rw [hget]
    exact ⟨_, rfl⟩

variable {copy : JsonMap}

theorem setReplicas_some {count : Int64} (hcopy : setReplicas (some count) item = some copy) :
    ∃ spec, Json.get item "spec" = .map spec ∧
      copy = Json.set "spec" (.map (Json.set "replicas" (.int count) spec)) item := by
  unfold setReplicas at hcopy
  cases hget : Json.get item "spec" with
  | map spec =>
    rw [hget] at hcopy
    exact ⟨spec, rfl, (Option.some.inj hcopy).symm⟩
  | null | bool _ | int _ | double _ | string _ | list _ =>
    rw [hget] at hcopy
    cases hcopy

theorem spec_of_setReplicas (hcopy : setReplicas replicas item = some copy)
    (hreplicas : replicas ≠ none) : ∃ spec, Json.get item "spec" = .map spec := by
  obtain ⟨count, rfl⟩ := Option.ne_none_iff_exists'.mp hreplicas
  obtain ⟨spec, hget, -⟩ := setReplicas_some hcopy
  exact ⟨spec, hget⟩

theorem setReplicas_agree (hcopy : setReplicas replicas item = some copy) :
    Agree some (fun path => replicas ≠ none ∧ ∃ rest, path = .key "spec" :: .key "replicas" :: rest)
      (some (.map copy)) (some (.map item)) := by
  cases replicas with
  | none =>
    cases hcopy
    exact Agree.refl _
  | some replicas =>
    obtain ⟨spec, hget, rfl⟩ := setReplicas_some hcopy
    apply Agree.map
    intro key
    rw [lookup_set]
    split_ifs with hkey
    · rw [hkey, lookup_of_get_map hget]
      apply Agree.map
      intro name
      rw [lookup_set]
      split_ifs with hname
      · rw [hname]
        exact Agree.of_inside fun path => ⟨Option.some_ne_none _, path, rfl⟩
      · exact Agree.refl _
    · exact Agree.refl _

theorem formContainers_setReplicas (hform : (kubeFormSpec kind).isSome)
    (hcopy : setReplicas replicas item = some copy) :
    getPath (.map copy) (containersPath kind) = getPath (.map item) (containersPath kind) := by
  obtain ⟨key, rest, hpath, hkey⟩ := containersPath_eq hform
  rw [hpath]
  cases replicas with
  | none =>
    cases hcopy
    rfl
  | some replicas =>
    obtain ⟨spec, hget, rfl⟩ := setReplicas_some hcopy
    have hspec : Json.get (Json.set "spec" (.map (Json.set "replicas" (.int replicas) spec)) item) "spec" =
        .map (Json.set "replicas" (.int replicas) spec) := by
      rw [Json.get, lookup_set, if_pos rfl]
      rfl
    have hsame : Json.get (Json.set "replicas" (.int replicas) spec) key = Json.get spec key := by
      rw [Json.get, lookup_set, if_neg hkey, Json.get]
    show getPath (Json.get _ "spec") (key :: rest) = getPath (Json.get item "spec") (key :: rest)
    rw [hspec, hget]
    show getPath (Json.get _ key) rest = getPath (Json.get spec key) rest
    rw [hsame]

theorem formContainers_of_shown (hshown : containerEdits kind item = some shown) :
    ∃ items, formContainers kind item = some items ∧
      items.mapM (fun container => container.asMap?.bind containerEdit) = some shown :=
  Option.bind_eq_some_iff.mp hshown

theorem editContainers_eq {imageOnly : Bool} {value value' : Json} (hitems : value.asList? = some items)
    (h : editContainers imageOnly containers value = some value') :
    ∃ items', items.mapM (editContainer imageOnly containers) = some items' ∧ value'.asList? = some items' := by
  cases value with
  | null =>
    cases hitems
    cases h
    exact ⟨[], rfl, rfl⟩
  | list _ =>
    cases hitems
    obtain ⟨items', hmap, rfl⟩ := Option.map_eq_some_iff.mp h
    exact ⟨items', hmap, rfl⟩
  | bool _ | int _ | double _ | string _ | map _ => cases hitems

variable {value : Json} {items' : List Json}

theorem editContainers_isSome {imageOnly : Bool} (hitems : value.asList? = some items)
    (h : items.mapM (editContainer imageOnly containers) = some items') :
    ∃ value', editContainers imageOnly containers value = some value' := by
  cases value with
  | null => exact ⟨.null, rfl⟩
  | list _ =>
    cases hitems
    exact ⟨.list items', congrArg (Option.map Json.list) h⟩
  | bool _ | int _ | double _ | string _ | map _ => cases hitems

theorem withFormEdits_spec (hform : (kubeFormSpec kind).isSome) (hitems : formContainers kind item = some items)
    (h : withFormEdits kind item containers replicas = some result) :
    ∃ copy items', setReplicas replicas item = some copy ∧
      items.mapM (editContainer (kubeFormImageOnly kind) containers) = some items' ∧
      formContainers kind result = some items' ∧
      modify (editContainers (kubeFormImageOnly kind) containers) (containersPath kind) (.map copy) =
        some (.map result) := by
  obtain ⟨copy, hcopy, h⟩ := Option.bind_eq_some_iff.mp h
  obtain ⟨value, hmodify, hmap⟩ := Option.bind_eq_some_iff.mp h
  have hvalue : value = .map result := by
    cases value with
    | map entries =>
      cases hmap
      rfl
    | null | bool _ | int _ | double _ | string _ | list _ => cases hmap
  rw [hvalue] at hmodify
  have hchange := modify_getPath (editContainers (kubeFormImageOnly kind) containers) rfl
    (containersPath kind) (.map copy)
  rw [hmodify, formContainers_setReplicas hform hcopy] at hchange
  obtain ⟨items', hmapM, hlist⟩ := editContainers_eq hitems hchange
  exact ⟨copy, items', hcopy, hmapM, hlist, hmodify⟩

theorem modify_map {change : Json → Option Json} {path : List String} {entries : JsonMap}
    (hpath : path ≠ []) (h : modify change path (.map entries) = some value) :
    ∃ entries', value = .map entries' := by
  cases path with
  | nil => exact absurd rfl hpath
  | cons key rest =>
    rw [Json.modify] at h
    cases hlookup : entries.lookup key with
    | none =>
      rw [hlookup] at h
      cases h
      exact ⟨entries, rfl⟩
    | some value =>
      rw [hlookup] at h
      obtain ⟨changed, -, rfl⟩ := Option.map_eq_some_iff.mp h
      exact ⟨_, rfl⟩

theorem withFormEdits_isSome (hform : (kubeFormSpec kind).isSome) (hitems : formContainers kind item = some items)
    (hspec : replicas ≠ none → ∃ spec, Json.get item "spec" = .map spec)
    (hmapM : items.mapM (editContainer (kubeFormImageOnly kind) containers) = some items') :
    ∃ result, withFormEdits kind item containers replicas = some result := by
  obtain ⟨copy, hcopy⟩ := setReplicas_isSome hspec
  obtain ⟨key, rest, hpath, -⟩ := containersPath_eq hform
  have hchange := modify_getPath (editContainers (kubeFormImageOnly kind) containers) rfl
    (containersPath kind) (.map copy)
  obtain ⟨value', hvalue'⟩ := editContainers_isSome hitems hmapM
  rw [formContainers_setReplicas hform hcopy, hvalue', eq_comm] at hchange
  obtain ⟨value, hmodify, -⟩ := Option.map_eq_some_iff.mp hchange
  obtain ⟨result, rfl⟩ := modify_map (by rw [hpath]; exact List.cons_ne_nil _ _) hmodify
  refine ⟨result, ?_⟩
  unfold withFormEdits
  rw [hcopy, Option.bind_some, hmodify]
  rfl

theorem container_of_shown (hmaps : items.mapM (fun container => container.asMap?.bind containerEdit) = some shown)
    {i : Nat} (hi : items[i]? = some value) :
    ∃ container old, value = .map container ∧ containerEdit container = some old ∧ shown[i]? = some old := by
  obtain ⟨old, hshown, hget⟩ := mapM_getElem hmaps hi
  obtain ⟨container, hcontainer, hold⟩ := Option.bind_eq_some_iff.mp hget
  refine ⟨container, old, ?_, hold, hshown⟩
  cases value with
  | map entries =>
    cases hcontainer
    rfl
  | null | bool _ | int _ | double _ | string _ | list _ => cases hcontainer

theorem withFormEdits_agree (hform : (kubeFormSpec kind).isSome) (hshown : containerEdits kind item = some shown)
    (h : withFormEdits kind item containers replicas = some result) :
    Agree some (EditPlace kind item containers replicas) (some (.map result)) (some (.map item)) := by
  obtain ⟨items, hitems, hmaps⟩ := formContainers_of_shown hshown
  obtain ⟨copy, items', hcopy, hmapM, hresult, hmodify⟩ := withFormEdits_spec hform hitems h
  have hcontainers : Agree some (Under (containersPath kind) fun path => ∃ index rest shown old,
      path = .index index :: rest ∧ containerEdits kind item = some shown ∧ shown[index]? = some old ∧
      editOf containers old.name ≠ none ∧ FormPlace (kubeFormImageOnly kind) rest)
      (some (.map copy)) (some (.map result)) := by
    apply modify_agree _ hmodify
    intro changed hchanged
    rw [formContainers_setReplicas hform hcopy] at hchanged ⊢
    unfold formContainers at hitems
    generalize getPath (.map item) (containersPath kind) = value at hitems hchanged
    cases value with
    | null =>
      cases hchanged
      exact Agree.refl _
    | list inner =>
      obtain rfl : items = inner := (Option.some.inj hitems).symm
      obtain ⟨edited, hedited, rfl⟩ := Option.map_eq_some_iff.mp hchanged
      cases hmapM.symm.trans hedited
      refine Agree.symm (Agree.list (mapM_eq_some_iff.mp hmapM).length_eq.symm fun index => ?_)
      cases hindex : items[index]? with
      | none =>
        rw [mapM_getElem? hmapM index, hindex]
        exact Agree.refl _
      | some value =>
        obtain ⟨value', hafter, hget⟩ := mapM_getElem hmapM hindex
        obtain ⟨container, old, rfl, hold, hshownAt⟩ := container_of_shown hmaps hindex
        rw [hafter]
        by_cases hedit : editOf containers old.name = none
        · rw [← containerEdit_name hold] at hedit
          rw [← hget, editContainer_of_no_edit hedit]
          exact Agree.refl _
        · refine (editContainer_agree hget).mono fun path hplace => ?_
          exact ⟨index, path, shown, old, rfl, hshown, hshownAt, hedit, hplace⟩
    | bool _ | int _ | double _ | string _ | map _ => cases hitems
  refine (hcontainers.symm.mono fun path hplace => Or.inr hplace).trans ?_
  exact (setReplicas_agree hcopy).mono fun path hplace => Or.inl hplace

theorem container_saved {imageOnly : Bool} {container : JsonMap} {old : KubeContainerEdit}
    (hold : containerEdit container = some old)
    (hfits : ∀ edit, editOf containers (strField container "name") = some edit → EditFits imageOnly container edit) :
    ∃ container', editContainer imageOnly containers (.map container) = some (.map container') ∧
      containerEdit container' = some (shownAfter imageOnly containers old) ∧
      ∀ edit, editOf containers (strField container "name") = some edit → imageOnly = false →
        SourcesKept edit container container' := by
  cases hedit : editOf containers (strField container "name") with
  | none =>
    refine ⟨container, editContainer_of_no_edit hedit, ?_, fun edit h => by cases h⟩
    unfold shownAfter
    rw [← containerEdit_name hold, hedit]
    exact hold
  | some edit =>
    have hname : editOf containers old.name = some edit := by rw [← containerEdit_name hold, hedit]
    obtain ⟨container', hsaved⟩ := saved_of_editFits hold hname (hfits edit hedit)
    refine ⟨container', hsaved.saved, hsaved.shows, fun other hother honly => ?_⟩
    cases hother
    exact hsaved.sources honly

theorem editsFit_of_savesWell (hform : (kubeFormSpec kind).isSome)
    (hshown : containerEdits kind item = some shown) (h : SavesWell kind item containers replicas) :
    EditsFit kind item containers replicas := by
  obtain ⟨result, hresult, hsaved⟩ := h
  obtain ⟨items, hitems, hmaps⟩ := formContainers_of_shown hshown
  obtain ⟨copy, items', hcopy, hmapM, hitems', -⟩ := withFormEdits_spec hform hitems hresult
  refine ⟨spec_of_setReplicas hcopy, fun container hmem edit hedit => ?_⟩
  rw [hitems, Option.getD_some] at hmem
  obtain ⟨i, hi⟩ := List.getElem?_of_mem hmem
  obtain ⟨_, old, heq, hold, hshownAt⟩ := container_of_shown hmaps hi
  cases heq
  have hshows := hsaved.shows shown hshown
  obtain ⟨_, hitems'', hmaps'⟩ := formContainers_of_shown hshows
  cases hitems'.symm.trans hitems''
  obtain ⟨value', hi', hget⟩ := mapM_getElem hmapM hi
  obtain ⟨container', old', rfl, hold', hafter⟩ := container_of_shown hmaps' hi'
  rw [List.getElem?_map, hshownAt, Option.map_some] at hafter
  cases hafter
  refine editFits_of_saved hold (by rw [← containerEdit_name hold, hedit])
    ⟨hget, hold', fun honly => hsaved.sources honly i container container' ?_ ?_ edit hedit⟩
  · rw [hitems, Option.getD_some, hi]
  · rw [hitems', Option.getD_some, hi']

theorem savesWell_of_editsFit (hform : (kubeFormSpec kind).isSome)
    (hshown : containerEdits kind item = some shown) (h : EditsFit kind item containers replicas) :
    SavesWell kind item containers replicas := by
  obtain ⟨items, hitems, hmaps⟩ := formContainers_of_shown hshown
  obtain ⟨hspec, hfits⟩ := h
  rw [hitems, Option.getD_some] at hfits
  have hsaved : ∀ value ∈ items, ∃ container old, value = .map container ∧
      containerEdit container = some old ∧ ∃ container',
        editContainer (kubeFormImageOnly kind) containers value = some (.map container') ∧
        containerEdit container' = some (shownAfter (kubeFormImageOnly kind) containers old) ∧
        ∀ edit, editOf containers (strField container "name") = some edit → kubeFormImageOnly kind = false →
          SourcesKept edit container container' := by
    intro value hmem
    obtain ⟨i, hi⟩ := List.getElem?_of_mem hmem
    obtain ⟨container, old, rfl, hold, -⟩ := container_of_shown hmaps hi
    exact ⟨container, old, rfl, hold, container_saved hold (hfits container hmem)⟩
  obtain ⟨items', hmapM⟩ : ∃ items', items.mapM (editContainer (kubeFormImageOnly kind) containers) = some items' := by
    apply mapM_isSome
    intro value hmem
    obtain ⟨-, -, -, -, container', hedited, -⟩ := hsaved value hmem
    exact ⟨_, hedited⟩
  obtain ⟨result, hresult⟩ := withFormEdits_isSome hform hitems hspec hmapM
  obtain ⟨copy, edited, -, hmapM', hitems', -⟩ := withFormEdits_spec hform hitems hresult
  cases hmapM.symm.trans hmapM'
  refine ⟨result, hresult, fun shown' hshown' => ?_, withFormEdits_agree hform hshown hresult,
    fun honly index container container' hi hi' edit hedit => ?_⟩
  · cases hshown.symm.trans hshown'
    unfold containerEdits
    rw [hitems', Option.bind_some]
    apply mapM_of_getElem?
    · rw [List.length_map, ← (mapM_eq_some_iff.mp hmapM).length_eq, (mapM_eq_some_iff.mp hmaps).length_eq]
    · intro i value' hi'
      have hget := mapM_getElem? hmapM i
      rw [hi'] at hget
      obtain ⟨value, hi, hvalue⟩ := Option.bind_eq_some_iff.mp hget.symm
      obtain ⟨container, old, rfl, hold, hshownAt⟩ := container_of_shown hmaps hi
      obtain ⟨_, _, heq, hold', container', hedited, hshows, -⟩ := hsaved _ (List.mem_of_getElem? hi)
      cases heq
      cases hold.symm.trans hold'
      cases hvalue.symm.trans hedited
      rw [List.getElem?_map, hshownAt]
      exact hshows
  · rw [hitems, Option.getD_some] at hi
    rw [hitems', Option.getD_some] at hi'
    obtain ⟨_, _, heq, -, written, hedited, -, hsources⟩ := hsaved _ (List.mem_of_getElem? hi)
    cases heq
    obtain ⟨_, hvalue, hget⟩ := mapM_getElem hmapM hi
    cases hi'.symm.trans hvalue
    cases hedited.symm.trans hget
    exact hsources edit hedit honly

theorem spec_of_replicas {count : Int64} (h : field item "spec.replicas" = .int count) :
    ∃ spec, Json.get item "spec" = .map spec ∧ Json.get spec "replicas" = .int count := by
  have hpath : splitChar '.' "spec.replicas" = ["spec", "replicas"] := by decide
  rw [field, hpath] at h
  have hget : getPath (Json.get item "spec") ["replicas"] = .int count := h
  cases hspec : Json.get item "spec" with
  | map spec =>
    rw [hspec] at hget
    exact ⟨spec, rfl, hget⟩
  | null | bool _ | int _ | double _ | string _ | list _ =>
    rw [hspec] at hget
    cases hget

theorem alike_setReplicas (hcopy : setReplicas replicas item = some copy)
    (hsame : ∀ count, replicas = some count → field item "spec.replicas" = .int count) :
    Alike (some (.map copy)) (some (.map item)) := by
  cases replicas with
  | none =>
    cases hcopy
    exact Agree.refl _
  | some count =>
    obtain ⟨spec, hget, hreplicas⟩ := spec_of_replicas (hsame count rfl)
    obtain ⟨_, hget', rfl⟩ := setReplicas_some hcopy
    cases hget.symm.trans hget'
    refine alike_map_iff.mpr fun key => ?_
    rw [lookup_set]
    split_ifs with hkey
    · rw [hkey, lookup_of_get_map hget]
      refine alike_map_iff.mpr fun name => ?_
      rw [lookup_set]
      split_ifs with hname
      · rcases lookup_of_get hreplicas with ⟨hnull, -⟩ | hlookup
        · cases hnull
        · rw [hname, hlookup]
          exact Agree.refl _
      · exact Agree.refl _
    · exact Agree.refl _

theorem editOf_of_nodup (hdistinct : (shown.map KubeContainerEdit.name).Nodup) {edit : KubeContainerEdit}
    (hmem : edit ∈ shown) : editOf shown edit.name = some edit := by
  unfold editOf
  induction shown with
  | nil => cases hmem
  | cons first rest ih =>
    rw [List.map_cons, List.nodup_cons] at hdistinct
    rcases List.mem_cons.mp hmem with heq | hrest
    · rw [List.find?_cons_of_pos (by rw [heq, decide_eq_true_eq]), heq]
    · have hne : first.name ≠ edit.name :=
        fun heq => hdistinct.1 (heq ▸ List.mem_map_of_mem hrest)
      rw [List.find?_cons_of_neg (by rw [decide_eq_true_eq]; exact hne)]
      exact ih hdistinct.2 hrest

theorem alike_containers (hitems : formContainers kind item = some items)
    {copy : JsonMap} (hsame : Alike (some (.map copy)) (some (.map item)))
    (hpath : getPath (.map copy) (containersPath kind) = getPath (.map item) (containersPath kind))
    (hmodify : modify (editContainers (kubeFormImageOnly kind) containers) (containersPath kind) (.map copy) =
      some (.map result))
    (hitems' : formContainers kind result = some items') :
    Alike (some (.map result)) (some (.map item)) ↔ Alike (some (.list items')) (some (.list items)) := by
  rw [← (alike_asList hitems').alike_iff (alike_asList hitems)]
  constructor
  · exact alike_getPath (containersPath kind)
  · intro h
    have hresult : Agree Shape.said (Under (containersPath kind) Nowhere) (some (.map copy)) (some (.map result)) := by
      apply modify_agree _ hmodify
      intro changed hchanged
      have hchange := modify_getPath (editContainers (kubeFormImageOnly kind) containers) rfl
        (containersPath kind) (.map copy)
      rw [hmodify, hchanged] at hchange
      cases hchange
      rw [hpath]
      exact h.symm
    have hall : Alike (some (.map copy)) (some (.map result)) :=
      hresult.mono fun path hplace => by
        obtain ⟨_, _, hnever⟩ := hplace
        exact hnever
    exact hall.symm.trans hsame

theorem keepsUnchanged_iff (hform : (kubeFormSpec kind).isSome) (hshown : containerEdits kind item = some shown)
    (hdistinct : (shown.map KubeContainerEdit.name).Nodup)
    (hsame : ∀ count, replicas = some count → field item "spec.replicas" = .int count) :
    KeepsUnchanged kind item shown replicas ↔ ∀ container, .map container ∈ (formContainers kind item).getD [] →
        ContainerReturns (kubeFormImageOnly kind) container := by
  obtain ⟨items, hitems, hmaps⟩ := formContainers_of_shown hshown
  rw [hitems, Option.getD_some]
  have hcontainer : ∀ {i : Nat} {value : Json}, items[i]? = some value → ∃ container, value = .map container ∧
      ((∃ container', editContainer (kubeFormImageOnly kind) shown (.map container) = some (.map container') ∧
        Alike (some (.map container')) (some (.map container))) ↔
        ContainerReturns (kubeFormImageOnly kind) container) := by
    intro i value hi
    obtain ⟨container, old, rfl, hold, hshownAt⟩ := container_of_shown hmaps hi
    exact ⟨container, rfl, containerReturns_iff hold (editOf_of_nodup hdistinct (List.mem_of_getElem? hshownAt))⟩
  constructor
  · rintro ⟨result, hresult, halike⟩ container hmem
    obtain ⟨copy, items', hcopy, hmapM, hitems', hmodify⟩ := withFormEdits_spec hform hitems hresult
    rw [alike_containers hitems (alike_setReplicas hcopy hsame)
      (formContainers_setReplicas hform hcopy) hmodify hitems',
      alike_list_iff (mapM_eq_some_iff.mp hmapM).length_eq.symm] at halike
    obtain ⟨i, hi⟩ := List.getElem?_of_mem hmem
    obtain ⟨_, heq, hiff⟩ := hcontainer hi
    cases heq
    obtain ⟨value', hi', hget⟩ := mapM_getElem hmapM hi
    have hlike := halike i
    obtain ⟨container', rfl, -⟩ := editContainer_cases hget
    rw [hi, hi'] at hlike
    exact hiff.mp ⟨container', hget, hlike⟩
  · intro hreturns
    have hsaved : ∀ value ∈ items, ∃ value', editContainer (kubeFormImageOnly kind) shown value = some value' ∧
        Alike (some value') (some value) := by
      intro value hmem
      obtain ⟨i, hi⟩ := List.getElem?_of_mem hmem
      obtain ⟨container, rfl, hiff⟩ := hcontainer hi
      obtain ⟨container', hedited, halike⟩ := hiff.mpr (hreturns container hmem)
      exact ⟨_, hedited, halike⟩
    obtain ⟨items', hmapM⟩ : ∃ items', items.mapM (editContainer (kubeFormImageOnly kind) shown) = some items' := by
      apply mapM_isSome
      intro value hmem
      obtain ⟨value', hedited, -⟩ := hsaved value hmem
      exact ⟨value', hedited⟩
    have hspec : replicas ≠ none → ∃ spec, Json.get item "spec" = .map spec := by
      intro hreplicas
      obtain ⟨count, rfl⟩ := Option.ne_none_iff_exists'.mp hreplicas
      obtain ⟨spec, hspec, -⟩ := spec_of_replicas (hsame count rfl)
      exact ⟨spec, hspec⟩
    obtain ⟨result, hresult⟩ := withFormEdits_isSome hform hitems hspec hmapM
    obtain ⟨copy, edited, hcopy, hmapM', hitems', hmodify⟩ := withFormEdits_spec hform hitems hresult
    cases hmapM.symm.trans hmapM'
    refine ⟨result, hresult, ?_⟩
    rw [alike_containers hitems (alike_setReplicas hcopy hsame)
      (formContainers_setReplicas hform hcopy) hmodify hitems',
      alike_list_iff (mapM_eq_some_iff.mp hmapM).length_eq.symm]
    intro i
    rw [mapM_getElem? hmapM i]
    cases hi : items[i]? with
    | none => exact Agree.refl _
    | some value =>
      obtain ⟨value', hedited, halike⟩ := hsaved value (List.mem_of_getElem? hi)
      rw [Option.bind_some, hedited]
      exact halike

end Item

/-- The edits of a form are what it shows afterwards, nothing else is changed and each variable keeps its
source, exactly when every edit can be written; and saving what is shown changes nothing exactly when
every container is written back. -/
theorem form_saves_iff {kind : KubeKind} {item : JsonMap} {shown : List KubeContainerEdit}
    (hform : (kubeFormSpec kind).isSome) (hshown : containerEdits kind item = some shown) :
    (∀ containers replicas, (containers.map KubeContainerEdit.name).Nodup →
      (SavesWell kind item containers replicas ↔ EditsFit kind item containers replicas)) ∧
    ((shown.map KubeContainerEdit.name).Nodup → ∀ replicas,
      (∀ count, replicas = some count → field item "spec.replicas" = .int count) →
      (KeepsUnchanged kind item shown replicas ↔
        ∀ container, .map container ∈ (formContainers kind item).getD [] →
          ContainerReturns (kubeFormImageOnly kind) container)) := by
  refine ⟨fun containers replicas _ => ?_, fun hdistinct replicas hsame => ?_⟩
  · exact ⟨editsFit_of_savesWell hform hshown, savesWell_of_editsFit hform hshown⟩
  · exact keepsUnchanged_iff hform hshown hdistinct hsame

def deployments : KubeKind := { type := "deployments", ownsPods := true }

def keyFromValue : JsonMap := [("name", .string "KEY"), ("value", .string "x")]

def keyFromSecret : JsonMap :=
  [("name", .string "KEY"), ("valueFrom", .map [
    ("secretKeyRef", .map [("name", .string "db"), ("key", .string "password")])])]

def modeFast : JsonMap := [("name", .string "MODE"), ("value", .string "fast")]

def sourcedContainer : JsonMap :=
  [("name", .string "api"), ("image", .string "api:1"), ("env", .list [.map modeFast, .map keyFromSecret]),
    ("resources", .map [("requests", .map [("cpu", .string "100m"), ("memory", .string "64Mi")])])]

def sourcedDeployment : JsonMap :=
  [("spec", .map [("template", .map [("spec", .map [("containers", .list [.map sourcedContainer])])])])]

def keyShown : KubeEnvVar := ⟨"KEY", "", some "secret db/password"⟩

def sourcedShown : KubeContainerEdit :=
  ⟨"api", "api:1", [⟨"MODE", "fast", none⟩, keyShown], "100m", "64Mi", "", ""⟩

/-- Another image, a limit, and the variables the other way round, one of them with a new value. -/
def sourcedEdit : KubeContainerEdit :=
  { sourcedShown with image := "api:2", env := [keyShown, ⟨"MODE", "slow", none⟩], cpuLimit := "1" }

/-- A container with a variable from a secret can be edited, and it can be saved as it is. -/
theorem form_saves_iff_sourced : SavesWell deployments sourcedDeployment [sourcedEdit] (some 3) ∧
    KeepsUnchanged deployments sourcedDeployment [sourcedShown] none := by
  have hitems : (formContainers deployments sourcedDeployment).getD [] = [.map sourcedContainer] := rfl
  have henv : envItems sourcedContainer = [.map modeFast, .map keyFromSecret] := by
    rw [envItems, listField, field_env]
    rfl
  have hkey : firstNamed "KEY" (envItems sourcedContainer) = some (.map keyFromSecret) := by
    rw [henv]
    rfl
  have hresources : mapOrNew sourcedContainer "resources" =
      some [("requests", .map [("cpu", .string "100m"), ("memory", .string "64Mi")])] := rfl
  have hplain : PlainResources sourcedContainer := ⟨_, hresources, rfl, rfl⟩
  have hvar : ∀ env ∈ sourcedEdit.env, env.source ≠ none → env = keyShown := by decide
  have hsecret : ∀ old, .map old ∈ envItems sourcedContainer → envVar old = keyShown → old = keyFromSecret := by
    rw [henv]
    intro old hmem hshown
    rcases List.mem_cons.mp hmem with hmode | hlast
    · cases hmode
      exact absurd hshown (by decide)
    · exact Json.map.inj (List.mem_singleton.mp hlast)
  obtain ⟨hsaves, hkeeps⟩ := form_saves_iff (by decide)
    (show containerEdits deployments sourcedDeployment = some [sourcedShown] by decide)
  refine ⟨(hsaves [sourcedEdit] (some 3) (by simp)).mpr ⟨fun _ => ⟨_, rfl⟩, fun container hmem edit hedit => ?_⟩,
    (hkeeps (by simp) none fun count h => by cases h).mpr fun container hmem _ => ?_⟩
  · rw [hitems, List.mem_singleton] at hmem
    cases hmem
    have hname : editOf [sourcedEdit] (strField sourcedContainer "name") = some sourcedEdit := by decide
    cases hedit.symm.trans hname
    constructor
    · intro _ env hmem hsource
      rw [hvar env hmem hsource]
      intro old old' hold hold' hshown hshown'
      rw [hsecret old hold hshown, hsecret old' hold' hshown']
    · rw [if_pos (by decide)]
      refine fun _ => ⟨hplain, fun env hmem hsource => ?_⟩
      rw [hvar env hmem hsource]
      exact ⟨keyFromSecret, hkey, by decide⟩
  · rw [hitems, List.mem_singleton] at hmem
    cases hmem
    refine ⟨.inr ⟨"api:1", rfl⟩, fun _ => ⟨hplain, fun group hgroup unit hunit => ?_, fun env hmem => ?_⟩⟩
    · rw [getPath_mapOrNew hresources]
      simp only [List.mem_cons, List.not_mem_nil, or_false] at hgroup hunit
      rcases hgroup with rfl | rfl
      · rcases hunit with rfl | rfl
        · exact .inr ⟨"100m", rfl⟩
        · exact .inr ⟨"64Mi", rfl⟩
      · exact .inl rfl
    · rw [henv] at hmem
      rcases List.mem_cons.mp hmem with hmode | hlast
      · cases hmode
        exact Agree.refl _
      · cases List.mem_singleton.mp hlast
        exact ⟨_, hkey, Agree.refl _⟩

def twiceContainer : JsonMap :=
  [("name", .string "api"), ("image", .string "api:1"),
    ("env", .list [.map keyFromValue, .map keyFromSecret])]

/-- A deployment whose container has a variable twice: with a value, and from a secret. -/
def twiceNamed : JsonMap :=
  [("spec", .map [("template", .map [("spec", .map [("containers", .list [.map twiceContainer])])])])]

def twiceShown : KubeContainerEdit :=
  ⟨"api", "api:1", [⟨"KEY", "x", none⟩, ⟨"KEY", "", some "secret db/password"⟩], "", "", "", ""⟩

/-- Saving it as it is shown puts the value in the place of the secret. -/
theorem form_loses_source : containerEdits deployments twiceNamed = some [twiceShown] ∧
    ([twiceShown].map KubeContainerEdit.name).Nodup ∧ ¬SavesWell deployments twiceNamed [twiceShown] none ∧
    ¬KeepsUnchanged deployments twiceNamed [twiceShown] none := by
  have hshown : containerEdits deployments twiceNamed = some [twiceShown] := by decide
  have hform : (kubeFormSpec deployments).isSome := by decide
  have hdistinct : ([twiceShown].map KubeContainerEdit.name).Nodup := by simp
  have hmem : .map twiceContainer ∈ (formContainers deployments twiceNamed).getD [] :=
    List.mem_singleton_self _
  have henv : envItems twiceContainer = [.map keyFromValue, .map keyFromSecret] := by
    rw [envItems, listField, field_env]
    rfl
  have hfirst : firstNamed "KEY" (envItems twiceContainer) = some (.map keyFromValue) := by
    rw [henv]
    rfl
  refine ⟨hshown, hdistinct, fun hsaves => ?_, fun hkeeps => ?_⟩
  · have hfits := (editsFit_of_savesWell hform hshown hsaves).2 twiceContainer hmem twiceShown (by decide)
    have hstring : (Json.get twiceContainer "name").isString twiceShown.name := by decide
    have hsettings := hfits.2
    rw [if_pos hstring] at hsettings
    obtain ⟨first, hnamed, hsame⟩ := (hsettings (by decide)).2
      ⟨"KEY", "", some "secret db/password"⟩ (by decide) (Option.some_ne_none _)
    cases Option.some.inj (hfirst.symm.trans hnamed)
    revert hsame
    decide
  · have hreturns := (keepsUnchanged_iff hform hshown hdistinct fun count h => by cases h).mp hkeeps
      twiceContainer hmem ⟨"api", rfl⟩
    have hsecret := (hreturns.2 (by decide)).2.2 keyFromSecret (by rw [henv]; simp)
    have hsource : envSource keyFromSecret = some "secret db/password" := by decide
    have hname : strField keyFromSecret "name" = "KEY" := by decide
    unfold EnvReturns at hsecret
    rw [hsource, hname] at hsecret
    obtain ⟨first, hnamed, halike⟩ := hsecret
    cases hfirst.symm.trans hnamed
    have hvalue := halike [.key "value"] id
    revert hvalue
    decide

end Portix.Kubernetes
