import Portix.Kibana.KibanaResults
import Portix.Lib.Proofs.JsonEncodeProofs

/-!
# Soundness theorems for the fields of documents and their values
-/

namespace Portix.Kibana

open Lib Json

section Sorted

variable {α : Type} (entries : List (String × α))

theorem sortEntries_perm : (sortEntries entries).Perm entries := List.perm_insertionSort _ _

theorem sortEntries_sorted : (sortEntries entries).Pairwise fun a b => units a.1 ≤ units b.1 := by
  have htotal : Std.Total fun a b : String × α => units a.1 ≤ units b.1 := ⟨fun a b => le_total _ _⟩
  have htrans : IsTrans (String × α) fun a b => units a.1 ≤ units b.1 := ⟨fun a b c => le_trans⟩
  exact List.pairwise_insertionSort _ _

theorem sortEntries_nodup (h : (entries.map Prod.fst).Nodup) : ((sortEntries entries).map Prod.fst).Nodup :=
  ((sortEntries_perm entries).map Prod.fst).nodup_iff.mpr h

theorem lookup_sortEntries (h : (entries.map Prod.fst).Nodup) (k : String) :
    (sortEntries entries).lookup k = entries.lookup k := by
  refine Option.ext fun b => ?_
  rw [← mem_iff_lookup (sortEntries_nodup entries h), ← mem_iff_lookup h, (sortEntries_perm entries).mem_iff]

end Sorted

def prefixOf (path : List String) : String := String.join (path.map (· ++ "."))

theorem prefixOf_concat (path : List String) (key : String) :
    prefixOf (path ++ [key]) = prefixOf path ++ (key ++ ".") := by
  rw [prefixOf, List.map_append, String.join_append, List.map_singleton, String.join_cons]
  exact congrArg (prefixOf path ++ ·) String.append_empty

theorem dotted_concat (path : List String) (key : String) : dotted (path ++ [key]) = prefixOf path ++ key := by
  induction path with
  | nil => exact (String.empty_append).symm
  | cons first rest ih =>
    have hnext : dotted (first :: (rest ++ [key])) = first ++ "." ++ dotted (rest ++ [key]) := by
      obtain ⟨second, others, heq⟩ := List.exists_cons_of_ne_nil (List.append_ne_nil_of_right_ne_nil rest
        (List.cons_ne_nil key []))
      rw [heq]
      exact String.intercalate_cons_cons
    rw [List.cons_append, hnext, ih, prefixOf, prefixOf, List.map_cons, String.join_cons, String.append_assoc,
      String.append_assoc, String.append_assoc]

def setLeaf (fields : JsonMap) (leaf : List String × Json) : JsonMap :=
  Json.set (dotted leaf.1) leaf.2 fields

mutual

theorem walkValue_eq : ∀ (value : Json) (fields : JsonMap) (path : List String) (key : String),
    walkValue fields (prefixOf path ++ key) value = (valueLeaves (path ++ [key]) value).foldl setLeaf fields
  | .map entries, fields, path, key => by
    rw [walkValue, valueLeaves, String.append_assoc, ← prefixOf_concat]
    exact walk_eq entries fields (path ++ [key])
  | .null, fields, path, key => by
    rw [walkValue, valueLeaves, List.foldl_cons, List.foldl_nil, setLeaf, dotted_concat] <;> simp
  | .bool b, fields, path, key => by
    rw [walkValue, valueLeaves, List.foldl_cons, List.foldl_nil, setLeaf, dotted_concat] <;> simp
  | .int n, fields, path, key => by
    rw [walkValue, valueLeaves, List.foldl_cons, List.foldl_nil, setLeaf, dotted_concat] <;> simp
  | .double t, fields, path, key => by
    rw [walkValue, valueLeaves, List.foldl_cons, List.foldl_nil, setLeaf, dotted_concat] <;> simp
  | .string t, fields, path, key => by
    rw [walkValue, valueLeaves, List.foldl_cons, List.foldl_nil, setLeaf, dotted_concat] <;> simp
  | .list items, fields, path, key => by
    rw [walkValue, valueLeaves, List.foldl_cons, List.foldl_nil, setLeaf, dotted_concat] <;> simp

theorem walk_eq : ∀ (entries : JsonMap) (fields : JsonMap) (path : List String),
    walk fields (prefixOf path) entries = (entryLeaves path entries).foldl setLeaf fields
  | [], fields, path => rfl
  | (key, value) :: rest, fields, path => by
    rw [walk, entryLeaves, List.foldl_append, walkValue_eq value fields path key]
    exact walk_eq rest _ path

end

variable (source : JsonMap)

theorem walk_source :
    walk [] "" source = gather (fun leaf => dotted leaf.1) (fun leaf _ => leaf.2) [] (leafPaths source) := by
  have hset : setLeaf = fun fields leaf => putEntry (dotted leaf.1) (fun _ => leaf.2) fields := by
    funext fields leaf
    rfl
  rw [gather, leafPaths, ← hset]
  exact walk_eq source [] []

theorem foldl_last {α β : Type} (f : α → β) (items : List α) (found : Option β) :
    items.foldl (fun _ item => some (f item)) found = (items.getLast?.map f).or found := by
  induction items using List.reverseRecOn with
  | nil => rfl
  | append_singleton items item _ =>
    rw [List.foldl_append, List.getLast?_concat]
    rfl

theorem walk_nodup : ((walk [] "" source).map Prod.fst).Nodup := by
  have hnil : (([] : JsonMap).map Prod.fst).Nodup := List.nodup_nil
  rw [walk_source]
  exact nodup_gather _ _ hnil _

theorem lookup_flattenSource (name : String) :
    (flattenSource source).lookup name = lastNamed source name := by
  rw [flattenSource, lookup_sortEntries _ (walk_nodup source), walk_source, lookup_gather, foldl_last, lastNamed]
  exact Option.or_none

theorem flattenSource_nodup : ((flattenSource source).map Prod.fst).Nodup :=
  sortEntries_nodup _ (walk_nodup source)

theorem lastNamed_of_nodup {source : JsonMap}
    (h : ((leafPaths source).map fun leaf => dotted leaf.1).Nodup) {path : List String} {value : Json}
    (hleaf : (path, value) ∈ leafPaths source) : lastNamed source (dotted path) = some value := by
  have hmem : (path, value) ∈ (leafPaths source).filter fun leaf => dotted leaf.1 = dotted path :=
    List.mem_filter.mpr ⟨hleaf, decide_eq_true rfl⟩
  rw [lastNamed]
  cases hlast : ((leafPaths source).filter fun leaf => dotted leaf.1 = dotted path).getLast? with
  | none =>
    rw [List.getLast?_eq_none_iff.mp hlast] at hmem
    exact absurd hmem List.not_mem_nil
  | some leaf =>
    have hfound := List.mem_filter.mp (List.mem_of_getLast? hlast)
    have hname : dotted leaf.1 = dotted path := of_decide_eq_true hfound.2
    obtain rfl := List.inj_on_of_nodup_map h hfound.1 hleaf hname
    rfl

theorem flattensSource : FlattensSource source (flattenSource source) := by
  have hentries : ∀ name value, (name, value) ∈ flattenSource source ↔ lastNamed source name = some value := by
    intro name value
    rw [mem_iff_lookup (flattenSource_nodup source), lookup_flattenSource]
  refine ⟨sortEntries_sorted _, flattenSource_nodup source, hentries, fun h => ?_⟩
  have hleaves : ∀ path value, (path, value) ∈ leafPaths source → (dotted path, value) ∈ flattenSource source :=
    fun path value hleaf => (hentries _ _).mpr (lastNamed_of_nodup h hleaf)
  refine ⟨?_, hleaves⟩
  -- the names of the entries are those of the paths
  have hperm : ((flattenSource source).map Prod.fst).Perm ((leafPaths source).map fun leaf => dotted leaf.1) := by
    refine (List.perm_ext_iff_of_nodup (flattenSource_nodup source) h).mpr fun name => ?_
    constructor
    · intro hname
      obtain ⟨entry, hentry, rfl⟩ := List.mem_map.mp hname
      obtain ⟨leaf, hlast, _⟩ := Option.map_eq_some_iff.mp ((hentries entry.1 entry.2).mp hentry)
      have hfound := List.mem_filter.mp (List.mem_of_getLast? hlast)
      exact List.mem_map.mpr ⟨leaf, hfound.1, of_decide_eq_true hfound.2⟩
    · intro hname
      obtain ⟨leaf, hleaf, rfl⟩ := List.mem_map.mp hname
      exact List.mem_map.mpr ⟨(dotted leaf.1, leaf.2), hleaves leaf.1 leaf.2 hleaf, rfl⟩
  simpa using hperm.length_eq

def fieldNames (hits : List KibanaHit) : List String := hits.flatMap fun hit => (flattenSource hit.source).map Prod.fst

theorem kibanaFields_eq (hits : List KibanaHit) :
    kibanaFields hits = sortEntries (gather id (fun _ old => old.getD 0 + 1) [] (fieldNames hits)) := by
  rw [kibanaFields, gather, fieldNames, List.foldl_flatMap]
  refine congrArg sortEntries (congrArg (fun step => hits.foldl step []) ?_)
  funext counts hit
  rw [List.foldl_map]
  rfl

theorem count_fieldNames (hits : List KibanaHit) (field : String) :
    (fieldNames hits).count field = hits.countP (fun hit => HasField field hit) := by
  induction hits with
  | nil => rfl
  | cons hit rest ih =>
    rw [fieldNames, List.flatMap_cons, List.count_append, ← fieldNames, ih, List.countP_cons,
      (flattenSource_nodup hit.source).count, Nat.add_comm]
    refine congrArg (rest.countP (fun hit => HasField field hit) + ·) ?_
    by_cases hfield : HasField field hit
    · exact (if_pos hfield).trans (if_pos (decide_eq_true hfield)).symm
    · exact (if_neg hfield).trans (if_neg fun h => hfield (of_decide_eq_true h)).symm

theorem foldl_count {α : Type} (items : List α) (found : Option Nat) :
    items.foldl (fun found _ => some (found.getD 0 + 1)) found =
      if items.length = 0 then found else some (found.getD 0 + items.length) := by
  induction items generalizing found with
  | nil => rfl
  | cons item rest ih =>
    rw [List.foldl_cons, ih, Option.getD_some, List.length_cons, if_neg (Nat.succ_ne_zero rest.length)]
    by_cases hrest : rest.length = 0
    · rw [if_pos hrest, hrest]
    · rw [if_neg hrest]
      exact congrArg some (by omega)

theorem kibanaFields_nodup (hits : List KibanaHit) : ((kibanaFields hits).map Prod.fst).Nodup := by
  have hnil : (([] : List (String × Nat)).map Prod.fst).Nodup := List.nodup_nil
  rw [kibanaFields_eq]
  exact sortEntries_nodup _ (nodup_gather _ _ hnil _)

theorem lookup_kibanaFields (hits : List KibanaHit) (field : String) : (kibanaFields hits).lookup field =
      if hits.countP (fun hit => HasField field hit) = 0 then none
      else some (hits.countP fun hit => HasField field hit) := by
  have hnil : (([] : List (String × Nat)).map Prod.fst).Nodup := List.nodup_nil
  have hlength : ((fieldNames hits).filter fun name => id name = field).length =
      hits.countP (fun hit => HasField field hit) := by
    rw [← count_fieldNames, List.count, List.countP_eq_length_filter]
    refine congrArg (fun p => ((fieldNames hits).filter p).length) ?_
    funext name
    exact (Bool.beq_eq_decide_eq name field).symm
  rw [kibanaFields_eq, lookup_sortEntries _ (nodup_gather _ _ hnil _), lookup_gather, foldl_count, hlength]
  by_cases hzero : hits.countP (fun hit => HasField field hit) = 0
  · rw [if_pos hzero, if_pos hzero]
    rfl
  · rw [if_neg hzero, if_neg hzero]
    exact congrArg some (Nat.zero_add _)

theorem countsFields (hits : List KibanaHit) : CountsFields hits (kibanaFields hits) := by
  refine ⟨sortEntries_sorted _, kibanaFields_nodup hits, fun field n => ?_⟩
  rw [mem_iff_lookup (kibanaFields_nodup hits), lookup_kibanaFields]
  by_cases hzero : hits.countP (fun hit => HasField field hit) = 0
  · rw [if_pos hzero]
    constructor
    · rintro ⟨⟩
    · rintro ⟨rfl, hpos⟩
      omega
  · rw [if_neg hzero, Option.some.injEq]
    constructor
    · rintro rfl
      exact ⟨rfl, Nat.pos_of_ne_zero hzero⟩
    · rintro ⟨rfl, _⟩
      rfl

def countOnce (value : Json) (old : Option ValueCount) : ValueCount := ⟨value, old.elim 0 ValueCount.count + 1⟩

def valueCounts (values : List Json) : List (String × ValueCount) := gather (encode compact) countOnce [] values

variable {hits : List KibanaHit} {field : String}

theorem foldlM_countValue (h : ∀ value ∈ fieldValues hits field, value.encodable = true)
    (counts : List (String × ValueCount)) :
    hits.foldlM (countValue field) counts
      = some (gather (encode compact) countOnce counts (fieldValues hits field)) := by
  induction hits generalizing counts with
  | nil => rfl
  | cons hit rest ih =>
    rw [List.foldlM_cons]
    cases hvalue : (flattenSource hit.source).lookup field with
    | none =>
      have hstep : countValue field counts hit = some counts := by
        rw [countValue, hvalue]
      have hvalues : fieldValues (hit :: rest) field = fieldValues rest field := List.filterMap_cons_none hvalue
      rw [hvalues] at h ⊢
      rw [hstep]
      exact ih h counts
    | some value =>
      have hvalues : fieldValues (hit :: rest) field = value :: fieldValues rest field :=
        List.filterMap_cons_some hvalue
      rw [hvalues] at h ⊢
      have hencoded : jsonEncode value = some (encode compact value) := if_pos (h value List.mem_cons_self)
      have hstep : countValue field counts hit = some (putEntry (encode compact value) (countOnce value) counts) := by
        rw [countValue, hvalue]
        exact congrArg (Option.map _) hencoded
      rw [hstep]
      exact ih (fun value hmem => h value (List.mem_cons_of_mem _ hmem)) _

theorem kibanaTopValues_eq (h : ∀ value ∈ fieldValues hits field, value.encodable = true) (order : CountSort)
    (n : Nat) :
    kibanaTopValues order hits field n
      = some ((order.sort ((valueCounts (fieldValues hits field)).map Prod.snd)).take n) := by
  rw [kibanaTopValues, foldlM_countValue h]
  rfl

theorem valueCounts_nodup (values : List Json) : ((valueCounts values).map Prod.fst).Nodup := by
  have hnil : (([] : List (String × ValueCount)).map Prod.fst).Nodup := List.nodup_nil
  exact nodup_gather _ _ hnil _

theorem foldl_countOnce (values : List Json) : values.foldl (fun found value => some (countOnce value found)) none
      = values.getLast?.map fun value => ⟨value, values.length⟩ := by
  induction values using List.reverseRecOn with
  | nil => rfl
  | append_singleton values value ih =>
    rw [List.foldl_append, List.foldl_cons, List.foldl_nil, ih, List.getLast?_concat, List.length_append,
      List.length_singleton, Option.map_some, countOnce]
    cases hlast : values.getLast? with
    | none =>
      rw [List.getLast?_eq_none_iff.mp hlast]
      rfl
    | some last => rfl

section Encodable

variable {values : List Json} (h : ∀ value ∈ values, value.encodable = true)

include h

theorem text_injective {value value' : Json} (hmem : value ∈ values) (hmem' : value' ∈ values)
    (heq : encode compact value = encode compact value') : value = value' := by
  refine jsonEncode_injective (if_pos (h value hmem)) ?_
  rw [jsonEncode, if_pos (h value' hmem'), heq]

open Classical in
theorem of_mem_valueCounts {text : String} {entry : ValueCount} (hentry : (text, entry) ∈ valueCounts values) :
    entry.value ∈ values ∧ encode compact entry.value = text ∧ entry.count = values.count entry.value := by
  rw [mem_iff_lookup (valueCounts_nodup values), valueCounts, lookup_gather] at hentry
  have hlast := (foldl_countOnce _).symm.trans hentry
  obtain ⟨value, hvalue, rfl⟩ := Option.map_eq_some_iff.mp hlast
  obtain ⟨hmem, htext⟩ := List.mem_filter.mp (List.mem_of_getLast? hvalue)
  rw [decide_eq_true_eq] at htext
  refine ⟨hmem, htext, ?_⟩
  rw [List.count, List.countP_eq_length_filter]
  refine congrArg List.length (List.filter_congr fun value' hmem' => ?_)
  rw [← htext, Bool.eq_iff_iff, decide_eq_true_eq, beq_iff_eq]
  exact ⟨fun heq => text_injective h hmem' hmem heq, fun heq => congrArg _ heq⟩

theorem valueCounts_values_nodup : (((valueCounts values).map Prod.snd).map ValueCount.value).Nodup := by
  have htexts : (((valueCounts values).map Prod.snd).map ValueCount.value).map (encode compact)
      = (valueCounts values).map Prod.fst := by
    rw [List.map_map, List.map_map]
    exact List.map_congr_left fun entry hentry => (of_mem_valueCounts h hentry).2.1
  refine List.Nodup.of_map (encode compact) ?_
  rw [htexts]
  exact valueCounts_nodup values

end Encodable

theorem sum_valueCounts (values : List Json) :
    (((valueCounts values).map Prod.snd).map ValueCount.count).sum = values.length := by
  have hsum := sum_gather (encode compact) countOnce (w := ValueCount.count) (fun _ _ => rfl) [] values
  rw [List.map_map]
  exact hsum.trans (Nat.zero_add _)

theorem length_fieldValues (hits : List KibanaHit) (field : String) :
    (fieldValues hits field).length = hits.countP (fun hit => HasField field hit) := by
  induction hits with
  | nil => rfl
  | cons hit rest ih =>
    have hfield : HasField field hit ↔ ∃ value, (flattenSource hit.source).lookup field = some value := by
      constructor
      · intro hmem
        obtain ⟨entry, hentry, rfl⟩ := List.mem_map.mp hmem
        exact ⟨entry.2, (mem_iff_lookup (flattenSource_nodup hit.source)).mp hentry⟩
      · rintro ⟨value, hvalue⟩
        exact List.mem_map.mpr ⟨(field, value), (mem_iff_lookup (flattenSource_nodup hit.source)).mpr hvalue, rfl⟩
    rw [List.countP_cons, ← ih]
    cases hvalue : (flattenSource hit.source).lookup field with
    | none =>
      have hnot : ¬HasField field hit := by
        rw [hfield, hvalue]
        rintro ⟨value, ⟨⟩⟩
      rw [if_neg fun h => hnot (of_decide_eq_true h)]
      exact congrArg List.length (List.filterMap_cons_none hvalue)
    | some value =>
      rw [if_pos (decide_eq_true (hfield.mpr ⟨value, hvalue⟩))]
      have hvalues : fieldValues (hit :: rest) field = value :: fieldValues rest field :=
        List.filterMap_cons_some hvalue
      rw [hvalues, List.length_cons]

open Classical in
theorem differentValues_le (hits : List KibanaHit) (field : String) :
    differentValues hits field ≤ (fieldValues hits field).length := (List.dedup_sublist _).length_le

open Classical in
theorem count_fieldValues (hits : List KibanaHit) (field : String) (value : Json) :
    (fieldValues hits field).count value = holders hits field value := by
  rw [fieldValues, List.count_filterMap, holders]
  refine List.countP_congr fun hit _ => ?_
  rw [beq_iff_eq, decide_eq_true_eq]

open Classical in
theorem length_valueCounts (h : ∀ value ∈ fieldValues hits field, value.encodable = true) :
    (valueCounts (fieldValues hits field)).length = differentValues hits field := by
  have hperm : (((valueCounts (fieldValues hits field)).map Prod.snd).map ValueCount.value).Perm
      (fieldValues hits field).dedup := by
    refine (List.perm_ext_iff_of_nodup (valueCounts_values_nodup h) (List.nodup_dedup _)).mpr fun value => ?_
    rw [List.mem_dedup, List.map_map]
    constructor
    · intro hmem
      obtain ⟨entry, hentry, rfl⟩ := List.mem_map.mp hmem
      exact (of_mem_valueCounts h hentry).1
    · -- the text of the value has an entry, whose value has the same text
      intro hmem
      have hkey : encode compact value ∈ (valueCounts (fieldValues hits field)).map Prod.fst := by
        rw [valueCounts, keys_gather]
        exact .inr (List.mem_map_of_mem hmem)
      obtain ⟨entry, hentry, htext⟩ := List.mem_map.mp hkey
      obtain ⟨hvalue, hsame, _⟩ := of_mem_valueCounts h hentry
      exact List.mem_map.mpr ⟨entry, hentry, text_injective h hvalue hmem (hsame.trans htext)⟩
  rw [differentValues, ← hperm.length_eq, List.length_map, List.length_map]

theorem countsValues (h : ∀ value ∈ fieldValues hits field, value.encodable = true) (order : CountSort) (n : Nat) :
    CountsValues hits field ((order.sort ((valueCounts (fieldValues hits field)).map Prod.snd)).take n) := by
  have hsub := List.take_sublist n (order.sort ((valueCounts (fieldValues hits field)).map Prod.snd))
  have hperm := order.perm ((valueCounts (fieldValues hits field)).map Prod.snd)
  refine ⟨fun entry hentry => ?_, (order.sorted _).sublist hsub, ?_⟩
  · obtain ⟨⟨text, entry'⟩, hcounted, rfl⟩ := List.mem_map.mp (hperm.mem_iff.mp (hsub.mem hentry))
    rw [(of_mem_valueCounts h hcounted).2.2, count_fieldValues]
  · exact ((hperm.map _).nodup_iff.mpr (valueCounts_values_nodup h)).sublist (hsub.map _)

theorem sum_kibanaTopValues (h : ∀ value ∈ fieldValues hits field, value.encodable = true) (order : CountSort) {n : Nat}
    (hn : differentValues hits field ≤ n) :
    (((order.sort ((valueCounts (fieldValues hits field)).map Prod.snd)).take n).map ValueCount.count).sum
      = ((kibanaFields hits).lookup field).getD 0 := by
  have hperm := order.perm ((valueCounts (fieldValues hits field)).map Prod.snd)
  have hlength : (order.sort ((valueCounts (fieldValues hits field)).map Prod.snd)).length ≤ n := by
    rw [hperm.length_eq, List.length_map, length_valueCounts h]
    exact hn
  rw [List.take_of_length_le hlength, (hperm.map ValueCount.count).sum_nat, sum_valueCounts, length_fieldValues,
    lookup_kibanaFields]
  by_cases hzero : hits.countP (fun hit => HasField field hit) = 0
  · rw [if_pos hzero, hzero]
    rfl
  · rw [if_neg hzero]
    rfl

/-- The fields of a document are its paths, by name, and the numbers of documents with a field and with each of its
values agree. -/
theorem fields_and_values_agree (order : CountSort) :
    (∀ source, FlattensSource source (flattenSource source)) ∧
    (∀ hits, CountsFields hits (kibanaFields hits)) ∧
    ∀ hits field, (∀ value ∈ fieldValues hits field, value.encodable = true) → ∀ n,
      ∃ values, kibanaTopValues order hits field n = some values ∧ CountsValues hits field values ∧
        (differentValues hits field ≤ n →
          (values.map ValueCount.count).sum = ((kibanaFields hits).lookup field).getD 0) :=
  ⟨flattensSource, countsFields, fun _ _ h n =>
    ⟨_, kibanaTopValues_eq h order n, countsValues h order n, sum_kibanaTopValues h order⟩⟩

/-- The documents are sorted by their counts, those counted first before those counted later. -/
def countSort : CountSort where
  sort values := values.insertionSort fun a b => b.count ≤ a.count
  perm values := List.perm_insertionSort _ values
  sorted values := by
    have htotal : Std.Total fun a b : ValueCount => b.count ≤ a.count := ⟨fun a b => le_total b.count a.count⟩
    have htrans : IsTrans ValueCount fun a b => b.count ≤ a.count := ⟨fun _ _ _ hab hbc => le_trans hbc hab⟩
    exact List.pairwise_insertionSort _ values

/-- Of three documents, two have an error for their level. -/
theorem levels_counted :
    let hits : List KibanaHit := [⟨"", [("level", .string "error")]⟩, ⟨"", [("level", .string "info")]⟩,
      ⟨"", [("level", .string "error")]⟩]
    ∃ values, kibanaTopValues countSort hits "level" 3 = some values ∧
      (values.map ValueCount.count).sum = ((kibanaFields hits).lookup "level").getD 0 := by
  intro hits
  have hencodable : ∀ value ∈ fieldValues hits "level", value.encodable = true := by decide
  obtain ⟨values, hvalues, _, hsum⟩ := (fields_and_values_agree countSort).2.2 hits "level" hencodable 3
  have hlength : (fieldValues hits "level").length ≤ 3 := by decide
  exact ⟨values, hvalues, hsum ((differentValues_le hits "level").trans hlength)⟩

/-- A key with a dot and a key in a map below share a field: one of the values is left out. -/
theorem dotted_key_dropped :
    (leafPaths [("a.b", .int 1), ("a", .map [("b", .int 2)])]).length = 2 ∧
      (flattenSource [("a.b", .int 1), ("a", .map [("b", .int 2)])]).length = 1 := by
  decide

end Portix.Kibana
