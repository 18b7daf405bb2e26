import Portix.App.Proofs.CommandWordsProofs
import Portix.Kubernetes.KubeDetail
import Portix.Kubernetes.Proofs.ResourceTableProofs
import Portix.Lib.Proofs.JsonLinesProofs
import Portix.Lib.Proofs.JsonProofs

/-!
# The detail page shows what was printed

No line of a JSON text ends like the separator, so the output is cut between the documents. The texts of two stamps are
in the order of their instants, unless they are in one second and only one of them has a fraction.
-/

namespace Portix.Kubernetes

open Lib

theorem separator_eq : (kubeSeparator ++ "\n").toList = kubeSeparator.toList ++ ['\n'] ∧
    '\n' ∉ kubeSeparator.toList ∧ ['-', '\n'] <:+ (kubeSeparator ++ "\n").toList := by
  decide

variable {document rest : List Char}

theorem not_separator_infix (hinline : Json.Inline document) : ¬ (kubeSeparator ++ "\n").toList <:+: document := by
  intro hinfix
  have hchain := hinline.chain.infix (separator_eq.2.2.isInfix.trans hinfix)
  rw [List.isChain_pair] at hchain
  exact hchain ⟨rfl, rfl⟩

theorem not_occursAt (hinline : Json.Inline document) (i : Nat) :
    ¬ OccursAt document (kubeSeparator ++ "\n").toList i := fun hoccurs =>
  not_separator_infix hinline ((List.IsPrefix.isInfix hoccurs).trans (List.drop_suffix i document).isInfix)

theorem not_occursAt_before (hinline : Json.Inline document) (hline : document.getLast? = some '\n') :
    ∀ i < document.length, ¬ OccursAt (document ++ (kubeSeparator ++ "\n").toList ++ rest)
      (kubeSeparator ++ "\n").toList i := by
  intro i hi hoccurs
  unfold OccursAt at hoccurs
  rw [List.append_assoc, List.drop_append_of_le_length hi.le] at hoccurs
  have hcases := List.prefix_or_prefix_of_prefix hoccurs (List.prefix_append (document.drop i) _)
  have hdrop : document.drop i <:+: document := (List.drop_suffix i document).isInfix
  rcases hcases with hwhole | hpart
  · exact not_separator_infix hinline (hwhole.isInfix.trans hdrop)
  · have hend : (document.drop i).getLast? = some '\n' := by
      rw [List.getLast?_drop, if_neg (by omega), hline]
    obtain ⟨hsep, hnone, -⟩ := separator_eq
    rw [hsep, List.prefix_concat_iff] at hpart
    rcases hpart with hsame | hfront
    · refine not_separator_infix hinline ?_
      rw [hsep, ← hsame]
      exact hdrop
    · exact hnone (hfront.subset (List.mem_of_getLast? hend))

theorem inline_of_readItem {readDouble : String → String} {output : String} {item : Item}
    (h : readItem readDouble output = some item) : Json.Inline output.toList := by
  obtain ⟨json, hjson, -⟩ := Option.bind_eq_some_iff.mp h
  exact Json.inline_of_decode hjson

theorem inline_of_parseItems {readDouble : String → String} {output : String} {items : List Item}
    (h : parseItems readDouble output = some items) : Json.Inline output.toList := by
  obtain ⟨item, hitem, -⟩ := Option.bind_eq_some_iff.mp h
  exact inline_of_readItem hitem

variable {readDouble : String → String} {itemText podsText eventsText servicesText : String} {said : DetailItems}

theorem DetailPrinted.split (h : DetailPrinted readDouble itemText podsText eventsText servicesText said) :
    splitText (kubeSeparator ++ "\n") (detailOutput itemText podsText eventsText servicesText) =
      [itemText, podsText, eventsText, servicesText] := by
  have hneedle : (kubeSeparator ++ "\n").toList ≠ [] := by decide
  have hline : ∀ document ∈ [itemText, podsText, eventsText, servicesText],
      document.toList.getLast? = some '\n' := by
    intro document hmem
    obtain ⟨text, rfl⟩ := h.lines document hmem
    rw [String.toList_append]
    exact List.getLast?_concat
  have hlast := cutAt_eq_singleton (not_occursAt (inline_of_parseItems h.services))
  have hcut : ∀ {document : String} {rest : List Char}, Json.Inline document.toList →
      document.toList.getLast? = some '\n' →
      cutAt (kubeSeparator ++ "\n").toList 0 (document.toList ++ ((kubeSeparator ++ "\n").toList ++ rest)) =
        document.toList :: cutAt (kubeSeparator ++ "\n").toList 0 rest := by
    intro document rest hinline hend
    rw [← List.append_assoc]
    exact cutAt_append hneedle rest (not_occursAt_before hinline hend)
  unfold splitText detailOutput
  generalize kubeSeparator ++ "\n" = separator at hcut hlast ⊢
  simp only [String.intercalate_cons_cons, String.intercalate_singleton, String.toList_append, List.append_assoc]
  rw [hcut (inline_of_readItem h.item) (hline _ (by simp)), hcut (inline_of_parseItems h.pods) (hline _ (by simp)),
    hcut (inline_of_parseItems h.events) (hline _ (by simp)),
    hlast]
  simp

theorem filterAuxM_eq {α : Type} {p : α → Option Bool} {q : α → Bool} : ∀ {l kept : List α},
    (∀ a ∈ l, p a = some (q a)) → l.filterAuxM p kept = some ((l.filter q).reverse ++ kept)
  | [], _, _ => rfl
  | a :: l, kept, h => by
    rw [List.filterAuxM, h a List.mem_cons_self, List.filter_cons]
    refine (filterAuxM_eq fun b hb => h b (List.mem_cons_of_mem a hb)).trans ?_
    cases q a <;> simp

theorem filterM_eq_filter {α : Type} {p : α → Option Bool} {q : α → Bool} {l : List α}
    (h : ∀ a ∈ l, p a = some (q a)) : l.filterM p = some (l.filter q) := by
  rw [List.filterM, filterAuxM_eq h]
  simp

def labelFits (labels : JsonMap) (entry : String × Json) : Bool :=
  match entry.2, Json.get labels entry.1 with
  | .string value, .string label => value == label
  | _, _ => false

theorem selectsLabels_eq (labels : JsonMap) {selector : JsonMap} {service : Item}
    (h : mapField service "spec.selector" = some selector) :
    ∃ selected, selectsLabels labels service = some selected ∧ (selected = true ↔ Selected labels service) := by
  refine ⟨_, by rw [selectsLabels, h]; rfl, ?_⟩
  have hentry : ∀ entry : String × Json, labelFits labels entry = true ↔
      ∃ value, entry.2 = .string value ∧ Json.get labels entry.1 = .string value := by
    intro entry
    unfold labelFits
    split
    next value label hvalue hlabel =>
      rw [hvalue, hlabel, beq_iff_eq]
      constructor
      · rintro rfl
        exact ⟨value, rfl, rfl⟩
      · rintro ⟨_, ⟨⟩, ⟨⟩⟩
        rfl
    next hother =>
      simp only [Bool.false_eq_true, false_iff]
      rintro ⟨value, hvalue, hlabel⟩
      exact hother value value hvalue hlabel
  simp only [Bool.and_eq_true, Bool.not_eq_true', List.isEmpty_eq_false_iff, List.all_eq_true]
  constructor
  · rintro ⟨hne, hall⟩
    exact ⟨selector, h, hne, fun entry hmem => (hentry entry).mp (hall entry hmem)⟩
  · rintro ⟨selector', hselector, hne, hall⟩
    cases h.symm.trans hselector
    exact ⟨hne, fun entry hmem => (hentry entry).mpr (hall entry hmem)⟩

variable {kind : KubeKind}

theorem DetailPrinted.splitDetail_eq (h : DetailPrinted readDouble itemText podsText eventsText servicesText said)
    {labels : JsonMap} (hlabels : TemplateLabels kind said.item labels)
    (hselectors : ∀ service ∈ said.services, ∃ selector, mapField service "spec.selector" = some selector) :
    ∃ p : Item → Bool, (∀ service ∈ said.services, p service = true ↔ Selected labels service) ∧
      splitDetail readDouble (detailOutput itemText podsText eventsText servicesText) =
        some { said with services := said.services.filter p } := by
  refine ⟨fun service => (selectsLabels labels service).getD false, fun service hmem => ?_, ?_⟩
  · obtain ⟨selector, hselector⟩ := hselectors service hmem
    obtain ⟨selected, hselected, hiff⟩ := selectsLabels_eq labels hselector
    show (selectsLabels labels service).getD false = true ↔ Selected labels service
    rw [hselected]
    exact hiff
  · have hfilter : said.services.filterM (selectsLabels labels) =
        some (said.services.filter fun service => (selectsLabels labels service).getD false) := by
      refine filterM_eq_filter fun service hmem => ?_
      obtain ⟨selector, hselector⟩ := hselectors service hmem
      obtain ⟨selected, hselected, -⟩ := selectsLabels_eq labels hselector
      rw [hselected]
      rfl
    have htemplate : ∃ template jobTemplate, mapField said.item "spec.template.metadata.labels" = some template ∧
        mapField said.item "spec.jobTemplate.spec.template.metadata.labels" = some jobTemplate ∧
        jobTemplate ++ template = labels := by
      unfold TemplateLabels at hlabels
      split at hlabels
      · exact ⟨[], labels, hlabels.2, hlabels.1, List.append_nil _⟩
      · exact ⟨labels, [], hlabels.1, hlabels.2, List.nil_append _⟩
    obtain ⟨template, jobTemplate, hown, hjob, rfl⟩ := htemplate
    unfold splitDetail
    rw [h.split]
    simp [h.item, h.pods, h.events, h.services, hown, hjob, hfilter]

variable {sort : (Item → Item → Ordering) → List Item → List Item}

theorem Sorts.by_key {β : Type} [LinearOrder β] (hsort : Sorts sort) {compare : Item → Item → Ordering} (key : Item → β)
    (hlt : ∀ a b, compare a b = .lt ↔ key a < key b) (hgt : ∀ a b, compare a b = .gt ↔ key b < key a)
    (items : List Item) :
    (sort compare items).Perm items ∧ (sort compare items).Pairwise fun a b => key a ≤ key b := by
  have hweak : StrictWeakOn (· ∈ items) fun a b => compare a b = .lt := by
    refine StrictWeakOn.of_below_or_below (fun a b _ _ hab => ?_) fun a b c _ _ _ hac => ?_
    · rw [hlt] at hab ⊢
      exact lt_asymm hab
    · rw [hlt] at hac
      rw [hlt, hlt]
      rcases lt_or_ge (key a) (key b) with hab | hba
      · exact .inl hab
      · exact .inr (hba.trans_lt hac)
  obtain ⟨hperm, hpairs⟩ := hsort compare items hweak fun a _ b _ => by rw [hlt, hgt]
  refine ⟨hperm, hpairs.imp fun {a b} hne => ?_⟩
  rw [Ne, hgt] at hne
  exact not_lt.mp hne

theorem Sorts.newest (hsort : Sorts sort) (events : List Item) :
    (sort (fun a b => compareTexts (eventStamp b) (eventStamp a)) events).Perm events ∧
      (sort (fun a b => compareTexts (eventStamp b) (eventStamp a)) events).Pairwise fun a b =>
        units (eventStamp b) ≤ units (eventStamp a) :=
  hsort.by_key (fun event => OrderDual.toDual (units (eventStamp event))) (fun _ _ => compareTexts_eq_lt)
    (fun _ _ => compareTexts_eq_gt) events

theorem pairwise_or {α : Type} {R : α → α → Prop} {l : List α} (h : l.Pairwise R) {a b : α} (ha : a ∈ l) (hb : b ∈ l)
    (hne : a ≠ b) : R a b ∨ R b a := by
  induction h with
  | nil => cases ha
  | cons hfirst _ ih =>
    rcases List.mem_cons.mp ha with hafirst | harest
    · rcases List.mem_cons.mp hb with hbfirst | hbrest
      · exact absurd (hafirst.trans hbfirst.symm) hne
      · exact .inl (hafirst ▸ hfirst b hbrest)
    · rcases List.mem_cons.mp hb with hbfirst | hbrest
      · exact .inr (hbfirst ▸ hfirst a harest)
      · exact ih harest hbrest

theorem newestFirst_iff {events shown : List Item} (hperm : shown.Perm events)
    (hsorted : shown.Pairwise fun a b => units (eventStamp b) ≤ units (eventStamp a)) :
    NewestFirst shown ↔ ¬ MixedStamps events := by
  constructor
  · rintro hnewest ⟨a, ha, b, hb, s, t, hs, ht, hseconds, hwhole, m, hm, hpos⟩
    -- The stamp without a fraction has the greater text, and denotes the earlier instant.
    have htext : units t.text < units s.text := by
      rw [Stamp.units_text_lt, hm, hwhole]
      exact .inr ⟨hseconds.symm, trivial⟩
    have hinstant : s.instant < t.instant := by
      rw [Stamp.instant, Stamp.instant, hseconds, hm, hwhole, Option.getD_none, Option.getD_some]
      omega
    have hne : a ≠ b := by
      rintro rfl
      rw [← hs, ← ht] at htext
      exact lt_irrefl _ htext
    rcases pairwise_or (hnewest.and hsorted) (hperm.mem_iff.mpr ha) (hperm.mem_iff.mpr hb) hne with hab | hba
    · exact absurd (hab.1 s t hs ht) (not_le.mpr hinstant)
    · refine absurd hba.2 (not_le.mpr ?_)
      rw [hs, ht]
      exact htext
  · intro hmixed
    refine List.Pairwise.imp_of_mem (fun {a b} ha hb hle s t hs ht => ?_) hsorted
    rw [hs, ht, ← not_lt, Stamp.units_text_lt] at hle
    by_contra hlater
    rw [not_le] at hlater
    refine hle ?_
    unfold Stamp.instant at hlater
    have hsmicros := s.micros_lt
    have htmicros := t.micros_lt
    have hawhole : s.micros = none → ∀ m, t.micros = some m → s.seconds = t.seconds → m = 0 := by
      intro hnone m hm hseconds
      by_contra hne
      exact hmixed ⟨a, hperm.mem_iff.mp ha, b, hperm.mem_iff.mp hb, s, t, hs, ht, hseconds, hnone, m, hm,
        Nat.pos_of_ne_zero hne⟩
    cases hsm : s.micros with
    | none =>
      cases htm : t.micros with
      | none =>
        rw [hsm, htm] at hlater
        exact .inl (by simpa using hlater)
      | some m =>
        have hzero := hawhole hsm m htm
        rw [hsm, htm, Option.getD_none, Option.getD_some] at hlater
        have hm := htmicros m htm
        exact .inl (by omega)
    | some m =>
      have hm := hsmicros m hsm
      cases htm : t.micros with
      | none =>
        rw [hsm, htm, Option.getD_none, Option.getD_some] at hlater
        exact .inl (by omega)
      | some m' =>
        have hm' := htmicros m' htm
        rw [hsm, htm, Option.getD_some, Option.getD_some] at hlater
        show _ ∨ _ ∧ m < m'
        omega

theorem podSelector_of_matchLabels {item : Item} {pairs : List (String × String)}
    (h : field item "spec.selector" = .map [("matchLabels", .map (pairs.map fun pair => (pair.1, .string pair.2)))])
    (hne : pairs ≠ []) : podSelector item = some (some (",".intercalate (pairs.map pairText))) := by
  have hpath : splitChar '.' "spec.selector.matchLabels" = splitChar '.' "spec.selector" ++ ["matchLabels"] := by
    decide
  have hlabels : field item "spec.selector.matchLabels" = .map (pairs.map fun pair => (pair.1, .string pair.2)) := by
    unfold field at h ⊢
    rw [hpath, List.foldl_append, h]
    rfl
  have htexts : labelsText (pairs.map fun pair => (pair.1, .string pair.2)) = ",".intercalate (pairs.map pairText) := by
    unfold labelsText
    rw [List.map_map]
    rfl
  have hselector : mapField item "spec.selector" =
      some [("matchLabels", .map (pairs.map fun pair => (pair.1, .string pair.2)))] := by
    rw [mapField, h]
    rfl
  have hmatch : mapField item "spec.selector.matchLabels" = some (pairs.map fun pair => (pair.1, .string pair.2)) := by
    rw [mapField, hlabels]
    rfl
  unfold podSelector
  rw [hselector, hmatch, Option.bind_some]
  simp [hne, htexts]

theorem podsAsked {selects : String → List (String × String) → Bool} (hrequires : RequiresAll selects)
    (hkind : kind ∈ kubeKinds) (item : Item) : PodsAsked selects kind item := by
  intro ns pairs howns hns hselector hne hlegal
  have hpods := podSelector_of_matchLabels hselector hne
  have hlex := App.lex_detailCommand hkind item
  rw [hns, hpods, Option.bind_some, Option.map_some] at hlex
  obtain ⟨command, hcommand, hwords⟩ := Option.map_eq_some_iff.mp hlex
  have hnodes : kind.type ≠ "nodes" := by
    intro htype
    have hnot : ∀ kind ∈ kubeKinds, kind.type = "nodes" → kind.ownsPods = false := by decide
    exact absurd howns (by rw [hnot kind hkind htype]; decide)
  unfold App.detailTokens App.podsTokens at hwords
  rw [if_neg hnodes] at hwords
  simp only [Option.map_some, if_pos (Or.inl howns), App.itemTokens, App.nsTokens, App.separatorTokens,
    List.append_assoc, List.cons_append, List.nil_append] at hwords
  exact ⟨command, _, _, hcommand, hwords, fun labels => hrequires pairs labels hne hlegal⟩

theorem shows_iff (hsort : Sorts sort)
    (hprinted : DetailPrinted readDouble itemText podsText eventsText servicesText said)
    {labels : JsonMap} (hlabels : TemplateLabels kind said.item labels)
    (hselectors : ∀ service ∈ said.services, ∃ selector, mapField service "spec.selector" = some selector) :
    (∃ shown, parseDetail readDouble sort (detailOutput itemText podsText eventsText servicesText) = some shown ∧
      Shows labels said shown) ↔ ¬ MixedStamps said.events := by
  obtain ⟨p, hp, hsplit⟩ := hprinted.splitDetail_eq hlabels hselectors
  obtain ⟨hpods, hpodsSorted⟩ := hsort.by_key (fun pod => units (nameOf pod)) (fun _ _ => compareTexts_eq_lt)
    (fun _ _ => compareTexts_eq_gt) said.pods
  obtain ⟨hevents, heventsSorted⟩ := hsort.newest said.events
  rw [parseDetail, hsplit, Option.map_some]
  constructor
  · rintro ⟨shown, hshown, hshows⟩
    cases hshown
    exact (newestFirst_iff hevents heventsSorted).mp hshows.eventsSorted
  · intro hmixed
    exact ⟨_, rfl, rfl, hpods, hpodsSorted, hevents, (newestFirst_iff hevents heventsSorted).mpr hmixed, p, hp, rfl⟩

/-- The detail page shows what was said, and of the pods that were asked for, unless two events in one second have
stamps of both precisions. -/
theorem detail_shown_iff (hsort : Sorts sort)
    (hprinted : DetailPrinted readDouble itemText podsText eventsText servicesText said) {kind : KubeKind}
    (hkind : kind ∈ kubeKinds) {labels : JsonMap} (hlabels : TemplateLabels kind said.item labels)
    (hselectors : ∀ service ∈ said.services, ∃ selector, mapField service "spec.selector" = some selector)
    {selects : String → List (String × String) → Bool} (hrequires : RequiresAll selects) (asked : Item) :
    ((∃ shown, parseDetail readDouble sort (detailOutput itemText podsText eventsText servicesText) = some shown ∧
      Shows labels said shown) ∧ PodsAsked selects kind asked) ↔ ¬ MixedStamps said.events := by
  rw [and_iff_left (podsAsked hrequires hkind asked)]
  exact shows_iff hsort hprinted hlabels hselectors

theorem sorts_insertionSort : Sorts fun compare items => items.insertionSort fun a b => compare a b ≠ .gt := by
  intro compare items hweak hflip
  have htotal : Std.Total fun a b : {a // a ∈ items} => compare a.1 b.1 ≠ .gt := by
    refine ⟨fun a b => ?_⟩
    rw [Ne, Ne, ← not_and_or]
    rintro ⟨hab, hba⟩
    rw [← hflip b.1 b.2 a.1 a.2, hba] at hab
    cases hab
  have htrans : IsTrans {a // a ∈ items} fun a b => compare a.1 b.1 ≠ .gt := by
    refine ⟨fun a b c hab hbc hac => ?_⟩
    rw [← hflip c.1 c.2 a.1 a.2] at hac
    rcases hweak.below_or_below c.2 b.2 a.2 hac with hcb | hba
    · exact hbc ((hflip c.1 c.2 b.1 b.2).mp hcb)
    · exact hab ((hflip b.1 b.2 a.1 a.2).mp hba)
  refine ⟨List.perm_insertionSort _ _, ?_⟩
  have hsorted := List.pairwise_insertionSort (fun a b : {a // a ∈ items} => compare a.1 b.1 ≠ .gt) items.attach
  have hmap := List.map_insertionSort (r := fun a b : {a // a ∈ items} => compare a.1 b.1 ≠ .gt)
    (s := fun a b => compare a b ≠ .gt) Subtype.val items.attach fun _ _ _ _ => Iff.rfl
  rw [List.attach_map_subtype_val] at hmap
  show (items.insertionSort fun a b => compare a b ≠ .gt).Pairwise _
  rw [← hmap, List.pairwise_map]
  exact hsorted

def selectsByPairs (selector : String) (labels : List (String × String)) : Bool :=
  (splitChar ',' selector).all fun piece => match splitFirst '=' piece with
    | some (key, value) => labels.lookup key == some value
    | none => false

theorem requiresAll_selectsByPairs : RequiresAll selectsByPairs := by
  intro pairs labels hne hlegal
  have hnot : ∀ {c : Char} {text : String}, isLabelText text = true → c ∈ [',', '='] → c ∉ text.toList := by
    intro c text htext hc hmem
    have hall := List.all_eq_true.mp htext c hmem
    rcases List.mem_cons.mp hc with rfl | hc
    · exact absurd hall (by decide)
    · rw [List.mem_singleton.mp hc] at hall
      exact absurd hall (by decide)
  have hsplit : splitChar ',' (",".intercalate (pairs.map pairText)) = pairs.map pairText := by
    refine splitChar_intercalate ',' (fun piece hpiece => ?_) (by simpa using hne)
    obtain ⟨pair, hmem, rfl⟩ := List.mem_map.mp hpiece
    unfold pairText
    simp [hnot (hlegal pair hmem).1, hnot (hlegal pair hmem).2]
  have hpair : ∀ pair ∈ pairs, splitFirst '=' (pairText pair) = some pair := by
    intro pair hmem
    refine splitFirst_of_toList ?_ (hnot (hlegal pair hmem).1 (by simp))
    unfold pairText
    rw [String.toList_append, String.toList_append, List.append_assoc]
    rfl
  unfold selectsByPairs
  rw [hsplit, List.all_map, List.all_eq_true]
  refine forall₂_congr fun pair hmem => ?_
  rw [Function.comp_apply, hpair pair hmem]
  exact beq_iff_eq

def printed (item : Item) : String := Json.encode Json.indented (.map item) ++ "\n"

def listOf (items : List Item) : Item := [("items", .list (items.map .map))]

theorem readItem_printed (readDouble : String → String) {item : Item} (hplain : (Json.map item).plain = true) :
    readItem readDouble (printed item) = some item := by
  rw [readItem, printed, Json.decode_encode_append readDouble Json.indented hplain _ (List.all_eq_true.mp (by decide))]
  rfl

theorem parseItems_printed (readDouble : String → String) {items : List Item}
    (hplain : (Json.map (listOf items)).plain = true) : parseItems readDouble
    (printed (listOf items)) = some items := by
  have hitems : Json.get (listOf items) "items" = .list (items.map .map) := rfl
  rw [parseItems, readItem_printed readDouble hplain, Option.bind_some, hitems]
  show (items.map Json.map).mapM _ = some items
  rw [List.mapM_map]
  exact (List.mapM_pure (m := Option) (l := items) (f := id)).trans (congrArg some (List.map_id _))

/-- A deployment, what was printed about it, and the stamps of its two events. -/
def deploymentSaid (stamp other : String) : DetailItems where
  item := [("metadata", .map [("name", .string "api"), ("namespace", .string "web")]),
    ("spec", .map [("selector", .map [("matchLabels", .map [("app", .string "api")])]),
      ("template", .map [("metadata", .map [("labels", .map [("app", .string "api")])])])])]
  pods := [[("metadata", .map [("name", .string "api-2")])], [("metadata", .map [("name", .string "api-1")])]]
  events := [[("lastTimestamp", .string stamp), ("message", .string "---portix---\n")], [("eventTime", .string other)]]
  services := [[("spec", .map [("selector", .map [("app", .string "api")])])]]

theorem printed_deployment (stamp other : String) :
    DetailPrinted id (printed (deploymentSaid stamp other).item) (printed (listOf (deploymentSaid stamp other).pods))
      (printed (listOf (deploymentSaid stamp other).events)) (printed (listOf (deploymentSaid stamp other).services))
      (deploymentSaid stamp other) where
  item := readItem_printed id rfl
  pods := parseItems_printed id rfl
  events := parseItems_printed id rfl
  services := parseItems_printed id rfl
  lines document hmem := by
    simp only [List.mem_cons, List.not_mem_nil, or_false] at hmem
    rcases hmem with rfl | rfl | rfl | rfl <;> exact ⟨_, rfl⟩

theorem templateLabels_deployment (stamp other : String) :
    TemplateLabels { type := "deployments", ownsPods := true } (deploymentSaid stamp other).item
      [("app", .string "api")] := by
  unfold TemplateLabels
  rw [if_neg (by decide)]
  exact ⟨rfl, rfl⟩

theorem selector_deployment (stamp other : String) : ∀ service ∈ (deploymentSaid stamp other).services,
    ∃ selector, mapField service "spec.selector" = some selector := by
  intro service hmem
  rw [List.mem_singleton.mp hmem]
  exact ⟨[("app", .string "api")], rfl⟩

/-- Whole seconds are in order. -/
theorem detail_shown_whole :
    (∃ shown, parseDetail id (fun compare items => items.insertionSort fun a b => compare a b ≠ .gt)
      (detailOutput (printed (deploymentSaid "2024-05-01T10:00:05Z" "2024-05-01T10:00:06Z").item)
        (printed (listOf (deploymentSaid "2024-05-01T10:00:05Z" "2024-05-01T10:00:06Z").pods))
        (printed (listOf (deploymentSaid "2024-05-01T10:00:05Z" "2024-05-01T10:00:06Z").events))
        (printed (listOf (deploymentSaid "2024-05-01T10:00:05Z" "2024-05-01T10:00:06Z").services))) = some shown ∧
      Shows [("app", .string "api")] (deploymentSaid "2024-05-01T10:00:05Z" "2024-05-01T10:00:06Z") shown) ∧
    PodsAsked selectsByPairs { type := "deployments", ownsPods := true }
      (deploymentSaid "2024-05-01T10:00:05Z" "2024-05-01T10:00:06Z").item := by
  refine (detail_shown_iff sorts_insertionSort (printed_deployment _ _) (by decide) (templateLabels_deployment _ _)
    (selector_deployment _ _) requiresAll_selectsByPairs _).mpr ?_
  rintro ⟨a, -, b, hb, s, t, -, ht, -, -, m, hm, -⟩
  have hdot : '.' ∈ t.text.toList := by simp [Stamp.text, Stamp.zoneChars, hm]
  rw [← ht] at hdot
  simp only [deploymentSaid, List.mem_cons, List.not_mem_nil, or_false] at hb
  rcases hb with rfl | rfl
  · exact absurd hdot (by decide)
  · exact absurd hdot (by decide)

def fivePast (micros : Option Nat) (h : ∀ m ∈ micros, m < 1000000) : Stamp where
  year := 2024
  month := 5
  day := 1
  hour := 10
  minute := 0
  second := 5
  micros := micros
  year_lt := by decide
  month_pos := by decide
  month_le := by decide
  day_pos := by decide
  day_le := by decide
  hour_lt := by decide
  minute_lt := by decide
  second_lt := by decide
  micros_lt := h

/-- The event of the whole second is shown first, and is half a second older. -/
theorem detail_out_of_order :
    ¬ ∃ shown, parseDetail id (fun compare items => items.insertionSort fun a b => compare a b ≠ .gt)
      (detailOutput (printed (deploymentSaid "2024-05-01T10:00:05Z" "2024-05-01T10:00:05.500000Z").item)
        (printed (listOf (deploymentSaid "2024-05-01T10:00:05Z" "2024-05-01T10:00:05.500000Z").pods))
        (printed (listOf (deploymentSaid "2024-05-01T10:00:05Z" "2024-05-01T10:00:05.500000Z").events))
        (printed (listOf (deploymentSaid "2024-05-01T10:00:05Z" "2024-05-01T10:00:05.500000Z").services))) =
          some shown ∧
      Shows [("app", .string "api")] (deploymentSaid "2024-05-01T10:00:05Z" "2024-05-01T10:00:05.500000Z") shown := by
  rw [shows_iff sorts_insertionSort (printed_deployment _ _) (templateLabels_deployment _ _) (selector_deployment _ _),
    not_not]
  exact ⟨_, List.mem_cons_self, _, List.mem_cons_of_mem _ List.mem_cons_self, fivePast none (by decide),
    fivePast (some 500000) (by decide), by decide, by decide, rfl, rfl, 500000, rfl, by decide⟩

end Portix.Kubernetes
