import Portix.Kubernetes.ResourceTable

/-!
# When a table is sorted by an order

Numbers of one type are compared by value and everything else by text, so the comparison is an order if and only if the
texts do not contradict the values.
-/

namespace Portix.Kubernetes

open Lib

variable {D V : Type} [LinearOrder V] {doubles : Doubles D V} {toLowerCase : String → String} {s t : String}

theorem compareTexts_eq_lt : compareTexts s t = .lt ↔ units s < units t := by
  unfold compareTexts
  split
  case isTrue hlt => exact iff_of_true rfl hlt
  case isFalse hge => split <;> exact iff_of_false nofun hge

theorem compareTexts_eq_gt : compareTexts s t = .gt ↔ units t < units s := by
  unfold compareTexts
  split
  case isTrue hlt => exact iff_of_false nofun (lt_asymm hlt)
  case isFalse =>
    split
    case isTrue hlt => exact iff_of_true rfl hlt
    case isFalse hge => exact iff_of_false nofun hge

namespace SortKey

def place (doubles : Doubles D V) (k : SortKey D) : List Nat := units (k.shown doubles)

def Less (doubles : Doubles D V) : SortKey D → SortKey D → Prop
  | .number x, .number y =>
    if x.isInt = y.isInt then x.rank doubles < y.rank doubles else units (x.text doubles) < units (y.text doubles)
  | k, k' => k.place doubles < k'.place doubles

theorem compareTo_eq_lt (k k' : SortKey D) : k.compareTo doubles k' = .lt ↔ k.Less doubles k' := by
  match k, k' with
  | .number (.int m), .number (.int n) => exact (cmp_eq_lt_iff m.toInt n.toInt).trans (doubles.rankInt_lt m n).symm
  | .number (.double x), .number (.double y) => exact cmp_eq_lt_iff (doubles.rank x) (doubles.rank y)
  | .number (.int _), .number (.double _) => exact compareTexts_eq_lt
  | .number (.double _), .number (.int _) => exact compareTexts_eq_lt
  | .number (.int _), .text _ => exact compareTexts_eq_lt
  | .number (.double _), .text _ => exact compareTexts_eq_lt
  | .text _, .number _ => exact compareTexts_eq_lt
  | .text _, .text _ => exact compareTexts_eq_lt

theorem compareTo_eq_gt (k k' : SortKey D) : k.compareTo doubles k' = .gt ↔ k'.Less doubles k := by
  match k, k' with
  | .number (.int m), .number (.int n) => exact (cmp_eq_gt_iff m.toInt n.toInt).trans (doubles.rankInt_lt n m).symm
  | .number (.double x), .number (.double y) => exact cmp_eq_gt_iff (doubles.rank x) (doubles.rank y)
  | .number (.int _), .number (.double _) => exact compareTexts_eq_gt
  | .number (.double _), .number (.int _) => exact compareTexts_eq_gt
  | .number (.int _), .text _ => exact compareTexts_eq_gt
  | .number (.double _), .text _ => exact compareTexts_eq_gt
  | .text _, .number _ => exact compareTexts_eq_gt
  | .text _, .text _ => exact compareTexts_eq_gt

end SortKey

variable {x y z : DartNum D}

theorem DartNum.text_eq (hkind : x.isInt = y.isInt) (hrank : x.rank doubles = y.rank doubles) :
    x.text doubles = y.text doubles := by
  match x, y with
  | .double d, .double e => exact doubles.text_eq d e hrank
  | .int m, .int n =>
    have hsame : doubles.rankInt m = doubles.rankInt n := hrank
    have hle : ¬ m.toInt < n.toInt := fun hlt => ((doubles.rankInt_lt m n).mpr hlt).ne hsame
    have hge : ¬ n.toInt < m.toInt := fun hlt => ((doubles.rankInt_lt n m).mpr hlt).ne hsame.symm
    exact congrArg toString (le_antisymm (not_lt.mp hge) (not_lt.mp hle))
  | .int _, .double _ => cases hkind
  | .double _, .int _ => cases hkind

section Keys

variable {K : SortKey D → Prop}

/-- `TextsAgree`, of some keys. -/
structure KeysAgree (doubles : Doubles D V) (K : SortKey D → Prop) : Prop where
  mixed : ∀ x y, K (.number x) → K (.number y) → x.isInt ≠ y.isInt → x.rank doubles < y.rank doubles →
    units (x.text doubles) < units (y.text doubles)
  between : ∀ x y s, K (.number x) → K (.number y) → K (.text s) → x.isInt = y.isInt →
    x.rank doubles < y.rank doubles → ¬ (units (y.text doubles) ≤ units s ∧ units s ≤ units (x.text doubles))

theorem SortKey.less_number (x y : DartNum D) : SortKey.Less doubles (.number x) (.number y) ↔
      if x.isInt = y.isInt then x.rank doubles < y.rank doubles
      else units (x.text doubles) < units (y.text doubles) := Iff.rfl

theorem SortKey.less_text_right (k : SortKey D) (s : String) :
    k.Less doubles (.text s) ↔ k.place doubles < units s := by
  cases k <;> exact Iff.rfl

theorem SortKey.less_text_left (s : String) (k : SortKey D) :
    SortKey.Less doubles (.text s) k ↔ units s < k.place doubles := by
  cases k <;> exact Iff.rfl

theorem SortKey.Less.asymm {k k' : SortKey D} (h : k.Less doubles k') : ¬ k'.Less doubles k := by
  match k, k' with
  | .number x, .number y =>
    rw [SortKey.less_number] at h ⊢
    split at h
    case isTrue hkind =>
      rw [if_pos hkind.symm]
      exact lt_asymm h
    case isFalse hkind =>
      rw [if_neg (Ne.symm hkind)]
      exact lt_asymm h
  | .number _, .text _ => exact lt_asymm h
  | .text _, .number _ => exact lt_asymm h
  | .text _, .text _ => exact lt_asymm h

theorem KeysAgree.numbers (h : KeysAgree doubles K) (hx : K (.number x)) (hy : K (.number y))
    (hz : K (.number z)) (hless : SortKey.Less doubles (.number x) (.number z)) :
    SortKey.Less doubles (.number x) (.number y) ∨ SortKey.Less doubles (.number y) (.number z) := by
  rw [SortKey.less_number] at hless ⊢
  rw [SortKey.less_number]
  by_cases hxz : x.isInt = z.isInt
  · rw [if_pos hxz] at hless
    by_cases hxy : x.isInt = y.isInt
    · rw [if_pos hxy, if_pos (hxy.symm.trans hxz)]
      exact (lt_or_ge _ _).imp_right fun hge => hge.trans_lt hless
    · rw [if_neg hxy, if_neg fun hyz => hxy (hxz.trans hyz.symm)]
      rcases lt_or_ge (x.rank doubles) (y.rank doubles) with hlt | hge
      · exact .inl (h.mixed x y hx hy hxy hlt)
      · exact .inr (h.mixed y z hy hz (fun hyz => hxy (hxz.trans hyz.symm)) (hge.trans_lt hless))
  · rw [if_neg hxz] at hless
    -- A text before another has no greater value.
    have hrank : x.rank doubles ≤ z.rank doubles := by
      by_contra hgt
      exact lt_asymm hless (h.mixed z x hz hx (Ne.symm hxz) (not_le.mp hgt))
    by_cases hxy : x.isInt = y.isInt
    · have hyz : y.isInt ≠ z.isInt := fun heq => hxz (hxy.trans heq)
      rw [if_pos hxy, if_neg hyz]
      rcases lt_trichotomy (x.rank doubles) (y.rank doubles) with hlt | heq | hgt
      · exact .inl hlt
      · exact .inr (DartNum.text_eq hxy heq ▸ hless)
      · exact .inr (h.mixed y z hy hz hyz (hgt.trans_le hrank))
    · have hyz : y.isInt = z.isInt := by
        cases hx' : x.isInt <;> cases hy' : y.isInt <;> cases hz' : z.isInt <;> simp_all
      rw [if_neg hxy, if_pos hyz]
      rcases lt_trichotomy (y.rank doubles) (z.rank doubles) with hlt | heq | hgt
      · exact .inr hlt
      · exact .inl (DartNum.text_eq hyz heq ▸ hless)
      · exact .inl (h.mixed x y hx hy hxy (hrank.trans_lt hgt))

theorem KeysAgree.text_number (h : KeysAgree doubles K) (hs : K (.text s))
    (hy : K (.number y)) (hz : K (.number z)) (hless : units s < units (z.text doubles)) :
    units s < units (y.text doubles) ∨ SortKey.Less doubles (.number y) (.number z) := by
  rw [SortKey.less_number]
  by_cases hyz : y.isInt = z.isInt
  · rw [if_pos hyz]
    rcases lt_trichotomy (y.rank doubles) (z.rank doubles) with hlt | heq | hgt
    · exact .inr hlt
    · exact .inl (DartNum.text_eq hyz heq ▸ hless)
    · refine .inl ?_
      by_contra hge
      exact h.between z y s hz hy hs hyz.symm hgt ⟨not_lt.mp hge, le_of_lt hless⟩
  · rw [if_neg hyz]
    exact (lt_or_ge _ _).imp_right fun hge => hge.trans_lt hless

theorem KeysAgree.number_text (h : KeysAgree doubles K) (hs : K (.text s))
    (hx : K (.number x)) (hy : K (.number y)) (hless : units (x.text doubles) < units s) :
    SortKey.Less doubles (.number x) (.number y) ∨ units (y.text doubles) < units s := by
  rw [SortKey.less_number]
  by_cases hxy : x.isInt = y.isInt
  · rw [if_pos hxy]
    rcases lt_trichotomy (x.rank doubles) (y.rank doubles) with hlt | heq | hgt
    · exact .inl hlt
    · exact .inr (DartNum.text_eq hxy heq ▸ hless)
    · refine .inr ?_
      by_contra hge
      exact h.between y x s hy hx hs hxy.symm hgt ⟨le_of_lt hless, not_lt.mp hge⟩
  · rw [if_neg hxy]
    exact (lt_or_ge _ _).imp_right fun hge => hge.trans_lt hless

theorem KeysAgree.below_or_below (h : KeysAgree doubles K) {a b c : SortKey D} (ha : K a) (hb : K b) (hc : K c)
    (hless : a.Less doubles c) : a.Less doubles b ∨ b.Less doubles c := by
  cases a with
  | number x =>
    cases c with
    | number z =>
      cases b with
      | number y => exact h.numbers ha hb hc hless
      | text s =>
        rw [SortKey.less_text_right, SortKey.less_text_left]
        rw [SortKey.less_number] at hless
        split at hless
        case isTrue hkind =>
          by_contra hneither
          rw [not_or, not_lt, not_lt] at hneither
          exact h.between x z s ha hc hb hkind hless ⟨hneither.2, hneither.1⟩
        case isFalse => exact (lt_or_ge _ _).imp_right fun hge => hge.trans_lt hless
    | text t =>
      cases b with
      | number y => exact h.number_text hc ha hb hless
      | text s => exact (lt_or_ge _ _).imp_right fun hge => hge.trans_lt hless
  | text t =>
    cases c with
    | number z =>
      cases b with
      | number y => exact h.text_number ha hb hc hless
      | text s => exact (lt_or_ge _ _).imp_right fun hge => hge.trans_lt hless
    | text u => cases b <;> exact (lt_or_ge _ _).imp_right fun hge => hge.trans_lt hless

end Keys

section Items

variable {column : KubeColumn} {items : List Item} {a b : Item}

/-- The items in the order of their keys; an age is in the other order. -/
def SortsBefore (doubles : Doubles D V) (toLowerCase : String → String) (column : KubeColumn) (a b : Item) : Prop :=
  if column.isAge then (column.sortKey doubles toLowerCase b).Less doubles (column.sortKey doubles toLowerCase a)
  else (column.sortKey doubles toLowerCase a).Less doubles (column.sortKey doubles toLowerCase b)

theorem compareItems_eq_lt :
    column.compareItems doubles toLowerCase a b = .lt ↔ SortsBefore doubles toLowerCase column a b := by
  unfold KubeColumn.compareItems SortsBefore
  split
  · rw [Ordering.swap_eq_lt, SortKey.compareTo_eq_gt]
  · exact SortKey.compareTo_eq_lt _ _

theorem compareItems_eq_gt :
    column.compareItems doubles toLowerCase a b = .gt ↔ SortsBefore doubles toLowerCase column b a := by
  unfold KubeColumn.compareItems SortsBefore
  split
  · rw [Ordering.swap_eq_gt, SortKey.compareTo_eq_lt]
  · exact SortKey.compareTo_eq_gt _ _

theorem compareShown_eq_lt {ascending : Bool} : column.compareShown doubles toLowerCase ascending a b = .lt ↔
      if ascending then SortsBefore doubles toLowerCase column a b else SortsBefore doubles toLowerCase column b a := by
  cases ascending <;> exact compareItems_eq_lt

theorem not_isAge_of_number {n : DartNum D} (h : column.sortKey doubles toLowerCase a = .number n) :
    column.isAge = false := by
  by_contra hage
  rw [Bool.not_eq_false] at hage
  simp [KubeColumn.sortKey, hage] at h

theorem TextsAgree.keysAgree (h : TextsAgree doubles toLowerCase column items) :
    KeysAgree doubles fun k => ∃ a ∈ items, column.sortKey doubles toLowerCase a = k where
  mixed := by
    rintro x y ⟨a, ha, hkeyA⟩ ⟨b, hb, hkeyB⟩
    exact h.mixed a ha b hb x y hkeyA hkeyB
  between := by
    rintro x y s ⟨a, ha, hkeyA⟩ ⟨b, hb, hkeyB⟩ ⟨c, hc, hkeyC⟩
    exact h.between a ha b hb c hc x y s hkeyA hkeyB hkeyC

theorem TextsAgree.precedes (h : TextsAgree doubles toLowerCase column items) :
    StrictWeakOn (· ∈ items) (SortsBefore doubles toLowerCase column) := by
  have hless : StrictWeakOn (· ∈ items) fun a b =>
      (column.sortKey doubles toLowerCase a).Less doubles (column.sortKey doubles toLowerCase b) :=
    .of_below_or_below (fun _ _ _ _ hlt => hlt.asymm)
      fun a b c ha hb hc hlt => h.keysAgree.below_or_below ⟨a, ha, rfl⟩ ⟨b, hb, rfl⟩ ⟨c, hc, rfl⟩ hlt
  cases hage : column.isAge with
  | false => exact hless.congr fun a b => by simp only [SortsBefore, hage, Bool.false_eq_true, if_false]
  | true => exact hless.flip.congr fun a b => by simp only [SortsBefore, hage, if_true]

theorem TextsAgree.realOrder (h : TextsAgree doubles toLowerCase column items) :
    RealOrder doubles toLowerCase column items where
  weak ascending := by
    cases ascending with
    | true => exact h.precedes.congr fun a b => compareShown_eq_lt
    | false => exact h.precedes.flip.congr fun a b => compareShown_eq_lt
  signs ascending a _ b _ := by
    cases ascending with
    | true => exact compareItems_eq_lt.trans compareItems_eq_gt.symm
    | false => exact compareItems_eq_lt.trans compareItems_eq_gt.symm
  byValue a ha b hb x y hx hy hrank := by
    refine compareShown_eq_lt.mpr ?_
    simp only [if_true, SortsBefore, not_isAge_of_number hx, Bool.false_eq_true, if_false, hx, hy, SortKey.less_number]
    split
    case isTrue => exact hrank
    case isFalse hkind => exact h.mixed a ha b hb x y hx hy hkind hrank
  converse _ _ _ _ := rfl

theorem RealOrder.textsAgree (h : RealOrder doubles toLowerCase column items) :
    TextsAgree doubles toLowerCase column items where
  mixed a ha b hb x y hx hy hkind hrank := by
    have hlt := compareShown_eq_lt.mp (h.byValue a ha b hb x y hx hy hrank)
    simpa only [if_true, SortsBefore, not_isAge_of_number hx, Bool.false_eq_true, if_false, hx, hy, SortKey.less_number,
      if_neg hkind] using hlt
  between a ha b hb c hc x y s hx hy hs hkind hrank := by
    rintro ⟨hlow, hhigh⟩
    have hless := h.byValue a ha b hb x y hx hy hrank
    rcases (h.weak true).below_or_below ha hc hb hless with hlt | hlt
    · have hbelow := compareShown_eq_lt.mp hlt
      simp only [if_true, SortsBefore, not_isAge_of_number hx, Bool.false_eq_true, if_false, hx, hs,
        SortKey.less_text_right] at hbelow
      exact absurd hbelow (not_lt.mpr hhigh)
    · have habove := compareShown_eq_lt.mp hlt
      simp only [if_true, SortsBefore, not_isAge_of_number hx, Bool.false_eq_true, if_false, hy, hs,
        SortKey.less_text_left] at habove
      exact absurd habove (not_lt.mpr hlow)

end Items

theorem matching_eq_filter {page : ResourceTable} {columns : List KubeColumn} {items rows : List Item}
    (h : page.matching toLowerCase columns items = some rows) :
    rows = items.filter fun item => page.matchesSearch toLowerCase columns item = some true := by
  induction items generalizing rows with
  | nil => exact (Option.some.inj h).symm
  | cons item items ih =>
    simp only [ResourceTable.matching] at h
    cases hmatched : page.matchesSearch toLowerCase columns item with
    | none => simp [hmatched] at h
    | some matched =>
      rw [hmatched] at h
      obtain ⟨rest, hrest, rfl⟩ := Option.map_eq_some_iff.mp h
      rw [ih hrest]
      cases matched <;> simp [hmatched]

/-- The rows are those that match, and the comparison that they are sorted by is an order if and only if the texts of
the numbers do not contradict their values. -/
theorem table_sorted_iff (doubles : Doubles D V) (toLowerCase : String → String)
    (sort : (Item → Item → Ordering) → List Item → List Item)
    (hsort : ∀ compare items, (sort compare items).Perm items) :
    (∀ (page : ResourceTable) columns rows, page.shown doubles toLowerCase sort columns = some rows →
      rows.Perm (page.items.filter fun item => page.matchesSearch toLowerCase columns item = some true)) ∧
    ∀ column items, RealOrder doubles toLowerCase column items ↔ TextsAgree doubles toLowerCase column items := by
  refine ⟨fun page columns rows hshown => ?_, fun column items => ⟨RealOrder.textsAgree, TextsAgree.realOrder⟩⟩
  obtain ⟨matched, hmatched, rfl⟩ := Option.map_eq_some_iff.mp hshown
  rw [← matching_eq_filter hmatched]
  split
  · exact hsort _ _
  · exact .refl _

def noDecimals : Doubles Empty Int where
  tryParse _ := none
  text := Empty.elim
  rank := Empty.elim
  rankInt := Int64.toInt
  rankInt_lt _ _ := Iff.rfl
  text_eq x := x.elim

def cpuColumn : KubeColumn where
  header := "CPU"
  cell item := strField item "status.allocatable.cpu"

def nodeWith (cpu : String) : Item := [("status", .map [("allocatable", .map [("cpu", .string cpu)])])]

def tenths : Doubles Int Int where
  tryParse s := if s = "1.5" then some 15 else none
  text d := if d = 15 then "1.5" else toString d
  rank := id
  rankInt n := 10 * n.toInt
  rankInt_lt m n := by omega
  text_eq x y h := (show x = y from h) ▸ rfl

def mixedCells : List Item := [nodeWith "2", nodeWith "10", nodeWith "1.5", nodeWith "n/a"]

/-- 1.5 is before 2, which is before 10, and a text comes after them. -/
theorem table_sorted_mixed : RealOrder tenths id cpuColumn mixedCells := by
  have hkeys : mixedCells.map (cpuColumn.sortKey tenths id) =
      [.number (.int 2), .number (.int 10), .number (.double 15), .text "n/a"] := by rfl
  have hmem : ∀ c ∈ mixedCells, cpuColumn.sortKey tenths id c ∈
      [SortKey.number (.int 2), .number (.int 10), .number (.double 15), .text "n/a"] :=
    fun c hc => hkeys ▸ List.mem_map_of_mem hc
  have hnumber : ∀ c ∈ mixedCells, ∀ x, cpuColumn.sortKey tenths id c = .number x →
      x = .int 2 ∨ x = .int 10 ∨ x = .double 15 := by
    intro c hc x hx
    simpa [hx] using hmem c hc
  refine ((table_sorted_iff tenths id (fun compare items => items.mergeSort fun a b => compare a b != .gt)
    fun _ items => List.mergeSort_perm items _).2 cpuColumn _).mpr ⟨?_, ?_⟩
  · intro a ha b hb x y hx hy
    rcases hnumber a ha x hx with rfl | rfl | rfl <;> rcases hnumber b hb y hy with rfl | rfl | rfl <;> decide
  · intro a ha b hb c hc x y s hx hy hs
    obtain rfl : s = "n/a" := by simpa [hs] using hmem c hc
    rcases hnumber a ha x hx with rfl | rfl | rfl <;> rcases hnumber b hb y hy with rfl | rfl | rfl <;> decide

/-- 9 is before 10, which is before 1500m, which is before 9. -/
theorem table_goes_round : ¬ RealOrder noDecimals id cpuColumn [nodeWith "9", nodeWith "10", nodeWith "1500m"] := by
  intro h
  have hup : cpuColumn.compareShown noDecimals id true (nodeWith "9") (nodeWith "1500m") = .lt :=
    (h.weak true).trans (nodeWith "9") (nodeWith "10") (nodeWith "1500m") (by simp) (by simp) (by simp)
      (by decide) (by decide)
  exact absurd hup (by decide)

end Portix.Kubernetes
