import Portix.Kubernetes.KubeLogs
import Portix.Lib.Sorting

/-!
# Proofs: merging logs by time

`parseLogLines` is a stable merge: lines go by time, with ties in the order of the output. Times are inherited,
so that only the first lines are without one.
-/

namespace Portix.Kubernetes

open Lib

section Lines

variable {ι : Type}

def compareLines (a b : LogLine ι × Nat) : Ordering :=
  let byTime := match a.1.time, b.1.time with
    | some s, some t => compare s t
    | _, _ => .eq
  byTime.then (compare a.2 b.2)

theorem lineLe_eq (a b : LogLine ι × Nat) : lineLe a b = (compareLines a b).isLE := by
  have hplace : (compare a.2 b.2).isLE = decide (a.2 ≤ b.2) := by
    rw [Bool.eq_iff_iff, Std.isLE_compare, decide_eq_true_eq]
  unfold lineLe compareLines
  cases a.1.time with
  | none => exact hplace.symm
  | some s => cases b.1.time with
    | none => exact hplace.symm
    | some t =>
      dsimp only
      rcases lt_trichotomy s t with hlt | rfl | hgt
      · rw [compare_lt_iff_lt.mpr hlt]
        simp [hlt]
      · rw [compare_eq_iff_eq.mpr rfl, Ordering.eq_then, hplace]
        simp
      · rw [compare_gt_iff_gt.mpr hgt]
        have hne : s ≠ t := hgt.ne'
        simp [hne, hgt.le]

/-- The stamp of a line, and its text: what is before and after the first space. -/
def splitStamp (tryParse : String → Option Int) (raw : String) : Option (Int × String) :=
  (splitFirst ' ' raw).bind fun (stamp, text) =>
    if stamp = "" then none else (tryParse stamp).map fun time => (time, text)

def stampOf (tryParse : String → Option Int) (raw : String) : Option Int :=
  (splitStamp tryParse raw).map Prod.fst

def textOf (tryParse : String → Option Int) (raw : String) : String :=
  ((splitStamp tryParse raw).map Prod.snd).getD raw

def nonEmpty (raws : List String) : List String := raws.filter (· ≠ "")

def LogLine.stamp (line : LogLine ι) : WithBot Int := line.time

variable {tryParse : String → Option Int} {origin : ι} (previous : Option Int)

theorem readLines_cons {raw : String} (hraw : raw ≠ "") (rest : List String) :
    readLines tryParse origin previous (raw :: rest) =
      ⟨(stampOf tryParse raw).or previous, textOf tryParse raw, origin⟩ ::
        readLines tryParse origin ((stampOf tryParse raw).or previous) rest := by
  rw [readLines, if_neg hraw]
  unfold stampOf textOf splitStamp
  split
  next time text hstamp =>
    rw [hstamp]
    rfl
  next hstamp =>
    rw [hstamp]
    rfl

theorem texts_readLines (raws : List String) :
    (readLines tryParse origin previous raws).map LogLine.text = (nonEmpty raws).map (textOf tryParse) := by
  induction raws generalizing previous with
  | nil => rfl
  | cons raw rest ih =>
    by_cases hraw : raw = ""
    · rw [readLines, if_pos hraw, ih]
      simp [nonEmpty, hraw]
    · rw [readLines_cons previous hraw, List.map_cons, ih]
      simp [nonEmpty, hraw]

theorem length_readLines (raws : List String) :
    (readLines tryParse origin previous raws).length = (nonEmpty raws).length := by
  have htexts : ((readLines tryParse origin previous raws).map LogLine.text).length =
      ((nonEmpty raws).map (textOf tryParse)).length := congrArg List.length (texts_readLines previous raws)
  rwa [List.length_map, List.length_map] at htexts

variable {i j : Nat}

theorem time_readLines (previous : Option Int) (raws : List String) {line : LogLine ι}
    (hline : (readLines tryParse origin previous raws)[i]? = some line) :
    line.time = (((nonEmpty raws).take (i + 1)).filterMap (stampOf tryParse)).getLast?.or previous := by
  induction raws generalizing previous i with
  | nil => cases hline
  | cons raw rest ih =>
    by_cases hraw : raw = ""
    · rw [readLines, if_pos hraw] at hline
      rw [ih previous hline]
      simp [nonEmpty, hraw]
    · have hrest : nonEmpty (raw :: rest) = raw :: nonEmpty rest := by simp [nonEmpty, hraw]
      rw [readLines_cons previous hraw] at hline
      rw [hrest, List.take_succ_cons]
      cases i with
      | zero =>
        cases hline
        cases hstamp : stampOf tryParse raw with
        | none => simp [hstamp]
        | some time => simp [hstamp]
      | succ i =>
        rw [ih _ hline]
        cases hstamp : stampOf tryParse raw with
        | none => simp [hstamp]
        | some time =>
          rw [List.filterMap_cons_some hstamp, List.getLast?_cons]
          cases (((nonEmpty rest).take (i + 1)).filterMap (stampOf tryParse)).getLast? with
          | none => rfl
          | some last => rfl

variable {raws : List String}

theorem isSome_time_of_le {a b : LogLine ι} (ha : (readLines tryParse origin none raws)[i]? = some a)
    (hb : (readLines tryParse origin none raws)[j]? = some b) (hle : i ≤ j) (hsome : a.time.isSome) :
    b.time.isSome := by
  rw [time_readLines none raws ha, Option.or_none, List.getLast?_isSome] at hsome
  rw [time_readLines none raws hb, Option.or_none, List.getLast?_isSome]
  have hprefix : ((nonEmpty raws).take (i + 1)).filterMap (stampOf tryParse) <+:
      ((nonEmpty raws).take (j + 1)).filterMap (stampOf tryParse) :=
    ((nonEmpty raws).take_prefix_take_left (by omega)).filterMap _
  exact fun hnil => hsome (List.prefix_nil.mp (hnil ▸ hprefix))

theorem lineLe_eq_stableLe {a b : LogLine ι × Nat} (ha : a ∈ (readLines tryParse origin none raws).zipIdx)
    (hb : b ∈ (readLines tryParse origin none raws).zipIdx) : lineLe a b = stableLe LogLine.stamp a b := by
  have hata := List.mem_zipIdx_iff_getElem?.mp ha
  have hatb := List.mem_zipIdx_iff_getElem?.mp hb
  have hab : a.2 ≤ b.2 → a.1.time.isSome → b.1.time.isSome := isSome_time_of_le hata hatb
  have hba : b.2 ≤ a.2 → b.1.time.isSome → a.1.time.isSome := isSome_time_of_le hatb hata
  unfold stableLe
  rw [Bool.eq_iff_iff, decide_eq_true_eq, placeKey_le_iff]
  unfold lineLe LogLine.stamp
  cases hs : a.1.time with
  | none =>
    cases ht : b.1.time with
    | none =>
      rw [decide_eq_true_eq]
      constructor
      · exact fun hle => .inr ⟨rfl, hle⟩
      · rintro (hlt | ⟨-, hle⟩)
        · exact absurd hlt not_lt_bot
        · exact hle
    | some t =>
      have hle : a.2 ≤ b.2 := by
        by_contra hlt
        have hsome := hba (by omega) (by simp [ht])
        simp [hs] at hsome
      simp only [hle, decide_true, true_iff]
      exact .inl (WithBot.bot_lt_coe t)
  | some s =>
    cases ht : b.1.time with
    | none =>
      have hlt : ¬ a.2 ≤ b.2 := by
        intro hle
        have hsome := hab hle (by simp [hs])
        simp [ht] at hsome
      simp only [hlt, decide_false, Bool.false_eq_true, and_false, or_false, false_iff]
      exact not_lt_bot
    | some t =>
      simp only [Bool.or_eq_true, Bool.and_eq_true, decide_eq_true_eq]
      exact or_congr WithBot.coe_lt_coe.symm (and_congr_left' WithBot.coe_inj.symm)

theorem compareLines_swap (a b : LogLine ι × Nat) : compareLines b a = (compareLines a b).swap := by
  unfold compareLines
  rw [Ordering.swap_then, ← Std.OrientedCmp.eq_swap]
  cases a.1.time with
  | none => cases b.1.time <;> rfl
  | some s =>
    cases b.1.time with
    | none => rfl
    | some t => simp only [← Std.OrientedCmp.eq_swap (a := t)]

theorem compareLines_eq_lt_iff {a b : LogLine ι × Nat} (ha : a ∈ (readLines tryParse origin none raws).zipIdx)
    (hb : b ∈ (readLines tryParse origin none raws).zipIdx) :
    compareLines a b = .lt ↔ placeKey LogLine.stamp a < placeKey LogLine.stamp b := by
  have hle : lineLe b a = true ↔ placeKey LogLine.stamp b ≤ placeKey LogLine.stamp a := by
    rw [lineLe_eq_stableLe hb ha, stableLe, decide_eq_true_eq]
  rw [← not_le, ← hle, lineLe_eq, compareLines_swap]
  cases compareLines a b <;> simp

/-- The order of the lines of an output after `parseLogLines`, as places in it. -/
def logOrder (tryParse : String → Option Int) (origin : ι) (raws : List String) : List Nat :=
  ((readLines tryParse origin none raws).zipIdx.mergeSort (stableLe LogLine.stamp)).map Prod.snd

theorem mem_zipIdx_of_mem_sorted {entry : LogLine ι × Nat}
    (hmem : entry ∈ (readLines tryParse origin none raws).zipIdx.mergeSort (stableLe LogLine.stamp)) :
    (readLines tryParse origin none raws)[entry.2]? = some entry.1 :=
  List.mem_zipIdx_iff_getElem?.mp ((List.mergeSort_perm _ _).mem_iff.mp hmem)

theorem logOrder_perm (raws : List String) :
    (logOrder tryParse origin raws).Perm (List.range (nonEmpty raws).length) := by
  have hperm := ((readLines tryParse origin none raws).zipIdx.mergeSort_perm (stableLe LogLine.stamp)).map Prod.snd
  rwa [map_snd_zipIdx, length_readLines] at hperm

theorem parseLogLines_eq (output : String) :
    (parseLogLines tryParse origin output).map some = (logOrder tryParse origin (splitChar '\n' output)).map fun i =>
      (readLines tryParse origin none (splitChar '\n' output))[i]? := by
  unfold parseLogLines logOrder
  rw [mergeSort_congr fun a ha b hb => lineLe_eq_stableLe ha hb, List.map_map, List.map_map]
  refine List.map_congr_left fun entry hmem => ?_
  exact (mem_zipIdx_of_mem_sorted hmem).symm

/-- Line `i` of those built goes before line `j`: by time, and by place where the times are the same. -/
def Precedes (built : List (LogLine ι)) (i j : Nat) : Prop :=
  ∃ a b, built[i]? = some a ∧ built[j]? = some b ∧ (a.stamp < b.stamp ∨ a.stamp = b.stamp ∧ i < j)

theorem pairwise_logOrder (raws : List String) :
    (logOrder tryParse origin raws).Pairwise (Precedes (readLines tryParse origin none raws)) := by
  unfold logOrder
  rw [List.pairwise_map]
  refine (pairwise_stableSort LogLine.stamp _).imp_of_mem fun {a b} ha hb hlt => ?_
  exact ⟨a.1, b.1, mem_zipIdx_of_mem_sorted ha, mem_zipIdx_of_mem_sorted hb, placeKey_lt_iff.mp hlt⟩

theorem Precedes.asymm {built : List (LogLine ι)} (h : Precedes built i j) : ¬ Precedes built j i := by
  obtain ⟨a, b, ha, hb, hab⟩ := h
  rintro ⟨b', a', hb', ha', hba⟩
  cases ha.symm.trans ha'
  cases hb.symm.trans hb'
  have h1 : placeKey LogLine.stamp (a, i) < placeKey LogLine.stamp (b, j) := placeKey_lt_iff.mpr hab
  have h2 : placeKey LogLine.stamp (b, j) < placeKey LogLine.stamp (a, i) := placeKey_lt_iff.mpr hba
  exact lt_asymm h1 h2

theorem time_eq_of_unstamped {next : String} {a b : LogLine ι} (ha : (readLines tryParse origin none raws)[i]? = some a)
    (hb : (readLines tryParse origin none raws)[i + 1]? = some b) (hnext : (nonEmpty raws)[i + 1]? = some next)
    (hunstamped : stampOf tryParse next = none) : a.time = b.time := by
  rw [time_readLines none raws ha, time_readLines none raws hb, List.take_add_one (i := i + 1), hnext,
    Option.toList_some, List.filterMap_append]
  simp [hunstamped]

theorem adjacent_logOrder {next : String}
    (hnext : (nonEmpty raws)[i + 1]? = some next) (hunstamped : stampOf tryParse next = none) :
    [i, i + 1] <:+: logOrder tryParse origin raws := by
  obtain ⟨hlt, -⟩ := List.getElem?_eq_some_iff.mp hnext
  have hlength : (readLines tryParse origin none raws).length = (nonEmpty raws).length := length_readLines none raws
  obtain ⟨a, ha⟩ : ∃ a, (readLines tryParse origin none raws)[i]? = some a :=
    ⟨_, List.getElem?_eq_getElem (by omega)⟩
  obtain ⟨b, hb⟩ : ∃ b, (readLines tryParse origin none raws)[i + 1]? = some b :=
    ⟨_, List.getElem?_eq_getElem (by omega)⟩
  have htime : a.stamp = b.stamp := time_eq_of_unstamped ha hb hnext hunstamped
  have hmem : ∀ k, k < (nonEmpty raws).length → k ∈ logOrder tryParse origin raws := fun k hk =>
    (logOrder_perm raws).mem_iff.mpr (List.mem_range.mpr hk)
  refine infix_of_pairwise (fun _ _ h => h.asymm) (pairwise_logOrder raws) (hmem i (by omega)) (hmem (i + 1) hlt)
    ⟨a, b, ha, hb, .inr ⟨htime, by omega⟩⟩ ?_
  rintro k - ⟨a', c, ha', hc, hac⟩ ⟨c', b', hc', hb', hcb⟩
  cases ha.symm.trans ha'
  cases hb.symm.trans hb'
  cases hc.symm.trans hc'
  rcases hac with hac | ⟨hac, hik⟩
  · rcases hcb with hcb | ⟨hcb, -⟩
    · exact absurd (hac.trans hcb) (htime ▸ lt_irrefl _)
    · exact absurd hac (by rw [htime, hcb]; exact lt_irrefl _)
  · rcases hcb with hcb | ⟨-, hkj⟩
    · exact absurd hcb (by rw [← hac, htime]; exact lt_irrefl _)
    · omega

structure IsStableMerge (tryParse : String → Option Int) (raws : List String) (built merged : List (LogLine ι)) :
    Prop where
  texts : built.map LogLine.text = (nonEmpty raws).map (textOf tryParse)
  times : ∀ i line, built[i]? = some line →
    line.time = (((nonEmpty raws).take (i + 1)).filterMap (stampOf tryParse)).getLast?
  order : ∃ order : List Nat, order.Perm (List.range built.length) ∧
    merged.map some = order.map (fun i => built[i]?) ∧ order.Pairwise (Precedes built) ∧
    ∀ i next, (nonEmpty raws)[i + 1]? = some next → stampOf tryParse next = none → [i, i + 1] <:+: order

/-- **`parseLogLines` is a stable merge by time**, and its comparator is a strict weak order on the lines that
are built. -/
theorem parseLogLines_isStableMerge (tryParse : String → Option Int) (origin : ι) (output : String) :
    IsStableMerge tryParse (splitChar '\n' output) (readLines tryParse origin none (splitChar '\n' output))
        (parseLogLines tryParse origin output) ∧
      IsStrictWeakOrder
        {entry : LogLine ι × Nat // entry ∈ (readLines tryParse origin none (splitChar '\n' output)).zipIdx}
        fun a b => compareLines a.1 b.1 = .lt := by
  constructor
  · refine ⟨texts_readLines none _, fun i line hline => ?_, logOrder tryParse origin (splitChar '\n' output), ?_,
      parseLogLines_eq output, pairwise_logOrder _, fun i next => adjacent_logOrder⟩
    · rw [time_readLines none _ hline, Option.or_none]
    · rw [length_readLines]
      exact logOrder_perm _
  · have hrel : (fun a b : {entry : LogLine ι × Nat //
        entry ∈ (readLines tryParse origin none (splitChar '\n' output)).zipIdx} => compareLines a.1 b.1 = .lt) =
        Order.Preimage (fun a => placeKey LogLine.stamp a.1) (· < ·) := by
      funext a b
      exact propext (compareLines_eq_lt_iff a.2 b.2)
    rw [hrel]
    have hweak : IsStrictWeakOrder (WithBot Int ×ₗ Nat) (· < ·) := isStrictWeakOrder_of_isOrderConnected
    infer_instance

end Lines

end Portix.Kubernetes
