import Mathlib.Data.List.Flatten
import Mathlib.Data.List.Pairwise
import Portix.Kubernetes.KubeLogView
import Portix.Kubernetes.Proofs.LogAppendProofs
import Portix.Lib.Machine

/-!
# Proofs: following logs

What a refresh reads starts at the whole second of the stamp that is shown last, whichever pod it is of. So a line is
lost that another pod wrote before that second, but after it was last read; and this is the only way.
-/

namespace Portix.Kubernetes

open Lib

theorem wholeSecond_le (time : Int) : wholeSecond time ≤ time := by
  unfold wholeSecond DateTime.microsecondsPerSecond
  omega

/-- For the ranges that are offered `--since` has the whole range. -/
theorem since_offered {range : LogRange} {since : Int} (h : range.Offered) (hsince : range.since = some since) :
    since.tdiv DateTime.microsecondsPerSecond * DateTime.microsecondsPerSecond = since := by
  cases range with
  | absolute start upTo => cases hsince
  | relative d =>
    cases hsince
    have hall : ∀ d ∈ relativeRanges,
        d.tdiv DateTime.microsecondsPerSecond * DateTime.microsecondsPerSecond = d := by decide
    exact hall _ h

section Printed

variable {ι : Type} {tryParse : String → Option Int} {origin : ι}

def WrittenLine.read (origin : ι) (line : WrittenLine tryParse) : LogLine ι := ⟨some line.time, line.text, origin⟩

theorem splitChar_printed (line : WrittenLine tryParse) (rest : String) :
    splitChar '\n' (line.printed ++ rest) = (line.stamp ++ " " ++ line.text) :: splitChar '\n' rest := by
  refine splitChar_of_splitFirst (splitFirst_of_toList ?_ ?_)
  · simp [WrittenLine.printed]
  · simp [line.one_word.2, line.one_line]

theorem readLines_printed (previous : Option Int) (lines : List (WrittenLine tryParse)) :
    readLines tryParse origin previous (splitChar '\n' (String.join (lines.map WrittenLine.printed))) =
      lines.map (WrittenLine.read origin) := by
  induction lines generalizing previous with
  | nil => rfl
  | cons line rest ih =>
    have hstamp : splitFirst ' ' (line.stamp ++ " " ++ line.text) = some (line.stamp, line.text) :=
      splitFirst_of_toList (by simp) line.one_word.1
    have hne : line.stamp ++ " " ++ line.text ≠ "" := by
      intro h
      simpa using congrArg String.toList h
    rw [List.map_cons, String.join_cons, splitChar_printed, readLines, if_neg hne, hstamp]
    simp only [Option.bind_some, if_neg line.not_empty, line.parsed, Option.map_some, ih]
    rfl

theorem multiplicity_read (c : Option Int × String) (lines : List (WrittenLine tryParse)) :
    multiplicity c (lines.map (WrittenLine.read origin)) = (lines.map WrittenLine.content).count c := by
  unfold multiplicity
  rw [List.map_map]
  rfl

end Printed

namespace PodLogs

variable {ι : Type} {tryParse : String → Option Int} (logs : PodLogs tryParse)

theorem pod_unique {i j : Fin logs.count} {line other : WrittenLine tryParse} (hline : line ∈ logs.lines i)
    (hother : other ∈ logs.lines j) (hsame : line.content = other.content) : i = j := by
  by_contra hne
  have hnodup := logs.distinct
  rw [List.map_flatMap, List.nodup_flatMap] at hnodup
  have hsymm : Std.Symm (Function.onFun List.Disjoint fun a => (logs.lines a).map WrittenLine.content) :=
    ⟨fun _ _ h => List.disjoint_symm h⟩
  have hapart := hnodup.2.forall (List.mem_finRange i) (List.mem_finRange j) hne
  exact hapart (List.mem_map_of_mem hline) (hsame ▸ List.mem_map_of_mem hother)

variable {logs} {since sinceTime : Option Int} {r : Refresh logs.count} {i : Fin logs.count}
  {line : WrittenLine tryParse}

theorem mem_readPod : line ∈ logs.readPod since sinceTime r i ↔ line ∈ logs.lines i ∧
    (∀ start ∈ startOf since sinceTime (r.moments i), start ≤ line.time) ∧ line.time ≤ r.moments i := by
  simp [readPod, Option.all_eq_true]

theorem nodup_readPod (logs : PodLogs tryParse) {r : Refresh logs.count} :
    (((List.finRange logs.count).flatMap (logs.readPod since sinceTime r)).map WrittenLine.content).Nodup :=
  logs.distinct.sublist ((List.Sublist.flatMap_right _ fun _ _ => List.filter_sublist).map _)

theorem multiplicity_output (origin : ι) (c : Option Int × String) :
    multiplicity c (parseLogLines tryParse origin (logs.output since sinceTime r)) =
      (((List.finRange logs.count).flatMap (logs.readPod since sinceTime r)).map WrittenLine.content).count c := by
  rw [multiplicity_perm (parseLogLines_perm _ _ _)]
  unfold output
  rw [readLines_printed, multiplicity_read]

end PodLogs

namespace KubeLogView

variable {s : KubeLogView} {namespaceName server : String} {tryParse : String → Option Int}

theorem loadLogs_eq (hname : s.namespaceName = some namespaceName) (hserver : s.profile = some server) :
    s.loadLogs = { s with
      generation := s.generation + 1
      loading := true
      error := none
      commands := s.commands ++ [⟨server,
        kubeLogsCommand namespaceName s.pod s.workload s.range.since s.range.sinceTime,
        namespaceName, s.pod, s.workload, none, .logs⟩] } := by
  unfold loadLogs
  split
  next hnone => cases hname.symm.trans hnone
  next name hsome =>
    cases hname.symm.trans hsome
    unfold run
    split
    next hnone => cases hserver.symm.trans hnone
    next id hid =>
      cases hserver.symm.trans hid
      rfl

theorem tick_eq (hname : s.namespaceName = some namespaceName) (hserver : s.profile = some server)
    (hidle : (s.ticking || s.loading) = false) :
    s.tick = { s with
      ticking := true
      commands := s.commands ++ [⟨server,
        kubeLogsCommand namespaceName s.pod s.workload s.tickSince s.tickSinceTime, namespaceName, s.pod, s.workload,
        none, .tick s.generation⟩] } := by
  unfold tick
  split
  next name id hsome hid =>
    cases hname.symm.trans hsome
    cases hserver.symm.trans hid
    rw [if_neg (by rw [hidle]; exact Bool.false_ne_true)]
    rfl
  next hnone => exact absurd hserver (hnone _ _ hname)

theorem lines_loaded (tryParse : String → Option Int) (hready : s.Ready) (output : String) (keepFrom : Option Int) :
    (∃ origin, (s.loadLogs.answered tryParse output keepFrom).lines = parseLogLines tryParse origin output) ∧
      (s.loadLogs.answered tryParse output keepFrom).range = s.range ∧
      (s.loadLogs.answered tryParse output keepFrom).Ready := by
  obtain ⟨hname, hserver, hticking, -⟩ := hready
  obtain ⟨namespaceName, hname⟩ := Option.isSome_iff_exists.mp hname
  obtain ⟨server, hserver⟩ := Option.isSome_iff_exists.mp hserver
  rw [loadLogs_eq hname hserver]
  unfold answered
  rw [List.getLast?_concat]
  refine ⟨⟨_, rfl⟩, rfl, ?_, ?_, hticking, rfl⟩
  · exact Option.isSome_iff_exists.mpr ⟨_, hname⟩
  · exact Option.isSome_iff_exists.mpr ⟨_, hserver⟩

theorem lines_ticked (tryParse : String → Option Int) (hready : s.Ready) (output : String) (keepFrom : Option Int) :
    (∃ origin, (s.tick.answered tryParse output keepFrom).lines =
        appendNewLines s.lines (parseLogLines tryParse origin output) keepFrom) ∧
      (s.tick.answered tryParse output keepFrom).range = s.range ∧
      (s.tick.answered tryParse output keepFrom).Ready := by
  obtain ⟨hname, hserver, hticking, hloading⟩ := hready
  obtain ⟨namespaceName, hname⟩ := Option.isSome_iff_exists.mp hname
  obtain ⟨server, hserver⟩ := Option.isSome_iff_exists.mp hserver
  rw [tick_eq hname hserver (by rw [hticking, hloading]; rfl)]
  unfold answered
  rw [List.getLast?_concat]
  simp only [goOn, ticked, ne_eq, not_true_eq_false, if_false]
  refine ⟨⟨_, rfl⟩, trivial, ?_, ?_, rfl, hloading⟩
  · exact Option.isSome_iff_exists.mpr ⟨_, hname⟩
  · exact Option.isSome_iff_exists.mpr ⟨_, hserver⟩

end KubeLogView

namespace LogRange

variable {range : LogRange} {now later time moment : Int}

theorem Covers.of_le (h : range.Covers later time) (hle : now ≤ later) : range.Covers now time := by
  cases range with
  | relative d =>
    have hlater : later - d ≤ time := h
    show now - d ≤ time
    omega
  | absolute start upTo => exact h

theorem Covers.start_le (h : range.Covers now time) (hoffered : range.Offered) (hle : moment ≤ now) :
    ∀ start ∈ startOf range.since range.sinceTime moment, start ≤ time := by
  intro start hstart
  cases range with
  | relative d =>
    have hcovers : now - d ≤ time := h
    have hwhole := since_offered hoffered rfl
    cases hstart
    omega
  | absolute first upTo =>
    have hcovers : first ≤ time ∧ time ≤ upTo := h
    cases hstart
    exact (wholeSecond_le first).trans hcovers.1

end LogRange

section Shown

variable {ι : Type} {lines : List (LogLine ι)} {c : Option Int × String}

theorem multiplicity_filterLogLines {range : LogRange} {now time : Int} {text : String} (h : range.Covers now time) :
    multiplicity (some time, text) (filterLogLines lines range.upTo) = multiplicity (some time, text) lines := by
  refine multiplicity_filter fun line hline => ?_
  have htime : line.time = some time := congrArg Prod.fst hline
  rw [htime]
  cases range with
  | relative d => rfl
  | absolute start upTo =>
    have hcovers : start ≤ time ∧ time ≤ upTo := h
    exact decide_eq_true hcovers.2

theorem isSome_lastStamp {line : LogLine ι} (hline : line ∈ lines) (htime : line.time.isSome) :
    ∃ last, lastStamp lines = some last := by
  unfold lastStamp
  cases hfind : lines.reverse.find? fun line => line.time.isSome with
  | none => exact absurd htime (List.find?_eq_none.mp hfind line (List.mem_reverse.mpr hline))
  | some found =>
    have hfound := List.find?_some hfind
    exact Option.isSome_iff_exists.mp hfound

theorem wasShown_iff {last time : Int} {text : String} (hlast : lastStamp lines = some last) :
    wasShown lines (some time, text) = true ↔
      boundarySecond last ≤ time ∧ 0 < multiplicity (some time, text) lines := by
  simp [wasShown, hlast]

end Shown

namespace LogFollow

variable {tryParse : String → Option Int} {logs : PodLogs tryParse}

/-- Every line of every pod that is inside the range, and was written before the pod was last read, is shown
once. -/
def Complete (s : LogFollow logs) : Prop :=
  ∀ i, ∀ line ∈ logs.lines i, line.time ≤ s.readAt i → s.view.range.Covers s.now line.time →
    multiplicity line.content (filterLogLines s.view.lines s.view.range.upTo) = 1

/-- A refresh starts early enough: inside the range, no line that was not read before is from before the second of
the last stamp, and no line that is shown is between that second and the boundary of `appendNewLines`. -/
def Catches (s : LogFollow logs) (r : Refresh logs.count) : Prop :=
  ∀ last ∈ lastStamp s.view.lines,
    (∀ i, ∀ line ∈ logs.lines i, s.readAt i < line.time → line.time ≤ r.moments i →
      s.view.range.Covers r.ended line.time → wholeSecond last ≤ line.time) ∧
    ∀ line ∈ s.view.lines, ∀ time ∈ line.time, s.view.range.Covers r.ended time →
      wholeSecond last ≤ time → boundarySecond last ≤ time

/-- The page can go on, and what it shows was written by the pods before they were read. -/
structure Inv (s : LogFollow logs) : Prop where
  ready : s.view.Ready
  offered : s.view.range.Offered
  readAt_le : ∀ i, s.readAt i ≤ s.now
  written : ∀ shown ∈ s.view.lines, ∃ i, ∃ line ∈ logs.lines i, line.content = shown.content ∧ line.time ≤ s.readAt i

variable {s s' : LogFollow logs} {r : Refresh logs.count} {view : KubeLogView}

theorem written_of_mem_output {ι : Type} {origin : ι} {shown : LogLine ι} {since sinceTime : Option Int}
    (h : shown ∈ parseLogLines tryParse origin (logs.output since sinceTime r)) :
    ∃ i, ∃ line ∈ logs.readPod since sinceTime r i, line.content = shown.content := by
  have hpos := multiplicity_pos_iff.mpr ⟨shown, h, rfl⟩
  rw [PodLogs.multiplicity_output, List.count_pos_iff, List.mem_map] at hpos
  obtain ⟨line, hline, hsame⟩ := hpos
  obtain ⟨i, -, hread⟩ := List.mem_flatMap.mp hline
  exact ⟨i, line, hread, hsame⟩

theorem inv_load (hready : view.Ready) (hoffered : view.range.Offered) (r : Refresh logs.count) :
    (load logs view r).Inv := by
  obtain ⟨⟨origin, hlines⟩, hrange, hready'⟩ := KubeLogView.lines_loaded tryParse hready
    (logs.output view.range.since view.range.sinceTime r) none
  refine ⟨hready', ?_, r.read_before, ?_⟩
  · unfold load
    rwa [hrange]
  · intro shown hshown
    unfold load at hshown
    rw [hlines] at hshown
    obtain ⟨i, line, hread, hsame⟩ := written_of_mem_output hshown
    obtain ⟨hline, -, hle⟩ := PodLogs.mem_readPod.mp hread
    exact ⟨i, line, hline, hsame, hle⟩

/-- The refresh comes after what was read before. -/
def Follows (s : LogFollow logs) (r : Refresh logs.count) : Prop := s.now ≤ r.ended ∧ ∀ i, s.now ≤ r.moments i

theorem Inv.tick (hinv : s.Inv) (hfollows : s.Follows r) : (s.tick r).Inv := by
  obtain ⟨⟨origin, hlines⟩, hrange, hready'⟩ := KubeLogView.lines_ticked tryParse hinv.ready
    (logs.output s.view.tickSince s.view.tickSinceTime r)
    (if r.following then s.view.range.since.map (r.ended - ·) else none)
  refine ⟨hready', ?_, r.read_before, ?_⟩
  · unfold LogFollow.tick
    rw [hrange]
    exact hinv.offered
  · intro shown hshown
    unfold LogFollow.tick at hshown
    rw [hlines] at hshown
    rcases mem_of_mem_appendNewLines hshown with hold | hnew
    · obtain ⟨i, line, hline, hsame, hle⟩ := hinv.written shown hold
      exact ⟨i, line, hline, hsame, (hle.trans (hinv.readAt_le i)).trans (hfollows.2 i)⟩
    · obtain ⟨i, line, hread, hsame⟩ := written_of_mem_output hnew
      obtain ⟨hline, -, hle⟩ := PodLogs.mem_readPod.mp hread
      exact ⟨i, line, hline, hsame, hle⟩

theorem complete_load (hready : view.Ready) (hoffered : view.range.Offered) (r : Refresh logs.count) :
    (load logs view r).Complete := by
  obtain ⟨⟨origin, hlines⟩, hrange, -⟩ := KubeLogView.lines_loaded tryParse hready
    (logs.output view.range.since view.range.sinceTime r) none
  intro i line hline hread hcovers
  unfold load at hread hcovers ⊢
  rw [hrange] at hcovers ⊢
  unfold WrittenLine.content
  rw [multiplicity_filterLogLines hcovers, hlines, PodLogs.multiplicity_output]
  refine List.count_eq_one_of_mem (PodLogs.nodup_readPod logs) ?_
  refine List.mem_map_of_mem (List.mem_flatMap.mpr ⟨i, List.mem_finRange i, ?_⟩)
  exact PodLogs.mem_readPod.mpr ⟨hline, hcovers.start_le hoffered (r.read_before i), hread⟩

/-- A pod's line is read by the refresh. -/
def Read (s : LogFollow logs) (r : Refresh logs.count) (c : Option Int × String) : Prop :=
  ∃ i, ∃ line ∈ logs.readPod s.view.tickSince s.view.tickSinceTime r i, line.content = c

theorem range_tick (hinv : s.Inv) : (s.tick r).view.range = s.view.range :=
  (KubeLogView.lines_ticked tryParse hinv.ready _ _).2.1

open Classical in
/-- A refresh shows a line once more if it reads the line, and the line was not shown from the boundary on. -/
theorem multiplicity_tick (hinv : s.Inv) (text : String) {time : Int} (hcovers : s.view.range.Covers r.ended time) :
    multiplicity (some time, text) (filterLogLines (s.tick r).view.lines s.view.range.upTo) =
      multiplicity (some time, text) s.view.lines +
        if s.Read r (some time, text) ∧ wasShown s.view.lines (some time, text) = false then 1 else 0 := by
  obtain ⟨⟨origin, hlines⟩, -⟩ := KubeLogView.lines_ticked tryParse hinv.ready
    (logs.output s.view.tickSince s.view.tickSinceTime r)
    (if r.following then s.view.range.since.map (r.ended - ·) else none)
  have hkept : ∀ line : LogLine LogOrigin, line.content = (some time, text) →
      isKept (if r.following then s.view.range.since.map (r.ended - ·) else none) line = true := by
    intro line hline
    have htime : line.time = some time := congrArg Prod.fst hline
    unfold isKept
    rw [htime]
    cases hview : s.view.range with
    | absolute start upTo => cases r.following <;> rfl
    | relative d =>
      rw [hview] at hcovers
      cases r.following with
      | false => rfl
      | true => exact decide_eq_true hcovers
  have hread : s.Read r (some time, text) ↔ 0 < multiplicity (some time, text)
      (parseLogLines tryParse origin (logs.output s.view.tickSince s.view.tickSinceTime r)) := by
    rw [PodLogs.multiplicity_output, List.count_pos_iff, List.mem_map]
    unfold Read
    constructor
    · rintro ⟨i, line, hline, hsame⟩
      exact ⟨line, List.mem_flatMap.mpr ⟨i, List.mem_finRange i, hline⟩, hsame⟩
    · rintro ⟨line, hline, hsame⟩
      obtain ⟨i, -, hline⟩ := List.mem_flatMap.mp hline
      exact ⟨i, line, hline, hsame⟩
  unfold LogFollow.tick
  rw [multiplicity_filterLogLines hcovers, hlines, multiplicity_appendNewLines, multiplicity_filter hkept]
  simp only [hread]

theorem Inv.read_of_shown (hinv : s.Inv) {i : Fin logs.count} {line : WrittenLine tryParse}
    (hline : line ∈ logs.lines i) (hshown : 0 < multiplicity line.content s.view.lines) : line.time ≤ s.readAt i := by
  obtain ⟨shown, hmem, hsame⟩ := multiplicity_pos_iff.mp hshown
  obtain ⟨j, other, hother, hsame', hle⟩ := hinv.written shown hmem
  have hcontent : other.content = line.content := hsame'.trans hsame
  obtain rfl := logs.pod_unique hother hline hcontent
  obtain htime : other.time = line.time := Option.some.inj (congrArg Prod.fst hcontent)
  exact htime ▸ hle

theorem startOf_tick {last : Int} (hlast : lastStamp s.view.lines = some last) (moment : Int) :
    startOf s.view.tickSince s.view.tickSinceTime moment = some (wholeSecond last) := by
  unfold KubeLogView.tickSince KubeLogView.tickSinceTime
  rw [hlast]
  rfl

theorem Read.wholeSecond_le {last time : Int} {text : String} (hread : s.Read r (some time, text))
    (hlast : lastStamp s.view.lines = some last) : wholeSecond last ≤ time := by
  obtain ⟨i, line, hline, hsame⟩ := hread
  obtain ⟨-, hstart, -⟩ := PodLogs.mem_readPod.mp hline
  have htime : line.time = time := Option.some.inj (congrArg Prod.fst hsame)
  exact htime ▸ hstart _ (startOf_tick hlast _)

theorem read_of_mem (hinv : s.Inv) {i : Fin logs.count} {line : WrittenLine tryParse} (hline : line ∈ logs.lines i)
    (hwritten : line.time ≤ r.moments i) (hcovers : s.view.range.Covers r.ended line.time)
    (hstart : ∀ last, lastStamp s.view.lines = some last → wholeSecond last ≤ line.time) :
    s.Read r line.content := by
  refine ⟨i, line, PodLogs.mem_readPod.mpr ⟨hline, ?_, hwritten⟩, rfl⟩
  cases hlast : lastStamp s.view.lines with
  | some last =>
    intro start hmem
    rw [startOf_tick hlast] at hmem
    cases hmem
    exact hstart last hlast
  | none =>
    unfold KubeLogView.tickSince KubeLogView.tickSinceTime
    rw [hlast]
    exact hcovers.start_le hinv.offered (r.read_before i)

/-- **A refresh loses nothing if and only if it starts early enough.** -/
theorem tick_complete_iff (hinv : s.Inv) (hcomplete : s.Complete) (hfollows : s.Follows r) :
    (s.tick r).Complete ↔ s.Catches r := by
  constructor
  · intro hafter last hlast
    have hone : ∀ i, ∀ line ∈ logs.lines i, line.time ≤ r.moments i → s.view.range.Covers r.ended line.time →
        multiplicity line.content (filterLogLines (s.tick r).view.lines s.view.range.upTo) = 1 := by
      intro i line hline hwritten hcovers
      have hshown := hafter i line hline hwritten (by rw [range_tick hinv]; exact hcovers)
      rwa [range_tick hinv] at hshown
    constructor
    · intro i line hline hunread hwritten hcovers
      have hnew : ¬ 0 < multiplicity line.content s.view.lines := fun hpos =>
        absurd (hinv.read_of_shown hline hpos) (not_le.mpr hunread)
      have hread : s.Read r line.content := by
        by_contra hnot
        have hstays : multiplicity line.content (filterLogLines (s.tick r).view.lines s.view.range.upTo) =
            multiplicity line.content s.view.lines :=
          (multiplicity_tick hinv line.text hcovers).trans (congrArg _ (if_neg fun h => hnot h.1))
        rw [hone i line hline hwritten hcovers] at hstays
        exact hnew (hstays ▸ Nat.one_pos)
      exact hread.wholeSecond_le hlast
    · intro shown hshown time htime hcovers hle
      obtain ⟨i, line, hline, hcontent, hread⟩ := hinv.written shown hshown
      cases (congrArg Prod.fst hcontent).trans htime
      have hwritten : line.time ≤ r.moments i := (hread.trans (hinv.readAt_le i)).trans (hfollows.2 i)
      have hpos : 0 < multiplicity line.content s.view.lines :=
        multiplicity_pos_iff.mpr ⟨shown, hshown, hcontent.symm⟩
      by_contra hlate
      have hunseen : wasShown s.view.lines line.content = false :=
        Bool.eq_false_iff.mpr fun h => hlate ((wasShown_iff hlast).mp h).1
      have hagain : s.Read r line.content := read_of_mem hinv hline hwritten hcovers fun last' hlast' => by
        cases hlast.symm.trans hlast'
        exact hle
      have htwice : multiplicity line.content (filterLogLines (s.tick r).view.lines s.view.range.upTo) =
          multiplicity line.content s.view.lines + 1 :=
        (multiplicity_tick hinv line.text hcovers).trans (congrArg _ (if_pos ⟨hagain, hunseen⟩))
      have hshown' := hone i line hline hwritten hcovers
      omega
  · intro hcatches i line hline hwritten hcovers'
    have hcovers : s.view.range.Covers r.ended line.time := range_tick hinv (r := r) ▸ hcovers'
    rw [range_tick hinv]
    refine (multiplicity_tick hinv line.text hcovers).trans ?_
    by_cases hread : line.time ≤ s.readAt i
    · have hbefore : s.view.range.Covers s.now line.time := hcovers.of_le hfollows.1
      have hone : multiplicity line.content s.view.lines = 1 := by
        have hshown := hcomplete i line hline hread hbefore
        unfold WrittenLine.content at hshown ⊢
        rwa [multiplicity_filterLogLines hbefore] at hshown
      refine (congrArg _ (if_neg ?_)).trans hone
      rintro ⟨hagain, hunseen⟩
      obtain ⟨shown, hmem, hcontent⟩ := multiplicity_pos_iff.mp (hone ▸ Nat.one_pos)
      have htime : shown.time = some line.time := congrArg Prod.fst hcontent
      obtain ⟨last, hlast⟩ := isSome_lastStamp hmem (by rw [htime]; rfl)
      have hseen : wasShown s.view.lines line.content = true :=
        (wasShown_iff hlast).mpr ⟨(hcatches last hlast).2 shown hmem line.time htime hcovers
          (hagain.wholeSecond_le hlast), hone ▸ Nat.one_pos⟩
      exact Bool.false_ne_true (hunseen.symm.trans hseen)
    · have hnew : multiplicity line.content s.view.lines = 0 :=
        Nat.eq_zero_of_not_pos fun hpos => hread (hinv.read_of_shown hline hpos)
      have hunseen : wasShown s.view.lines line.content = false := by
        unfold wasShown
        rw [hnew]
        split
        next => simp
        next => rfl
      have hnow : s.Read r line.content := read_of_mem hinv hline hwritten hcovers fun last hlast =>
        (hcatches last hlast).1 i line hline (not_le.mp hread) hwritten hcovers
      exact congrArg₂ (· + ·) hnew (if_pos ⟨hnow, hunseen⟩)

theorem step_eq_some_iff {o : List Unit} : s.step r = some (s', o) ↔ s.Follows r ∧ s' = s.tick r ∧ o = [] := by
  unfold step Follows
  split
  next h => simp [h, eq_comm]
  next h => simp [h]

/-- **Following loses nothing while every refresh starts early enough**: what the pods wrote inside the range is shown
once, however often the page refreshes. And what is shown after a refresh that starts too late is not complete. -/
theorem follow_loses_nothing {first : Refresh logs.count} {h : List Unit} (hready : view.Ready)
    (hoffered : view.range.Offered)
    (hreach : Reaches step (fun s r => s.Catches r) (load logs view first) h s) :
    s.Complete ∧ ∀ r s' o, s.step r = some (s', o) → (s'.Complete ↔ s.Catches r) := by
  have hboth : s.Inv ∧ s.Complete := by
    refine hreach.invariant (I := fun _ s => s.Inv ∧ s.Complete) ?_ ?_
    · exact ⟨inv_load hready hoffered first, complete_load hready hoffered first⟩
    · rintro h s r s' o ⟨hinv, hcomplete⟩ hcatches hstep
      obtain ⟨hfollows, rfl, rfl⟩ := step_eq_some_iff.mp hstep
      exact ⟨hinv.tick hfollows, (tick_complete_iff hinv hcomplete hfollows).mpr hcatches⟩
  refine ⟨hboth.2, fun r s' o hstep => ?_⟩
  obtain ⟨hfollows, rfl, rfl⟩ := step_eq_some_iff.mp hstep
  exact tick_complete_iff hboth.1 hboth.2 hfollows

def parseStamps (stamp : String) : Option Int :=
  if stamp = "2026-10-20T09:00:10.5Z" then some 1792486810500000
  else if stamp = "2026-10-20T09:00:11.2Z" then some 1792486811200000
  else if stamp = "2026-10-20T09:00:13Z" then some 1792486813000000
  else none

def twoPods : PodLogs parseStamps where
  count := 2
  lines i := if i.val = 0 then
      [⟨"2026-10-20T09:00:10.5Z", 1792486810500000, "refused", by decide, by decide, by decide, by decide⟩,
        ⟨"2026-10-20T09:00:13Z", 1792486813000000, "ready", by decide, by decide, by decide, by decide⟩]
    else [⟨"2026-10-20T09:00:11.2Z", 1792486811200000, "started", by decide, by decide, by decide, by decide⟩]
  distinct := by decide

def quarterView : KubeLogView where
  contexts _ := "prod"
  profiles := ["p"]
  profileId := some "p"
  namespaceName := some "default"
  range := .relative 900000000

def refreshAt (second : Int) : Refresh twoPods.count where
  moments i := 1792486800000000 + second * 1000000 + i.val * 1500000
  ended := 1792486800000000 + second * 1000000 + 3000000
  increasing := by
    intro i j hij
    have hle : i.val ≤ j.val := hij
    show _ + (i.val : Int) * 1500000 ≤ _ + (j.val : Int) * 1500000
    omega
  read_before i := by
    have hlt : i.val < 2 := i.isLt
    omega

theorem ready_quarterView : quarterView.Ready := by
  refine ⟨rfl, ?_, rfl, rfl⟩
  decide

theorem lines_quarter : (load twoPods quarterView (refreshAt 11)).view.lines =
    [⟨some 1792486810500000, "refused", ⟨"p", "prod", "default", none, none⟩⟩,
      ⟨some 1792486811200000, "started", ⟨"p", "prod", "default", none, none⟩⟩] := by
  show parseLogLines parseStamps _ _ = _
  unfold parseLogLines
  rw [List.mergeSort_of_pairwise (by decide)]
  decide

theorem follow_loses_nothing_quarter : ∃ s, Reaches step (fun s r => s.Catches r)
    (load twoPods quarterView (refreshAt 11)) [] s ∧
    (s.Complete ∧ ∀ r s' o, s.step r = some (s', o) → (s'.Complete ↔ s.Catches r)) ∧
    multiplicity (some 1792486813000000, "ready") (filterLogLines s.view.lines none) = 1 := by
  have hcatches : (load twoPods quarterView (refreshAt 11)).Catches (refreshAt 20) := by
    intro last hlast
    rw [lines_quarter] at hlast ⊢
    cases hlast
    constructor
    · decide
    · decide
  have hstep : (load twoPods quarterView (refreshAt 11)).step (refreshAt 20) =
      some ((load twoPods quarterView (refreshAt 11)).tick (refreshAt 20), []) := by
    refine step_eq_some_iff.mpr ⟨?_, rfl, rfl⟩
    unfold Follows
    decide
  have hstart : Reaches step (fun s r => s.Catches r) (load twoPods quarterView (refreshAt 11)) []
      (load twoPods quarterView (refreshAt 11)) := .start
  have hreach := hstart.next hcatches hstep
  have hall := follow_loses_nothing ready_quarterView (by decide) hreach
  refine ⟨_, hreach, hall, ?_⟩
  have hready : ∃ line ∈ twoPods.lines (0 : Fin 2), line.content = (some 1792486813000000, "ready") ∧
      line.time ≤ (refreshAt 20).moments (0 : Fin 2) ∧ quarterView.range.Covers (refreshAt 20).ended line.time := by
    decide
  obtain ⟨line, hline, hcontent, hwritten, hcovers⟩ := hready
  exact hcontent ▸ hall.1 (0 : Fin 2) line hline hwritten hcovers

/-- A line is written after its pod was read and before another pod, which has a newer line, is read. -/
theorem refused_lost : ¬ ∀ (tryParse : String → Option Int) (logs : PodLogs tryParse) (view : KubeLogView)
    (first : Refresh logs.count) (h : List Unit) (s : LogFollow logs), view.Ready → view.range.Offered →
      Reaches step (fun _ _ => True) (load logs view first) h s → s.Complete := by
  intro hall
  have hfollows : (load twoPods quarterView (refreshAt 10)).Follows (refreshAt 20) := by
    unfold Follows
    decide
  have hlast : lastStamp (load twoPods quarterView (refreshAt 10)).view.lines = some 1792486811200000 := by
    decide +kernel
  have hoffered : quarterView.range.Offered := by
    decide
  have hcomplete := hall parseStamps twoPods quarterView (refreshAt 10) _ _ ready_quarterView hoffered
    (Reaches.start.next trivial (step_eq_some_iff.mpr ⟨hfollows, rfl, rfl⟩))
  have hcatches := (tick_complete_iff (inv_load ready_quarterView hoffered _)
    (complete_load ready_quarterView hoffered _) hfollows).mp hcomplete
  have hlate := (hcatches _ hlast).1 (0 : Fin 2) _ List.mem_cons_self
  revert hlate
  decide

end LogFollow

end Portix.Kubernetes
