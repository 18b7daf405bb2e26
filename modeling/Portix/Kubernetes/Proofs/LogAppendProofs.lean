import Portix.Kubernetes.Proofs.LogMergeProofs

/-!
# Proofs: appending re-read lines

What `appendNewLines` shows: lines that were shown are skipped, and of those that were not each is shown once.
-/

namespace Portix.Kubernetes

open Lib

section Lines

variable {ι : Type} {existing fetched : List (LogLine ι)} {line other : LogLine ι}

def LogLine.content (line : LogLine ι) : Option Int × String := (line.time, line.text)

variable (content : Option Int × String)

def multiplicity (lines : List (LogLine ι)) : Nat :=
  (lines.map LogLine.content).count content

def timeText : Option Int → String
  | some time => toString time
  | none => "null"

theorem bar_notMem_timeText (time : Option Int) : '|' ∉ (timeText time).toList := by
  cases time with
  | none => decide
  | some time =>
    intro hbar
    rcases isDigit_or_eq_of_mem_toString hbar with hdigit | hsign
    · exact absurd hdigit (by decide)
    · exact absurd hsign (by decide)

theorem timeText_injective {s t : Option Int} (h : timeText s = timeText t) : s = t := by
  have hnull : ∀ time : Int, toString time ≠ "null" := by
    intro time hsame
    have hmem : 'n' ∈ (toString time).toList := by
      rw [hsame]
      decide
    rcases isDigit_or_eq_of_mem_toString hmem with hdigit | hsign
    · exact absurd hdigit (by decide)
    · exact absurd hsign (by decide)
  cases s with
  | none =>
    cases t with
    | none => rfl
    | some t => exact absurd h.symm (hnull t)
  | some s =>
    cases t with
    | none => exact absurd h (hnull s)
    | some t => exact congrArg some (toString_int_injective h)

def contentKey : String := timeText content.1 ++ "|" ++ content.2

theorem lineKey_eq (line : LogLine ι) : lineKey line = contentKey line.content := rfl

theorem splitFirst_contentKey :
    splitFirst '|' (contentKey content) = some (timeText content.1, content.2) := by
  refine splitFirst_of_toList ?_ (bar_notMem_timeText content.1)
  unfold contentKey
  rw [String.toList_append, String.toList_append, List.append_assoc]
  rfl

theorem contentKey_injective {c d : Option Int × String} (h : contentKey c = contentKey d) : c = d := by
  have hsplit := splitFirst_contentKey c
  rw [h, splitFirst_contentKey, Option.some.injEq, Prod.mk.injEq] at hsplit
  exact Prod.ext (timeText_injective hsplit.1.symm) hsplit.2.symm

@[simp] theorem multiplicity_nil (c : Option Int × String) : multiplicity c ([] : List (LogLine ι)) = 0 := rfl

@[simp] theorem multiplicity_append (c : Option Int × String) (lines rest : List (LogLine ι)) :
    multiplicity c (lines ++ rest) = multiplicity c lines + multiplicity c rest := by
  simp [multiplicity]

@[simp] theorem multiplicity_cons (c : Option Int × String) (line : LogLine ι) (lines : List (LogLine ι)) :
    multiplicity c (line :: lines) = multiplicity c lines + if line.content = c then 1 else 0 := by
  simp [multiplicity, List.count_cons]

variable {c : Option Int × String} {lines others : List (LogLine ι)}

theorem multiplicity_pos_iff : 0 < multiplicity c lines ↔ ∃ line ∈ lines, line.content = c := by
  unfold multiplicity
  rw [List.count_pos_iff, List.mem_map]

theorem multiplicity_perm (h : lines.Perm others) : multiplicity c lines = multiplicity c others :=
  (h.map LogLine.content).count_eq c

theorem multiplicity_filter {keeps : LogLine ι → Bool}
    (h : ∀ line : LogLine ι, line.content = c → keeps line = true) :
    multiplicity c (lines.filter keeps) = multiplicity c lines := by
  induction lines with
  | nil => rfl
  | cons line rest ih =>
    rw [List.filter_cons, multiplicity_cons]
    split
    next hkept => rw [multiplicity_cons, ih]
    next hdropped => rw [ih, if_neg fun hsame => hdropped (h line hsame), Nat.add_zero]

theorem multiplicity_unseenLines (c : Option Int × String) (seen : List String) (lines : List (LogLine ι)) :
    multiplicity c (unseenLines seen lines) =
      if 0 < multiplicity c lines ∧ contentKey c ∉ seen then 1 else 0 := by
  induction lines generalizing seen with
  | nil => simp [unseenLines]
  | cons line rest ih =>
    rw [multiplicity_cons, unseenLines, lineKey_eq]
    by_cases hsame : line.content = c
    · subst hsame
      by_cases hseen : contentKey line.content ∈ seen
      · rw [if_pos hseen, ih]
        simp [hseen]
      · rw [if_neg hseen, multiplicity_cons, ih]
        simp [hseen]
    · have hkey : contentKey c ≠ contentKey line.content := fun h => hsame (contentKey_injective h).symm
      by_cases hseen : contentKey line.content ∈ seen
      · rw [if_pos hseen, ih]
        simp [hsame]
      · rw [if_neg hseen, multiplicity_cons, ih]
        simp [hsame, hkey]

def wasShown (existing : List (LogLine ι)) (content : Option Int × String) : Bool :=
  match (lastStamp existing).map boundarySecond, content.1 with
  | some boundary, some time => decide (boundary ≤ time) && decide (0 < multiplicity content existing)
  | _, _ => false

theorem mem_seenKeys_iff (c : Option Int × String) :
    contentKey c ∈ seenKeys existing ((lastStamp existing).map boundarySecond) ↔ wasShown existing c = true := by
  unfold seenKeys wasShown
  rw [List.mem_filterMap]
  constructor
  · rintro ⟨line, hmem, hkey⟩
    split at hkey
    next boundary time hboundary htime =>
      split at hkey
      next hle =>
        obtain rfl : line.content = c := contentKey_injective (Option.some.inj hkey)
        have hpos : 0 < multiplicity line.content existing := multiplicity_pos_iff.mpr ⟨line, hmem, rfl⟩
        simp only [hboundary, LogLine.content, htime]
        simpa [LogLine.content, htime] using And.intro hle hpos
      next => cases hkey
    next => cases hkey
  · intro hshown
    split at hshown
    next boundary time hboundary htime =>
      simp only [Bool.and_eq_true, decide_eq_true_eq] at hshown
      obtain ⟨line, hmem, rfl⟩ := multiplicity_pos_iff.mp hshown.2
      have htime' : line.time = some time := htime
      exact ⟨line, hmem, by simp [hboundary, htime', hshown.1, lineKey_eq]⟩
    next => cases hshown

/-- A line is shown as often as before, and once more if it is among those that are read and was not shown. -/
theorem multiplicity_appendNewLines (c : Option Int × String) (keepFrom : Option Int) :
    multiplicity c (appendNewLines existing fetched keepFrom) = multiplicity c (existing.filter (isKept keepFrom)) +
      if 0 < multiplicity c fetched ∧ wasShown existing c = false then 1 else 0 := by
  unfold appendNewLines
  rw [multiplicity_append, multiplicity_unseenLines]
  simp only [mem_seenKeys_iff, Bool.not_eq_true]

/-- The lines go by time. -/
def TimeOrdered (lines : List (LogLine ι)) : Prop := lines.Pairwise fun a b => a.stamp ≤ b.stamp

theorem parseLogLines_timeOrdered (tryParse : String → Option Int) (origin : ι) (output : String) :
    TimeOrdered (parseLogLines tryParse origin output) := by
  unfold parseLogLines TimeOrdered
  rw [mergeSort_congr fun a ha b hb => lineLe_eq_stableLe ha hb, List.pairwise_map]
  refine (pairwise_stableSort LogLine.stamp _).imp fun {a b} hlt => ?_
  rcases placeKey_lt_iff.mp hlt with hbefore | ⟨hsame, -⟩
  · exact hbefore.le
  · exact hsame.le

theorem forall_unseen_iff {P : Option Int × String → Prop} :
    (∀ line ∈ unseenLines (seenKeys existing ((lastStamp existing).map boundarySecond)) fetched, P line.content) ↔
      ∀ line ∈ fetched, wasShown existing line.content = false → P line.content := by
  have hmem : ∀ c, (∃ line ∈ unseenLines (seenKeys existing ((lastStamp existing).map boundarySecond)) fetched,
      line.content = c) ↔ (∃ line ∈ fetched, line.content = c) ∧ wasShown existing c = false := by
    intro c
    rw [← multiplicity_pos_iff, ← multiplicity_pos_iff, multiplicity_unseenLines]
    simp only [mem_seenKeys_iff, Bool.not_eq_true]
    split
    next h => simp [h]
    next h => simp [h]
  constructor
  · intro h line hline hnew
    obtain ⟨appended, happended, hsame⟩ := (hmem line.content).mpr ⟨⟨line, hline, rfl⟩, hnew⟩
    exact hsame ▸ h appended happended
  · intro h line hline
    obtain ⟨⟨read, hread, hsame⟩, hnew⟩ := (hmem line.content).mp ⟨line, hline, rfl⟩
    exact hsame ▸ h read hread (hsame ▸ hnew)

/-- What is read goes well with what is shown: a line that was shown is read no more often than it was; any other
is read once, not counting those without a place among the keys, and is not earlier than a line that is shown. -/
def Mergeable (existing fetched : List (LogLine ι)) : Prop :=
  ∀ line ∈ fetched,
    if wasShown existing line.content then multiplicity line.content fetched ≤ multiplicity line.content existing
    else multiplicity line.content fetched = multiplicity line.content existing + 1 ∧
      ∀ shown ∈ existing, shown.stamp ≤ line.stamp

theorem filter_isKept_none (lines : List (LogLine ι)) : lines.filter (isKept none) = lines := by
  rw [List.filter_eq_self]
  intro line _
  rfl

theorem timeOrdered_appendNewLines_iff (hexisting : TimeOrdered existing) (hfetched : TimeOrdered fetched) :
    TimeOrdered (appendNewLines existing fetched none) ↔
      ∀ line ∈ fetched, wasShown existing line.content = false → ∀ shown ∈ existing, shown.stamp ≤ line.stamp := by
  have happended : TimeOrdered (unseenLines (seenKeys existing ((lastStamp existing).map boundarySecond)) fetched) :=
    hfetched.sublist (unseenLines_sublist _ _)
  have hforall : (∀ line ∈ unseenLines (seenKeys existing ((lastStamp existing).map boundarySecond)) fetched,
      ∀ shown ∈ existing, shown.stamp ≤ line.stamp) ↔ _ :=
    forall_unseen_iff (P := fun c => ∀ shown ∈ existing, shown.stamp ≤ (c.1 : WithBot Int))
  unfold appendNewLines TimeOrdered
  rw [filter_isKept_none, List.pairwise_append]
  constructor
  · rintro ⟨-, -, hcross⟩
    exact hforall.mp fun line hline shown hshown => hcross shown hshown line hline
  · intro h
    exact ⟨hexisting, happended, fun shown hshown line hline => hforall.mpr h line hline shown hshown⟩

/-- Nothing is lost and nothing repeated if what was shown is read no more often than it was, and what is new is
read once more. -/
theorem multiplicity_eq_max_iff : (∀ c, multiplicity c (appendNewLines existing fetched none) =
        max (multiplicity c existing) (multiplicity c fetched)) ↔
      ∀ line ∈ fetched, if wasShown existing line.content then
        multiplicity line.content fetched ≤ multiplicity line.content existing
      else multiplicity line.content fetched = multiplicity line.content existing + 1 := by
  have hcount : ∀ c, multiplicity c (appendNewLines existing fetched none) = multiplicity c existing +
      if 0 < multiplicity c fetched ∧ wasShown existing c = false then 1 else 0 := by
    intro c
    rw [multiplicity_appendNewLines, filter_isKept_none]
  constructor
  · intro h line hline
    have hpos : 0 < multiplicity line.content fetched := multiplicity_pos_iff.mpr ⟨line, hline, rfl⟩
    have hmax := (hcount line.content).symm.trans (h line.content)
    cases hshown : wasShown existing line.content with
    | true =>
      simp only [hshown, Bool.true_eq_false, and_false, if_false, if_true] at hmax ⊢
      omega
    | false =>
      simp only [hshown, hpos, and_self, if_true, Bool.false_eq_true, if_false] at hmax ⊢
      omega
  · intro h c
    rw [hcount]
    by_cases hpos : 0 < multiplicity c fetched
    · obtain ⟨line, hline, rfl⟩ := multiplicity_pos_iff.mp hpos
      have hone := h line hline
      cases hshown : wasShown existing line.content with
      | true =>
        simp only [hshown, if_true, Bool.true_eq_false, and_false, if_false] at hone ⊢
        omega
      | false =>
        simp only [hshown, hpos, and_self, if_true, Bool.false_eq_true, if_false] at hone ⊢
        omega
    · rw [if_neg fun h => hpos h.1]
      omega

/-- **Re-read lines merge into one stream**, without repeats or gaps, if and only if they go well with those that
are shown. -/
theorem appendNewLines_merges_iff (tryParse : String → Option Int) (origin : ι) (output : String)
    (hexisting : TimeOrdered existing) :
    (TimeOrdered (appendNewLines existing (parseLogLines tryParse origin output) none) ∧
      ∀ c, multiplicity c (appendNewLines existing (parseLogLines tryParse origin output) none) =
        max (multiplicity c existing) (multiplicity c (parseLogLines tryParse origin output))) ↔
      Mergeable existing (parseLogLines tryParse origin output) := by
  rw [timeOrdered_appendNewLines_iff hexisting (parseLogLines_timeOrdered tryParse origin output),
    multiplicity_eq_max_iff]
  constructor
  · rintro ⟨horder, hcount⟩ line hline
    have hone := hcount line hline
    cases hshown : wasShown existing line.content with
    | true => simpa [hshown] using hone
    | false =>
      have hone' : multiplicity line.content (parseLogLines tryParse origin output) =
          multiplicity line.content existing + 1 := by simpa [hshown] using hone
      simpa [hshown] using And.intro hone' (horder line hline hshown)
  · intro h
    refine ⟨fun line hline hshown => ?_, fun line hline => ?_⟩
    · have hone := h line hline
      rw [if_neg (by simp [hshown])] at hone
      exact hone.2
    · have hone := h line hline
      cases hshown : wasShown existing line.content with
      | true => simpa [hshown] using hone
      | false =>
        rw [if_neg (by simp [hshown])] at hone
        simpa using hone.1

theorem mergeable_perm (h : fetched.Perm others) : Mergeable existing fetched ↔ Mergeable existing others := by
  unfold Mergeable
  constructor
  · intro hmerge line hline
    simpa only [multiplicity_perm h] using hmerge line (h.mem_iff.mpr hline)
  · intro hmerge line hline
    simpa only [multiplicity_perm h] using hmerge line (h.mem_iff.mp hline)

def parseMorning (stamp : String) : Option Int :=
  if stamp = "2026-10-20T09:00:02Z" then some 1792486802000000
  else if stamp = "2026-10-20T09:00:03Z" then some 1792486803000000
  else none

def shownMorning : List (LogLine Unit) := [⟨some 1792486802000000, "b", ()⟩]

def readMorning (output : String) : List (LogLine Unit) := parseLogLines parseMorning () output

theorem appendNewLines_merges_morning :
    TimeOrdered (appendNewLines shownMorning (readMorning "2026-10-20T09:00:03Z e\n2026-10-20T09:00:02Z b\n") none) ∧
      ∀ c, multiplicity c (appendNewLines shownMorning
          (readMorning "2026-10-20T09:00:03Z e\n2026-10-20T09:00:02Z b\n") none) =
        max (multiplicity c shownMorning)
          (multiplicity c (readMorning "2026-10-20T09:00:03Z e\n2026-10-20T09:00:02Z b\n")) := by
  refine (appendNewLines_merges_iff parseMorning () _ (List.pairwise_singleton _ _)).mpr ?_
  rw [mergeable_perm (parseLogLines_perm _ _ _)]
  unfold Mergeable
  decide

/-- A line that a pod writes twice in a second is shown once. -/
theorem appendNewLines_drops_repeated :
    TimeOrdered shownMorning ∧ multiplicity (some 1792486803000000, "retry") shownMorning = 0 ∧
      multiplicity (some 1792486803000000, "retry") (readMorning
        "2026-10-20T09:00:02Z b\n2026-10-20T09:00:03Z retry\n2026-10-20T09:00:03Z retry\n") = 2 ∧
      multiplicity (some 1792486803000000, "retry") (appendNewLines shownMorning (readMorning
        "2026-10-20T09:00:02Z b\n2026-10-20T09:00:03Z retry\n2026-10-20T09:00:03Z retry\n") none) = 1 := by
  refine ⟨List.pairwise_singleton _ _, by decide, ?_, ?_⟩
  · unfold readMorning
    rw [multiplicity_perm (parseLogLines_perm _ _ _)]
    decide
  · unfold readMorning
    rw [multiplicity_appendNewLines, multiplicity_perm (parseLogLines_perm _ _ _)]
    decide

end Lines

end Portix.Kubernetes
