import Portix.Kubernetes.KubeLogs

/-!
# Proofs: workloads

The names that the suffixes of `kube_logs.dart` match, and where the pods that `grep -E` selects for a workload
are not those that `workloadOf` puts in it.
-/

namespace Portix.Kubernetes

open Lib

def isSuffixChar : Char → Bool := classOf ['a', '-', 'z', '0', '-', '9']

def isOrdinalChar : Char → Bool := classOf ['0', '-', '9']

/-- The hash of a replica set. -/
def IsHash (hash : List Char) : Prop := 6 ≤ hash.length ∧ hash.length ≤ 10 ∧ hash.all isSuffixChar = true

/-- The five random characters of a pod. -/
def IsTail (tail : List Char) : Prop := tail.length = 5 ∧ tail.all isSuffixChar = true

def IsOrdinal (ordinal : List Char) : Prop := ordinal ≠ [] ∧ ordinal.all isOrdinalChar = true

def IsSuffix : WorkloadKind → List Char → Prop
  | .deployment, chars => ∃ hash tail, chars = '-' :: hash ++ '-' :: tail ∧ IsHash hash ∧ IsTail tail
  | .statefulSet, chars => ∃ ordinal, chars = '-' :: ordinal ∧ IsOrdinal ordinal
  | .other, chars => ∃ tail, chars = '-' :: tail ∧ IsTail tail

def suffixPieces : WorkloadKind → List Piece
  | .deployment => [.literal '-', ⟨isSuffixChar, 6, some 10⟩, .literal '-', ⟨isSuffixChar, 5, some 5⟩]
  | .statefulSet => [.literal '-', ⟨isOrdinalChar, 1, none⟩]
  | .other => [.literal '-', ⟨isSuffixChar, 5, some 5⟩]

theorem readPieces_suffix (dot : Char → Bool) (read : List Piece) (kind : WorkloadKind) :
    readPieces dot .plain read (kind.suffix.toList ++ ['$']) = some (read.reverse ++ suffixPieces kind) := by
  have hread : readPieces dot .plain read (kind.suffix.toList ++ ['$']) =
      some ((suffixPieces kind).reverse ++ read).reverse := by
    cases read with
    | nil => cases kind <;> rfl
    | cons piece read => cases kind <;> rfl
  rw [hread, List.reverse_append, List.reverse_reverse]

theorem groupPieces_suffix (kind : WorkloadKind) : groupPieces isRegExpDot ("^(.+)" ++ kind.suffix ++ "$").toList =
      some (⟨isRegExpDot, 1, none⟩ :: suffixPieces kind) := by
  cases kind <;> rfl

variable {text : List Char} {accepts : Char → Bool}

theorem runs_range {least most : Nat} : Piece.runs ⟨accepts, least, some most⟩ text = true ↔
      least ≤ text.length ∧ text.length ≤ most ∧ text.all accepts = true := by
  simp [Piece.runs, and_assoc]

theorem runs_plus : Piece.runs ⟨accepts, 1, none⟩ text = true ↔ text ≠ [] ∧ text.all accepts = true := by
  simp [Piece.runs, Nat.one_le_iff_ne_zero, List.length_eq_zero_iff]

theorem matchesAll_single {piece : Piece} : matchesAll [piece] text = true ↔ piece.runs text = true := by
  rw [matchesAll_cons]
  constructor
  · rintro ⟨part, rest, rfl, hpart, hrest⟩
    rw [matchesAll_nil.mp hrest, List.append_nil]
    exact hpart
  · intro hruns
    exact ⟨text, [], by simp, hruns, rfl⟩

theorem matchesAll_suffixPieces (kind : WorkloadKind) (chars : List Char) :
    matchesAll (suffixPieces kind) chars = true ↔ IsSuffix kind chars := by
  have htail : ∀ text, Piece.runs ⟨isSuffixChar, 5, some 5⟩ text = true ↔ IsTail text := by
    intro text
    rw [runs_range, ← and_assoc]
    exact and_congr_left' ⟨fun h => le_antisymm h.2 h.1, fun h => ⟨h.ge, h.le⟩⟩
  cases kind with
  | deployment =>
    unfold suffixPieces IsSuffix
    rw [matchesAll_literal]
    constructor
    · rintro ⟨rest, rfl, hrest⟩
      obtain ⟨hash, rest, rfl, hhash, hrest⟩ := matchesAll_cons.mp hrest
      obtain ⟨tail, rfl, hlast⟩ := matchesAll_literal.mp hrest
      exact ⟨hash, tail, rfl, runs_range.mp hhash, (htail tail).mp (matchesAll_single.mp hlast)⟩
    · rintro ⟨hash, tail, rfl, hhash, hrest⟩
      refine ⟨hash ++ '-' :: tail, rfl, matchesAll_cons.mpr ⟨hash, '-' :: tail, rfl, runs_range.mpr hhash, ?_⟩⟩
      exact matchesAll_literal.mpr ⟨tail, rfl, matchesAll_single.mpr ((htail tail).mpr hrest)⟩
  | statefulSet =>
    unfold suffixPieces IsSuffix
    rw [matchesAll_literal]
    simp only [matchesAll_single, runs_plus, IsOrdinal]
  | other =>
    unfold suffixPieces IsSuffix
    rw [matchesAll_literal]
    simp only [matchesAll_single, htail]

theorem dash_notMem (hdash : accepts '-' = false) (hall : text.all accepts = true) : '-' ∉ text := by
  intro hmem
  have haccepts := List.all_eq_true.mp hall '-' hmem
  rw [hdash] at haccepts
  cases haccepts

theorem IsHash.dash_notMem {hash : List Char} (h : IsHash hash) : '-' ∉ hash :=
  Kubernetes.dash_notMem (by decide) h.2.2

theorem IsTail.dash_notMem {tail : List Char} (h : IsTail tail) : '-' ∉ tail :=
  Kubernetes.dash_notMem (by decide) h.2

theorem IsOrdinal.dash_notMem {ordinal : List Char} (h : IsOrdinal ordinal) : '-' ∉ ordinal :=
  Kubernetes.dash_notMem (by decide) h.2

theorem split_at_last {a b s t : List Char} {c : Char} (hs : c ∉ s) (ht : c ∉ t) (h : a ++ c :: s = b ++ c :: t) :
    a = b ∧ s = t := by
  rcases List.append_eq_append_iff.mp h with ⟨m, hb, hrest⟩ | ⟨m, ha, hrest⟩
  · cases m with
    | nil => exact ⟨by rw [hb, List.append_nil], (List.cons.inj hrest).2⟩
    | cons d m =>
      have hsplit := (List.cons.inj hrest).2
      exact absurd (by rw [hsplit]; simp) hs
  · cases m with
    | nil => exact ⟨by rw [ha, List.append_nil], (List.cons.inj hrest).2.symm⟩
    | cons d m =>
      have hsplit := (List.cons.inj hrest).2
      exact absurd (by rw [hsplit]; simp) ht

theorem IsSuffix.unique {kind : WorkloadKind} {a b s t : List Char} (hs : IsSuffix kind s) (ht : IsSuffix kind t)
    (h : a ++ s = b ++ t) : a = b := by
  cases kind with
  | deployment =>
    obtain ⟨hash, tail, rfl, hhash, htail⟩ := hs
    obtain ⟨hash', tail', rfl, hhash', htail'⟩ := ht
    rw [← List.append_assoc, ← List.append_assoc] at h
    obtain ⟨hfirst, -⟩ := split_at_last htail.dash_notMem htail'.dash_notMem h
    exact (split_at_last hhash.dash_notMem hhash'.dash_notMem hfirst).1
  | statefulSet =>
    obtain ⟨ordinal, rfl, hordinal⟩ := hs
    obtain ⟨ordinal', rfl, hordinal'⟩ := ht
    exact (split_at_last hordinal.dash_notMem hordinal'.dash_notMem h).1
  | other =>
    obtain ⟨tail, rfl, htail⟩ := hs
    obtain ⟨tail', rfl, htail'⟩ := ht
    exact (split_at_last htail.dash_notMem htail'.dash_notMem h).1

/-- A pod has a name and the suffix of a kind. -/
def Named (kind : WorkloadKind) (pod name : String) : Prop :=
  name ≠ "" ∧ ∃ suffix, pod.toList = name.toList ++ suffix ∧ IsSuffix kind suffix

/-- The characters of a pod's name are those of names. -/
def IsName (pod : String) : Prop := ∀ c ∈ pod.toList, isNameChar c = true

section Names

variable {pod name : String} {kind : WorkloadKind}

theorem isRegExpDot_of_isNameChar {c : Char} (hc : isNameChar c = true) : isRegExpDot c = true := by
  have hne : ∀ d, isNameChar d = false → c ≠ d := by
    rintro d hd rfl
    rw [hc] at hd
    cases hd
  simp only [isRegExpDot, decide_eq_true_eq, List.mem_cons, List.not_mem_nil, or_false, not_or]
  exact ⟨hne _ (by decide), hne _ (by decide), hne _ (by decide), hne _ (by decide)⟩

theorem firstGroup_eq_some_iff (hpod : IsName pod) :
    firstGroup ("^(.+)" ++ kind.suffix ++ "$") pod = some name ↔ Named kind pod name := by
  have hunique : ∀ a b a' b', pod.toList = a ++ b → pod.toList = a' ++ b' →
      Piece.runs ⟨isRegExpDot, 1, none⟩ a = true → Piece.runs ⟨isRegExpDot, 1, none⟩ a' = true →
      matchesAll (suffixPieces kind) b = true → matchesAll (suffixPieces kind) b' = true → a = a' := by
    intro a b a' b' hab hab' _ _ hb hb'
    exact IsSuffix.unique ((matchesAll_suffixPieces kind b).mp hb) ((matchesAll_suffixPieces kind b').mp hb')
      (hab.symm.trans hab')
  unfold firstGroup
  rw [groupPieces_suffix, Option.bind_some, Option.map_eq_some_iff]
  constructor
  · rintro ⟨part, hpart, rfl⟩
    obtain ⟨rest, htext, hruns, hrest⟩ := (captureFirst_eq_some_iff hunique).mp hpart
    refine ⟨?_, rest, ?_, (matchesAll_suffixPieces kind rest).mp hrest⟩
    · intro hempty
      refine (runs_plus.mp hruns).1 ?_
      rw [← String.toList_ofList (l := part), hempty]
      rfl
    · rw [String.toList_ofList, htext]
  · rintro ⟨hname, suffix, htext, hsuffix⟩
    refine ⟨name.toList, (captureFirst_eq_some_iff hunique).mpr ⟨suffix, htext, ?_, ?_⟩, String.ofList_toList⟩
    · refine runs_plus.mpr ⟨?_, List.all_eq_true.mpr fun c hc => ?_⟩
      · intro hempty
        exact hname (String.toList_inj.mp hempty)
      · exact isRegExpDot_of_isNameChar (hpod c (by rw [htext]; exact List.mem_append_left _ hc))
    · exact (matchesAll_suffixPieces kind suffix).mpr hsuffix

theorem firstGroup_eq_none_iff (hpod : IsName pod) :
    firstGroup ("^(.+)" ++ kind.suffix ++ "$") pod = none ↔ ∀ name, ¬ Named kind pod name := by
  rw [Option.eq_none_iff_forall_ne_some]
  exact forall_congr' fun name => not_congr (firstGroup_eq_some_iff hpod)

def earlierKinds : WorkloadKind → List WorkloadKind
  | .deployment => []
  | .statefulSet => [.deployment]
  | .other => [.deployment, .statefulSet]

theorem workloadOf_eq_some_iff (hpod : IsName pod) : workloadOf pod = some ⟨name, kind⟩ ↔
    Named kind pod name ∧ ∀ earlier ∈ earlierKinds kind, ∀ other, ¬ Named earlier pod other := by
  have hnone : ∀ kind, (∀ other, ¬ Named kind pod other) ↔ firstGroup ("^(.+)" ++ kind.suffix ++ "$") pod = none :=
    fun kind => (firstGroup_eq_none_iff hpod).symm
  rw [← firstGroup_eq_some_iff hpod]
  simp only [hnone]
  unfold workloadOf
  simp only [List.findSome?_cons, List.findSome?_nil]
  cases hdeployment : firstGroup ("^(.+)" ++ WorkloadKind.deployment.suffix ++ "$") pod with
  | some first => cases kind <;> simp [earlierKinds, hdeployment]
  | none =>
    cases hstateful : firstGroup ("^(.+)" ++ WorkloadKind.statefulSet.suffix ++ "$") pod with
    | some first => cases kind <;> simp [earlierKinds, hdeployment, hstateful]
    | none =>
      cases hother : firstGroup ("^(.+)" ++ WorkloadKind.other.suffix ++ "$") pod with
      | some first => cases kind <;> simp [earlierKinds, hdeployment, hstateful, hother]
      | none => cases kind <;> simp [earlierKinds, hdeployment, hstateful, hother]

end Names

theorem grepSelects_podsPattern {workload : Workload} (hname : IsName workload.name) (hne : workload.name ≠ "")
    (pod : String) :
    grepSelects (podsPattern workload) ("pod/" ++ pod) = true ↔ Named workload.kind pod workload.name := by
  have hchars : ∀ c ∈ ['p', 'o', 'd', '/'] ++ workload.name.toList, isPlain c = true ∨ c = '.' := by
    have hplain : ∀ c ∈ ['p', 'o', 'd', '/'], isPlain c = true := List.all_eq_true.mp (by decide)
    intro c hc
    rcases List.mem_append.mp hc with hfirst | hrest
    · exact .inl (hplain c hfirst)
    · have hc' := hname c hrest
      simp only [isNameChar, Bool.or_eq_true, decide_eq_true_eq] at hc'
      have halphanum : c.isAlphanum = (c.isUpper || c.isLower || c.isDigit) := rfl
      simp only [isPlain, halphanum, Bool.or_eq_true, decide_eq_true_eq]
      rcases hc' with ((h | h) | h) | h <;> simp only [h, true_or, or_true]
  have hpattern : (podsPattern workload).toList =
      '^' :: ((['p', 'o', 'd', '/'] ++ workload.name.toList).flatMap fun c =>
      if c = '.' then ['\\', '.'] else [c]) ++ (workload.kind.suffix.toList ++ ['$']) := by
    simp [podsPattern, workloadPattern, replaceChar, String.toList_append]
  have hpieces : patternPieces (fun _ => true) (podsPattern workload).toList =
      some ((['p', 'o', 'd', '/'] ++ workload.name.toList).map .literal ++ suffixPieces workload.kind) := by
    rw [hpattern]
    refine (readPieces_escapeDots hchars (by simp)).trans ?_
    rw [readPieces_suffix, List.append_nil, List.reverse_reverse]
  unfold grepSelects
  rw [hpieces, Option.any_some, matchesAll_literals]
  unfold Named
  constructor
  · rintro ⟨rest, htext, hrest⟩
    refine ⟨hne, rest, ?_, (matchesAll_suffixPieces _ _).mp hrest⟩
    rw [String.toList_append, List.append_assoc] at htext
    exact List.append_cancel_left htext
  · rintro ⟨-, suffix, htext, hsuffix⟩
    refine ⟨suffix, ?_, (matchesAll_suffixPieces _ _).mpr hsuffix⟩
    rw [String.toList_append, htext, List.append_assoc]
    rfl

/-- The pod has the name of the workload and five digits, which are read as the ordinal of a stateful set; or
the workload is one, and the end of its name and the ordinal are read as the hash and the tail of a deployment. -/
def Mistaken (workload : Workload) (pod : String) : Prop :=
  ∃ digits, pod.toList = workload.name.toList ++ '-' :: digits ∧ digits.length = 5 ∧
    digits.all isOrdinalChar = true ∧
    match workload.kind with
    | .deployment => False
    | .statefulSet => ∃ stem hash, workload.name.toList = stem ++ '-' :: hash ∧ stem ≠ [] ∧ IsHash hash
    | .other => True

section Agreement

variable {p q : String} {workload : Workload}

theorem isSuffixChar_of_isOrdinalChar {c : Char} (hc : isOrdinalChar c = true) : isSuffixChar c = true := by
  simp only [isOrdinalChar, isSuffixChar, classOf, Bool.or_eq_true] at hc ⊢
  tauto

theorem isTail_of_digits {digits : List Char} (hlength : digits.length = 5)
    (hdigits : digits.all isOrdinalChar = true) : IsTail digits ∧ IsOrdinal digits := by
  refine ⟨⟨hlength, List.all_eq_true.mpr fun c hc => ?_⟩, ?_, hdigits⟩
  · exact isSuffixChar_of_isOrdinalChar (List.all_eq_true.mp hdigits c hc)
  · rintro rfl
    cases hlength

/-- A deployment's pod that is a stateful set's too: its tail is digits, and the hash is the end of the name. -/
theorem mistaken_statefulSet_iff {name : String} (hname : name ≠ "") :
    (Named .statefulSet p name ∧ ∃ other, Named .deployment p other) ↔ Mistaken ⟨name, .statefulSet⟩ p := by
  constructor
  · rintro ⟨⟨-, suffix, hp, ordinal, rfl, hordinal⟩, other, hother, suffix', hp', hash, tail, rfl, hhash, htail⟩
    rw [hp, ← List.append_assoc] at hp'
    obtain ⟨hsplit, rfl⟩ := split_at_last hordinal.dash_notMem htail.dash_notMem hp'
    refine ⟨ordinal, hp, htail.1, hordinal.2, other.toList, hash, hsplit, ?_, hhash⟩
    intro hempty
    exact hother (String.toList_inj.mp hempty)
  · rintro ⟨digits, hp, hlength, hdigits, stem, hash, hsplit, hstem, hhash⟩
    obtain ⟨htail, hordinal⟩ := isTail_of_digits hlength hdigits
    refine ⟨⟨hname, _, hp, digits, rfl, hordinal⟩, String.ofList stem, ?_, '-' :: hash ++ '-' :: digits, ?_, hash,
      digits, rfl, hhash, htail⟩
    · intro hempty
      refine hstem ?_
      rw [← String.toList_ofList (l := stem), hempty]
      rfl
    · rw [hp, hsplit, String.toList_ofList, List.append_assoc]

theorem mistaken_other_iff {name : String} (hname : name ≠ "") :
    (Named .other p name ∧ ∃ other, Named .statefulSet p other) ↔ Mistaken ⟨name, .other⟩ p := by
  constructor
  · rintro ⟨⟨-, suffix, hp, tail, rfl, htail⟩, other, -, suffix', hp', ordinal, rfl, hordinal⟩
    rw [hp] at hp'
    obtain ⟨-, rfl⟩ := split_at_last htail.dash_notMem hordinal.dash_notMem hp'
    exact ⟨tail, hp, htail.1, hordinal.2, trivial⟩
  · rintro ⟨digits, hp, hlength, hdigits, -⟩
    obtain ⟨htail, hordinal⟩ := isTail_of_digits hlength hdigits
    exact ⟨⟨hname, _, hp, digits, rfl, htail⟩, name, hname, _, hp, digits, rfl, hordinal⟩

theorem not_deployment_of_other {name : String} (hq : Named .other q name)
    (hnone : ∀ other, ¬ Named .deployment q other) (hp : Named .other p name) (other : String) :
    ¬ Named .deployment p other := by
  rintro ⟨hother, suffix', hp', hash, tail', rfl, hhash, htail'⟩
  obtain ⟨-, suffix, hp, tail, rfl, htail⟩ := hp
  obtain ⟨-, suffix, hq, tailq, rfl, htailq⟩ := hq
  rw [hp, ← List.append_assoc] at hp'
  obtain ⟨hsplit, -⟩ := split_at_last htail.dash_notMem htail'.dash_notMem hp'
  refine hnone other ⟨hother, '-' :: hash ++ '-' :: tailq, ?_, hash, tailq, rfl, hhash, htailq⟩
  rw [hq, hsplit, List.append_assoc]

/-- **Grouping and fetching agree** on whether a pod is of the workload of another, unless it is mistaken. -/
theorem grepSelects_iff_workloadOf (hp : IsName p) (hq : IsName q) (hworkload : workloadOf q = some workload) :
    (grepSelects (podsPattern workload) ("pod/" ++ p) = true ↔ workloadOf p = some workload) ↔
      ¬ Mistaken workload p := by
  obtain ⟨name, kind⟩ := workload
  obtain ⟨hnamed, hearlier⟩ := (workloadOf_eq_some_iff hq).mp hworkload
  have ⟨hne, _, htext, _⟩ := hnamed
  have hname : IsName name := fun c hc => hq c (by rw [htext]; exact List.mem_append_left _ hc)
  rw [grepSelects_podsPattern hname hne, workloadOf_eq_some_iff hp]
  cases kind with
  | deployment =>
    have hmistaken : ¬ Mistaken ⟨name, .deployment⟩ p := by
      rintro ⟨digits, -, -, -, hfalse⟩
      exact hfalse
    simp [earlierKinds, hmistaken]
  | statefulSet =>
    rw [← mistaken_statefulSet_iff hne]
    simp only [earlierKinds, List.mem_singleton, forall_eq, iff_self_and, not_and, not_exists]
  | other =>
    rw [← mistaken_other_iff hne]
    have hdeployment : Named .other p name → ∀ other, ¬ Named .deployment p other :=
      not_deployment_of_other hnamed (hearlier .deployment (by simp [earlierKinds]))
    have hearlier' : (∀ earlier ∈ earlierKinds .other, ∀ other, ¬ Named earlier p other) ↔
        (∀ other, ¬ Named .deployment p other) ∧ ∀ other, ¬ Named .statefulSet p other := by
      simp [earlierKinds]
    rw [hearlier', iff_self_and, not_and, not_exists]
    exact forall_congr' fun hother => and_iff_right (hdeployment hother)

theorem grepSelects_iff_workloadOf_fluentd :
    (grepSelects (podsPattern ⟨"fluentd", .other⟩) "pod/fluentd-9x8bz" = true ↔
        workloadOf "fluentd-9x8bz" = some ⟨"fluentd", .other⟩) ↔ ¬ Mistaken ⟨"fluentd", .other⟩ "fluentd-9x8bz" := by
  refine grepSelects_iff_workloadOf (p := "fluentd-9x8bz") (q := "fluentd-x7k2p") ?_ ?_ ?_
  · exact List.all_eq_true.mp (by decide)
  · exact List.all_eq_true.mp (by decide)
  · decide

/-- A pod of a daemon set whose tail is digits: its logs are fetched with the others', but it is listed as the pod
of a stateful set. -/
theorem grepSelects_mistaken : workloadOf "fluentd-x7k2p" = some ⟨"fluentd", .other⟩ ∧
    grepSelects (podsPattern ⟨"fluentd", .other⟩) "pod/fluentd-24567" = true ∧
    workloadOf "fluentd-24567" = some ⟨"fluentd", .statefulSet⟩ := by
  decide

end Agreement

end Portix.Kubernetes
