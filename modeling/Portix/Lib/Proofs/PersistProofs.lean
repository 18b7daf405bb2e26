import Portix.Lib.Persist

/-!
# What survives of memory that is written to a file

As long as the file is rewritten by one call at a time, none of them with a text older than one that
was written, the file holds a memory that there was, with all changes that had completed.
-/

namespace Portix.Lib.Persist

variable {σ κ : Type}

@[simp] theorem changes_nil : changes ([] : List (Obs σ)) = [] := rfl

@[simp] theorem changes_append (h1 h2 : List (Obs σ)) :
    changes (h1 ++ h2) = changes h1 ++ changes h2 := List.filterMap_append

@[simp] theorem changes_changed (call : Nat) (memory : σ) : changes [.changed call memory] = [(call, memory)] := rfl

@[simp] theorem changes_completed (call : Nat) : changes [(.completed call : Obs σ)] = [] := rfl

theorem exists_split_changes (h : List (Obs σ)) :
    ∀ n, n ≤ (changes h).length → ∃ h1 h2, h = h1 ++ h2 ∧ changes h1 = (changes h).take n := by
  induction h with
  | nil =>
    intro n _
    exact ⟨[], [], rfl, by simp⟩
  | cons x rest ih =>
    intro n hn
    cases x with
    | completed call =>
      obtain ⟨h1, h2, rfl, htake⟩ := ih n hn
      exact ⟨.completed call :: h1, h2, rfl, htake⟩
    | changed call memory =>
      cases n with
      | zero => exact ⟨[], .changed call memory :: rest, rfl, by simp⟩
      | succ n =>
        have hlength : n ≤ (changes rest).length := Nat.le_of_succ_le_succ hn
        obtain ⟨h1, h2, rfl, htake⟩ := ih n hlength
        refine ⟨.changed call memory :: h1, h2, rfl, ?_⟩
        show (call, memory) :: changes h1 = ((call, memory) :: changes (h1 ++ h2)).take (n + 1)
        rw [htake, List.take_succ_cons]

variable {n own : Nat}

theorem mem_of_mem_changes {h : List (Obs σ)} {call : Nat} {memory : σ}
    (hmem : (call, memory) ∈ changes h) : .changed call memory ∈ h := by
  obtain ⟨x, hx, heq⟩ := List.mem_filterMap.mp hmem
  cases x with
  | changed call' memory' =>
    cases heq
    exact hx
  | completed call' => cases heq

def memoryAt (first : σ) (h : List (Obs σ)) (version : Nat) : σ :=
  memoryAfter first ((changes h).take version)

/-- A call's own change is the one with its number. -/
def ChangedAt (h : List (Obs σ)) (call version : Nat) : Prop :=
  0 < version ∧ version ≤ (changes h).length ∧
    ∃ memory, (changes h)[version - 1]? = some (call, memory)

section Histories

variable {first : σ} {h o : List (Obs σ)} {call version : Nat}

theorem memoryAt_append (hle : version ≤ (changes h).length) :
    memoryAt first (h ++ o) version = memoryAt first h version := by
  unfold memoryAt
  rw [changes_append, List.take_append_of_le_length hle]

theorem ChangedAt.append (hchanged : ChangedAt h call version) : ChangedAt (h ++ o) call version := by
  obtain ⟨hpos, hle, memory, hget⟩ := hchanged
  refine ⟨hpos, ?_, memory, ?_⟩
  · rw [changes_append, List.length_append]
    omega
  · rw [changes_append, List.getElem?_append_left (by omega)]
    exact hget

theorem ChangedAt.mem_take (hchanged : ChangedAt h call version) (hle : version ≤ n) :
    ∃ memory, (call, memory) ∈ (changes h).take n := by
  obtain ⟨hpos, _, memory, hget⟩ := hchanged
  refine ⟨memory, ?_⟩
  apply List.mem_of_getElem? (i := version - 1)
  rw [List.getElem?_take_of_lt (by omega)]
  exact hget

end Histories

def Knows (text : σ → List UInt8) (first : σ) (h : List (Obs σ)) (i : Nat) : Call κ → Prop
  | .waiting _ => True
  | .changed version => ChangedAt h i version
  | .encoded version textVersion bytes => ChangedAt h i version ∧ version ≤ textVersion ∧
      textVersion ≤ (changes h).length ∧ bytes = text (memoryAt first h textVersion)
  | .writing version textVersion done rest => ChangedAt h i version ∧ version ≤ textVersion ∧
      textVersion ≤ (changes h).length ∧ done ++ rest = text (memoryAt first h textVersion)
  | .written version => ChangedAt h i version
  | .completed version => ChangedAt h i version
  | .refused => True

/-- The file is being rewritten by one call, or it gives back the memory after `version` changes. -/
def FileHolds (Reads : Option (List UInt8) → σ → Prop) (first : σ) (h : List (Obs σ))
    (s : Store σ κ) (version : Nat) : Prop :=
  (∃ i own done rest, s.At i (.writing own version done rest) ∧ s.file = some done ∧
    ∀ j own' version' done' rest', s.At j (.writing own' version' done' rest') → j = i) ∨
  (¬s.Torn ∧ Reads s.file (memoryAt first h version))

structure Inv (text : σ → List UInt8) (Good : σ → Prop) (usable : κ → Prop)
    (Reads : Option (List UInt8) → σ → Prop) (first : σ) (h : List (Obs σ)) (s : Store σ κ) : Prop where
  version : s.version = (changes h).length
  memory : s.memory = memoryAt first h s.version
  good : ∀ version ≤ s.version, Good (memoryAt first h version)
  knows : ∀ i call, s.At i call → Knows text first h i call
  waiting : ∀ i change, s.At i (.waiting change) → usable change
  completed : ∀ i, .completed i ∈ h → ∃ version, s.At i (.completed version)
  file : ∃ version ≤ s.version, (∀ j own, s.HasWritten j own → own ≤ version) ∧
    FileHolds Reads first h s version

section Steps

variable {apply : κ → σ → Option σ} {text : σ → List UInt8} {Good : σ → Prop} {usable : κ → Prop}
  {Reads : Option (List UInt8) → σ → Prop} {first : σ} {h o : List (Obs σ)} {s s' : Store σ κ}
  {i j : Nat} {call old new : Call κ}

theorem Knows.append (hknows : Knows text first h i call) : Knows text first (h ++ o) i call := by
  have hle : (changes h).length ≤ (changes (h ++ o)).length := by
    rw [changes_append, List.length_append]
    omega
  cases call with
  | waiting change => trivial
  | changed version => exact ChangedAt.append hknows
  | encoded version textVersion bytes =>
    obtain ⟨hchanged, hown, hbound, rfl⟩ := hknows
    exact ⟨hchanged.append, hown, hbound.trans hle, by rw [memoryAt_append hbound]⟩
  | writing version textVersion done rest =>
    obtain ⟨hchanged, hown, hbound, htext⟩ := hknows
    exact ⟨hchanged.append, hown, hbound.trans hle, by rw [memoryAt_append hbound, htext]⟩
  | written version => exact ChangedAt.append hknows
  | completed version => exact ChangedAt.append hknows
  | refused => trivial

theorem at_setCall (hold : s.At i old) : (s.setCall i new).At j call ↔ (j = i ∧ call = new) ∨ (j ≠ i ∧ s.At j call) :=
  getElem?_set_eq_some hold

theorem at_setCall_of_ne (hold : s.At i old) (hne : call ≠ old) (hne' : call ≠ new) :
    (s.setCall i new).At j call ↔ s.At j call :=
  getElem?_set_of_ne hold hne hne'

theorem at_unique (hold : s.At i old) (hnew : s.At i new) : old = new :=
  Option.some.inj (hold.symm.trans hnew)

def Quiet : Call κ → Prop
  | .waiting _ => True
  | .changed _ => True
  | .encoded _ _ _ => True
  | .refused => True
  | .writing _ _ _ _ => False
  | .written _ => False
  | .completed _ => False

theorem at_setCall_quiet (hold : s.At i old) (hquiet : Quiet old) (hquiet' : Quiet new)
    (hcall : ¬Quiet call) : (s.setCall i new).At j call ↔ s.At j call := by
  apply at_setCall_of_ne hold
  · rintro rfl
    exact hcall hquiet
  · rintro rfl
    exact hcall hquiet'

theorem hasWritten_setCall_quiet (hold : s.At i old) (hquiet : Quiet old) (hquiet' : Quiet new) :
    (s.setCall i new).HasWritten j own ↔ s.HasWritten j own :=
  or_congr (at_setCall_quiet hold hquiet hquiet' id) (at_setCall_quiet hold hquiet hquiet' id)

/-- The file clause of the invariant depends on who has written, who is writing, and the file. -/
theorem file_congr {version : Nat} (hfile : (∀ j own, s.HasWritten j own → own ≤ version) ∧
      FileHolds Reads first h s version) (hbound : version ≤ (changes h).length)
    (hwritten : ∀ j own, s'.HasWritten j own ↔ s.HasWritten j own)
    (hwriting : ∀ j own tv done rest, s'.At j (.writing own tv done rest) ↔ s.At j (.writing own tv done rest))
    (hsame : s'.file = s.file) :
    (∀ j own, s'.HasWritten j own → own ≤ version) ∧ FileHolds Reads first (h ++ o) s' version := by
  refine ⟨fun j own hj => hfile.1 j own ((hwritten j own).mp hj), ?_⟩
  rcases hfile.2 with ⟨i, own, done, rest, hat, hdone, hunique⟩ | ⟨htorn, hreads⟩
  · left
    refine ⟨i, own, done, rest, (hwriting ..).mpr hat, hsame.trans hdone, ?_⟩
    intro j own' version' done' rest' hj
    exact hunique j own' version' done' rest' ((hwriting ..).mp hj)
  · right
    rw [memoryAt_append hbound, hsame]
    refine ⟨?_, hreads⟩
    rintro ⟨j, own, version', done, rest, hj⟩
    exact htorn ⟨j, own, version', done, rest, (hwriting ..).mp hj⟩

theorem Inv.knows_setCall (hinv : Inv text Good usable Reads first h s) (hold : s.At i old)
    {h' : List (Obs σ)} (hgrows : ∀ j (call : Call κ), Knows text first h j call →
      Knows text first h' j call) (hnew : Knows text first h' i new) :
    ∀ j call, (s.setCall i new).At j call → Knows text first h' j call := by
  intro j call hj
  rcases (at_setCall hold).mp hj with ⟨rfl, rfl⟩ | ⟨_, hj⟩
  · exact hnew
  · exact hgrows j call (hinv.knows j call hj)

theorem Inv.waiting_setCall (hinv : Inv text Good usable Reads first h s) (hold : s.At i old)
    (hnew : ∀ change, new ≠ .waiting change) :
    ∀ j change, (s.setCall i new).At j (.waiting change) → usable change := by
  intro j change hj
  rcases (at_setCall hold).mp hj with ⟨_, hsame⟩ | ⟨_, hj⟩
  · exact absurd hsame.symm (hnew change)
  · exact hinv.waiting j change hj

theorem Inv.completed_setCall (hinv : Inv text Good usable Reads first h s) (hold : s.At i old)
    (hnot : ∀ version, old ≠ .completed version) :
    ∀ j, .completed j ∈ h → ∃ version, (s.setCall i new).At j (.completed version) := by
  intro j hj
  obtain ⟨version, hat⟩ := hinv.completed j hj
  refine ⟨version, (at_setCall hold).mpr (.inr ⟨?_, hat⟩)⟩
  rintro rfl
  exact hnot version (at_unique hold hat)

theorem Inv.setCall_quiet (hinv : Inv text Good usable Reads first h s) (hold : s.At i old)
    (hquiet : Quiet old) (hquiet' : Quiet new) (hnew : Knows text first (h ++ o) i new)
    (hnotWaiting : ∀ change, new ≠ .waiting change) (hnotCompleted : ∀ j, .completed j ∉ o)
    {memory : σ} {version : Nat} (hversion : version = (changes (h ++ o)).length)
    (hmemory : memory = memoryAt first (h ++ o) version)
    (hgood : ∀ n ≤ version, Good (memoryAt first (h ++ o) n)) :
    Inv text Good usable Reads first (h ++ o)
      ({ s with memory := memory, version := version }.setCall i new) where
  version := hversion
  memory := hmemory
  good := hgood
  knows := hinv.knows_setCall hold (fun _ _ => Knows.append) hnew
  waiting := hinv.waiting_setCall hold hnotWaiting
  completed := by
    intro j hj
    have hnot : ∀ n, old ≠ .completed n := by
      rintro n rfl
      exact hquiet
    rcases List.mem_append.mp hj with hbefore | hnow
    · exact hinv.completed_setCall hold hnot j hbefore
    · exact absurd hnow (hnotCompleted j)
  file := by
    obtain ⟨n, hn, hfile⟩ := hinv.file
    have hbound : n ≤ (changes h).length := by
      rw [← hinv.version]
      exact hn
    refine ⟨n, ?_, file_congr hfile hbound
      (fun j own => hasWritten_setCall_quiet hold hquiet hquiet')
      (fun j own tv done rest => at_setCall_quiet hold hquiet hquiet' id) rfl⟩
    show n ≤ version
    rw [hversion, changes_append, List.length_append]
    omega

theorem Inv.good_append (hinv : Inv text Good usable Reads first h s) (hn : n ≤ s.version) : Good
    (memoryAt first (h ++ o) n) := by
  rw [memoryAt_append (by rw [← hinv.version]; exact hn)]
  exact hinv.good n hn

theorem Inv.change_step (hinv : Inv text Good usable Reads first h s)
    (hkeeps : ∀ {change memory memory'}, usable change → Good memory →
      apply change memory = some memory' → Good memory') {change : κ}
    (hat : s.At i (.waiting change)) :
    Inv text Good usable Reads first (h ++ (s.change apply i change).2) (s.change apply i change).1 := by
  unfold Store.change
  cases happly : apply change s.memory with
  | none =>
    have hsame : (changes (h ++ ([] : List (Obs σ)))).length = s.version := by
      rw [List.append_nil, hinv.version]
    have hquiet : Quiet (.refused : Call κ) := trivial
    refine hinv.setCall_quiet hat trivial hquiet trivial (by simp) (by simp) hsame.symm ?_ ?_
    · rw [List.append_nil]
      exact hinv.memory
    · intro n hn
      exact hinv.good_append hn
  | some memory =>
    have hlength : (changes (h ++ [.changed i memory])).length = s.version + 1 := by
      rw [changes_append, List.length_append, ← hinv.version]
      rfl
    have hnow : memoryAt first (h ++ [.changed i memory]) (s.version + 1) = memory := by
      unfold memoryAt memoryAfter
      rw [List.take_of_length_le (by omega), changes_append, changes_changed, List.getLast?_concat]
      rfl
    have hchanged : ChangedAt (h ++ [.changed i memory]) i (s.version + 1) := by
      refine ⟨by omega, by omega, memory, ?_⟩
      rw [changes_append, changes_changed, Nat.add_sub_cancel, hinv.version]
      exact List.getElem?_concat_length
    have hquiet : Quiet (.changed (s.version + 1) : Call κ) := trivial
    refine hinv.setCall_quiet hat trivial hquiet hchanged (by simp) (by simp) hlength.symm hnow.symm ?_
    intro n hn
    rcases Nat.lt_or_ge s.version n with hlt | hle
    · have hlast : n = s.version + 1 := by omega
      rw [hlast, hnow]
      have hbefore : Good s.memory := by
        rw [hinv.memory]
        exact hinv.good s.version (Nat.le_refl _)
      exact hkeeps (hinv.waiting i change hat) hbefore happly
    · exact hinv.good_append hle

theorem Inv.encode_step (hinv : Inv text Good usable Reads first h s) {version : Nat}
    (hat : s.At i (.changed version)) :
    Inv text Good usable Reads first (h ++ []) (s.setCall i (.encoded version s.version (text s.memory))) := by
  have hsame : s.version = (changes (h ++ ([] : List (Obs σ)))).length := by
    rw [List.append_nil, hinv.version]
  have hmemory : s.memory = memoryAt first (h ++ []) s.version := by
    rw [List.append_nil]
    exact hinv.memory
  have hchanged : ChangedAt (h ++ []) i version := ChangedAt.append (hinv.knows i _ hat)
  have hbound : version ≤ s.version := by
    rw [hsame]
    exact hchanged.2.1
  have hknows : Knows text first (h ++ []) i (.encoded version s.version (text s.memory) : Call κ) :=
    ⟨hchanged, hbound, hsame.le, by rw [← hmemory]⟩
  have hquiet : Quiet (.encoded version s.version (text s.memory) : Call κ) := trivial
  exact hinv.setCall_quiet hat trivial hquiet hknows (by simp) (by simp) hsame hmemory
    (fun n hn => hinv.good_append hn)

theorem Inv.good_of_length (hinv : Inv text Good usable Reads first h s) (hn : n ≤ (changes h).length) : Good
    (memoryAt first h n) :=
  hinv.good n (by rw [hinv.version]; exact hn)

theorem Inv.truncate_step (hinv : Inv text Good usable Reads first h s) {version : Nat}
    {bytes : List UInt8} (hat : s.At i (.encoded own version bytes))
    (horderly : s.Orderly usable (.truncate i)) :
    Inv text Good usable Reads first h
      ({ s with file := some [] }.setCall i (.writing own version [] bytes)) := by
  obtain ⟨hnotTorn, hnewest⟩ := horderly
  obtain ⟨hchanged, hown, hbound, hbytes⟩ := hinv.knows i _ hat
  refine ⟨hinv.version, hinv.memory, hinv.good, hinv.knows_setCall hat (fun _ _ => id) ⟨hchanged, hown, hbound, hbytes⟩,
    hinv.waiting_setCall hat (by simp), hinv.completed_setCall hat (by simp), version, ?_, ?_, .inl ?_⟩
  · rw [← hinv.version] at hbound
    exact hbound
  · intro j written hj
    have hbefore : s.HasWritten j written := by
      rcases hj with hj | hj
      · exact .inl ((at_setCall_of_ne hat (by simp) (by simp)).mp hj)
      · exact .inr ((at_setCall_of_ne hat (by simp) (by simp)).mp hj)
    exact hnewest j written hbefore own version bytes hat
  · refine ⟨i, own, [], bytes, (at_setCall hat).mpr (.inl ⟨rfl, rfl⟩), rfl, ?_⟩
    intro j own' version' done' rest' hj
    rcases (at_setCall hat).mp hj with ⟨hsame, _⟩ | ⟨_, hj⟩
    · exact hsame
    · exact absurd ⟨j, own', version', done', rest', hj⟩ hnotTorn

theorem Inv.of_writing (hinv : Inv text Good usable Reads first h s) {version : Nat}
    {done rest : List UInt8} (hat : s.At i (.writing own version done rest)) :
    s.file = some done ∧ (∀ j written, s.HasWritten j written → written ≤ version) ∧
      ∀ j own' version' done' rest', s.At j (.writing own' version' done' rest') → j = i := by
  obtain ⟨n, _, hwritten, hfile⟩ := hinv.file
  rcases hfile with ⟨k, own', done', rest', hk, hdone, hunique⟩ | ⟨htorn, _⟩
  · have hsame := hunique i own version done rest hat
    rw [hsame] at hat
    cases at_unique hk hat
    rw [hsame]
    exact ⟨hdone, hwritten, hunique⟩
  · exact absurd ⟨i, own, version, done, rest, hat⟩ htorn

theorem Inv.piece_step (hinv : Inv text Good usable Reads first h s)
    (hreads : ∀ memory, Good memory → Reads (some (text memory)) memory) {version length : Nat}
    {done rest : List UInt8} (hat : s.At i (.writing own version done rest)) :
    Inv text Good usable Reads first h (s.piece i own version done rest length) := by
  obtain ⟨hfile, hwritten, hunique⟩ := hinv.of_writing hat
  obtain ⟨hchanged, hown, hbound, htext⟩ := hinv.knows i _ hat
  have hcontent : writeAt (s.file.getD []) done.length (rest.take length) =
      done ++ rest.take length := by
    rw [hfile]
    exact writeAt_length _ _
  have hle : version ≤ s.version := by
    rw [hinv.version]
    exact hbound
  have hothers : ∀ (new : Call κ), (∀ n, new ≠ .completed n) →
      (∀ n, new = .written n → n ≤ version) →
      ∀ j written, (s.setCall i new).HasWritten j written → written ≤ version := by
    intro new hnotCompleted hnew j written hj
    rcases hj with hj | hj
    · rcases (at_setCall hat).mp hj with ⟨_, hsame⟩ | ⟨_, hj⟩
      · exact hnew written hsame.symm
      · exact hwritten j written (.inl hj)
    · rcases (at_setCall hat).mp hj with ⟨_, hsame⟩ | ⟨_, hj⟩
      · exact absurd hsame.symm (hnotCompleted written)
      · exact hwritten j written (.inr hj)
  unfold Store.piece
  simp only [hcontent]
  by_cases hlast : rest.drop length = []
  · -- the last piece: the file holds the whole text
    have hall : rest.take length = rest := by
      have hboth := List.take_append_drop length rest
      rwa [hlast, List.append_nil] at hboth
    simp only [if_pos hlast, hall]
    refine ⟨hinv.version, hinv.memory, hinv.good, hinv.knows_setCall hat (fun _ _ => id) hchanged,
      hinv.waiting_setCall hat (by simp), hinv.completed_setCall hat (by simp), version, hle,
      hothers _ (by simp) ?_, .inr ⟨?_, ?_⟩⟩
    · intro n hn
      rw [← Call.written.inj hn]
      exact hown
    · rintro ⟨j, own', version', done', rest', hj⟩
      rcases (at_setCall hat).mp hj with ⟨_, hsame⟩ | ⟨hne, hj⟩
      · cases hsame
      · exact hne (hunique j own' version' done' rest' hj)
    · show Reads (some (done ++ rest)) (memoryAt first h version)
      rw [htext]
      exact hreads _ (hinv.good_of_length hbound)
  · simp only [if_neg hlast]
    have hnext : (done ++ rest.take length) ++ rest.drop length = text (memoryAt first h version) := by
      rw [List.append_assoc, List.take_append_drop, htext]
    refine ⟨hinv.version, hinv.memory, hinv.good,
      hinv.knows_setCall hat (fun _ _ => id) ⟨hchanged, hown, hbound, hnext⟩,
      hinv.waiting_setCall hat (by simp), hinv.completed_setCall hat (by simp), version, hle,
      hothers _ (by simp) (by simp), .inl ?_⟩
    refine ⟨i, own, _, _, (at_setCall hat).mpr (.inl ⟨rfl, rfl⟩), rfl, ?_⟩
    intro j own' version' done' rest' hj
    rcases (at_setCall hat).mp hj with ⟨hsame, _⟩ | ⟨_, hj⟩
    · exact hsame
    · exact hunique j own' version' done' rest' hj

theorem Inv.close_step (hinv : Inv text Good usable Reads first h s) (hat : s.At i (.written own)) :
    Inv text Good usable Reads first (h ++ [.completed i]) (s.setCall i (.completed own)) := by
  have hchanged : ChangedAt h i own := hinv.knows i _ hat
  have hsame : (changes (h ++ [.completed i])).length = s.version := by
    rw [changes_append, changes_completed, List.append_nil, hinv.version]
  have hmemory : ∀ n, memoryAt first (h ++ [.completed i]) n = memoryAt first h n := by
    intro n
    unfold memoryAt
    rw [changes_append, changes_completed, List.append_nil]
  refine ⟨hsame.symm, ?_, ?_, hinv.knows_setCall hat (fun _ _ => Knows.append) hchanged.append,
    hinv.waiting_setCall hat (by simp), ?_, ?_⟩
  · rw [hmemory]
    exact hinv.memory
  · intro n hn
    rw [hmemory]
    exact hinv.good n hn
  · intro j hj
    by_cases hji : j = i
    · exact ⟨own, (at_setCall hat).mpr (.inl ⟨hji, rfl⟩)⟩
    · have hbefore : .completed j ∈ h := by
        rcases List.mem_append.mp hj with hbefore | hnow
        · exact hbefore
        · exact absurd (Obs.completed.inj (List.mem_singleton.mp hnow)) hji
      obtain ⟨version, hold⟩ := hinv.completed j hbefore
      exact ⟨version, (at_setCall hat).mpr (.inr ⟨hji, hold⟩)⟩
  · obtain ⟨n, hn, hfile⟩ := hinv.file
    refine ⟨n, hn, file_congr hfile (by rw [← hinv.version]; exact hn) ?_ ?_ rfl⟩
    · intro j written
      unfold Store.HasWritten
      rw [at_setCall hat, at_setCall hat]
      by_cases hji : j = i
      · subst hji
        constructor
        · rintro ((⟨_, hcall⟩ | ⟨hne, _⟩) | ⟨_, hcall⟩ | ⟨hne, _⟩)
          · cases hcall
          · exact absurd rfl hne
          · rw [Call.completed.inj hcall]
            exact .inl hat
          · exact absurd rfl hne
        · rintro (hj | hj)
          · rw [Call.written.inj (at_unique hat hj)]
            exact .inr (.inl ⟨rfl, rfl⟩)
          · cases at_unique hat hj
      · simp [hji]
    · intro j own' version done rest
      rw [at_setCall hat]
      constructor
      · rintro (⟨_, hcall⟩ | ⟨_, hj⟩)
        · cases hcall
        · exact hj
      · intro hj
        refine .inr ⟨?_, hj⟩
        rintro rfl
        cases at_unique hat hj

theorem Inv.call_step (hinv : Inv text Good usable Reads first h s) {change : κ} (husable : usable change) :
    Inv text Good usable Reads first h { s with calls := s.calls ++ [.waiting change] } := by
  have hat : ∀ j call, ({ s with calls := s.calls ++ [.waiting change] } : Store σ κ).At j call ↔
      s.At j call ∨ (j = s.calls.length ∧ call = .waiting change) := by
    intro j call
    exact getElem?_concat_eq_some
  obtain ⟨n, hn, hwritten, hfile⟩ := hinv.file
  refine ⟨hinv.version, hinv.memory, hinv.good, ?_, ?_, ?_, n, hn, ?_, ?_⟩
  · intro j call hj
    rcases (hat j call).mp hj with hj | ⟨_, rfl⟩
    · exact hinv.knows j call hj
    · trivial
  · intro j change' hj
    rcases (hat j _).mp hj with hj | ⟨_, hsame⟩
    · exact hinv.waiting j change' hj
    · rw [Call.waiting.inj hsame]
      exact husable
  · intro j hj
    obtain ⟨version, hold⟩ := hinv.completed j hj
    exact ⟨version, (hat j _).mpr (.inl hold)⟩
  · intro j own hj
    rcases hj with hj | hj
    · rcases (hat j _).mp hj with hj | ⟨_, hsame⟩
      · exact hwritten j own (.inl hj)
      · cases hsame
    · rcases (hat j _).mp hj with hj | ⟨_, hsame⟩
      · exact hwritten j own (.inr hj)
      · cases hsame
  · have hwriting : ∀ j own tv done rest, ({ s with calls := s.calls ++ [.waiting change] } : Store σ κ).At j
          (.writing own tv done rest) ↔ s.At j (.writing own tv done rest) := by
      intro j own tv done rest
      rw [hat]
      constructor
      · rintro (hj | ⟨_, hsame⟩)
        · exact hj
        · cases hsame
      · exact Or.inl
    rcases hfile with ⟨k, own, done, rest, hk, hdone, hunique⟩ | ⟨htorn, hreads⟩
    · left
      refine ⟨k, own, done, rest, (hwriting ..).mpr hk, hdone, ?_⟩
      intro j own' version' done' rest' hj
      exact hunique j own' version' done' rest' ((hwriting ..).mp hj)
    · right
      refine ⟨?_, hreads⟩
      rintro ⟨j, own, version, done, rest, hj⟩
      exact htorn ⟨j, own, version, done, rest, (hwriting ..).mp hj⟩

/-- The invariant is kept by every step that is orderly. -/
theorem Inv.step (hinv : Inv text Good usable Reads first h s)
    (hreads : ∀ memory, Good memory → Reads (some (text memory)) memory)
    (hkeeps : ∀ {change memory memory'}, usable change → Good memory →
      apply change memory = some memory' → Good memory') {event : Event κ}
    (horderly : s.Orderly usable event) (hstep : Store.step apply text s event = some (s', o)) :
    Inv text Good usable Reads first (h ++ o) s' := by
  unfold Store.step at hstep
  by_cases hkilled : s.killed = true
  · rw [if_pos hkilled] at hstep
    cases hstep
  rw [if_neg hkilled] at hstep
  cases event with
  | call change =>
    cases hstep
    rw [List.append_nil]
    exact hinv.call_step horderly
  | change i =>
    simp only at hstep
    split at hstep
    · rename_i change hat
      obtain ⟨rfl, rfl⟩ := some_mk_inj hstep
      exact hinv.change_step hkeeps hat
    · cases hstep
  | encode i =>
    simp only at hstep
    split at hstep
    · rename_i version hat
      cases hstep
      exact hinv.encode_step hat
    · cases hstep
  | truncate i =>
    simp only at hstep
    split at hstep
    · rename_i own version bytes hat
      cases hstep
      rw [List.append_nil]
      exact hinv.truncate_step hat horderly
    · cases hstep
  | piece i length =>
    simp only at hstep
    split at hstep
    · rename_i own version done rest hat
      cases hstep
      rw [List.append_nil]
      exact hinv.piece_step hreads hat
    · cases hstep
  | close i =>
    simp only at hstep
    split at hstep
    · rename_i own hat
      cases hstep
      exact hinv.close_step hat
    · cases hstep
  | kill =>
    cases hstep
    rw [List.append_nil]
    exact ⟨hinv.version, hinv.memory, hinv.good, hinv.knows, hinv.waiting, hinv.completed, hinv.file⟩

theorem not_torn_step {event : Event κ} (horderly : s.Orderly usable event)
    (hstep : Store.step apply text s event = some (s', o)) :
    s'.killed = true → ¬s'.Torn := by
  intro hafter
  unfold Store.step at hstep
  by_cases hkilled : s.killed = true
  · rw [if_pos hkilled] at hstep
    cases hstep
  rw [if_neg hkilled] at hstep
  cases event with
  | kill =>
    cases hstep
    exact horderly
  | call change =>
    cases hstep
    exact absurd hafter hkilled
  | change i =>
    simp only at hstep
    split at hstep
    · obtain ⟨rfl, rfl⟩ := some_mk_inj hstep
      split at hafter
      · exact absurd hafter hkilled
      · exact absurd hafter hkilled
    · cases hstep
  | encode i | truncate i | piece i length | close i =>
    simp only at hstep
    split at hstep
    · cases hstep
      exact absurd hafter hkilled
    · cases hstep

/-- What the invariant says of a file that is not being rewritten. -/
theorem Inv.survives (hinv : Inv text Good usable Reads first h s) (htorn : ¬s.Torn) :
    Survives Reads first h s.file := by
  obtain ⟨version, hle, hwritten, hfile⟩ := hinv.file
  rcases hfile with ⟨i, own, done, rest, hat, _⟩ | ⟨_, hreads⟩
  · exact absurd ⟨i, own, version, done, rest, hat⟩ htorn
  · rw [hinv.version] at hle
    obtain ⟨h1, h2, rfl, htake⟩ := exists_split_changes h version hle
    refine ⟨h1, h2, rfl, ?_, ?_⟩
    · rw [htake]
      exact hreads
    · intro call hcompleted
      obtain ⟨own, hat⟩ := hinv.completed call hcompleted
      have hchanged : ChangedAt (h1 ++ h2) call own := hinv.knows call _ hat
      obtain ⟨memory, hmem⟩ := hchanged.mem_take (hwritten call own (.inr hat))
      rw [← htake] at hmem
      exact ⟨memory, mem_of_mem_changes hmem⟩

/-- When the program is killed in an orderly run, the file gives back a memory that there was, with the
changes of all calls that had completed. -/
theorem survives_of_reaches {file : Option (List UInt8)} (hgood : Good first) (hfile : Reads file first)
    (hreads : ∀ memory, Good memory → Reads (some (text memory)) memory)
    (hkeeps : ∀ {change memory memory'}, usable change → Good memory →
      apply change memory = some memory' → Good memory')
    (hreach : Reaches (Store.step apply text) (Store.Orderly usable) (Store.start first file) h s)
    (hkilled : s.killed = true) : Survives Reads first h s.file := by
  have hempty : ∀ i (call : Call κ), ¬(Store.start first file : Store σ κ).At i call := by
    rintro i call ⟨⟩
  have hstart : Inv text Good usable Reads first [] (Store.start first file : Store σ κ) := by
    refine ⟨rfl, rfl, ?_, ?_, ?_, by simp, 0, Nat.le_refl _, ?_, .inr ⟨?_, hfile⟩⟩
    · intro version hversion
      rw [Nat.le_zero.mp hversion]
      exact hgood
    · intro i call hat
      exact absurd hat (hempty i call)
    · intro i change hat
      exact absurd hat (hempty i _)
    · rintro j own (hat | hat)
      · exact absurd hat (hempty j _)
      · exact absurd hat (hempty j _)
    · rintro ⟨i, _, _, _, _, hat⟩
      exact hempty i _ hat
  have hnever : (Store.start first file : Store σ κ).killed = true →
      ¬(Store.start first file : Store σ κ).Torn := fun hkilled => by cases hkilled
  have hboth := hreach.invariant
    (I := fun h s => Inv text Good usable Reads first h s ∧ (s.killed = true → ¬s.Torn))
    ⟨hstart, hnever⟩ (fun hI horderly hstep =>
      ⟨hI.1.step hreads hkeeps horderly hstep, not_torn_step horderly hstep⟩)
  exact hboth.1.survives (hboth.2 hkilled)

end Steps

section Runs

variable {apply : κ → σ → Option σ} {text : σ → List UInt8} {usable : κ → Prop} {first memory memory' : σ}
  {change change' : κ} {file : Option (List UInt8)}

theorem step_change {s : Store σ κ} {i : Nat} (hat : s.At i (.waiting change)) (hkilled : s.killed = false)
    (hchange : apply change s.memory = some memory) : Store.step apply text s (.change i) =
      some ({ s with memory := memory, version := s.version + 1 }.setCall i (.changed (s.version + 1)),
        [.changed i memory]) := by
  have hcall : s.calls[i]? = some (.waiting change) := hat
  simp only [Store.step, hkilled, Bool.false_eq_true, if_false, hcall, Store.change, hchange]

variable (text file) in
theorem reaches_torn (hchange : apply change first = some memory) :
    ∃ s, Reaches (Store.step apply text) (fun _ _ => True) (Store.start first file)
      [.changed 0 memory] s ∧ s.file = some [] ∧ s.killed = true := by
  have hcalled : Reaches (Store.step apply text) (fun _ _ => True) (Store.start first file) _
      ⟨first, 0, file, [.waiting change], false⟩ := .next (e := .call change) .start trivial rfl
  have hencoded := (hcalled.next trivial (by exact step_change (i := 0) rfl rfl hchange)).next
    (e := .encode 0) trivial rfl
  exact ⟨_, (hencoded.next (e := .truncate 0) trivial rfl).next (e := .kill) trivial rfl, rfl, rfl⟩

variable (text file) in
/-- A second call changes the memory while the first is writing the file, and the program is killed before it has
written anything. -/
theorem reaches_overlapped (hchange : apply change first = some memory) (husable : usable change)
    (hchange' : apply change' memory = some memory') (husable' : usable change') :
    ∃ s, Reaches (Store.step apply text) (Store.Orderly usable) (Store.start first file)
      [.changed 0 memory, .changed 1 memory', .completed 0] s ∧ s.killed = true := by
  have hpair : ∀ {memory : σ} {version i : Nat} {file : Option (List UInt8)} {a b call : Call κ},
      (⟨memory, version, file, [a, b], false⟩ : Store σ κ).At i call → a = call ∨ b = call := by
    intro memory version i file a b call hat
    rcases i with _ | _ | i
    · exact .inl (Option.some.inj hat)
    · exact .inr (Option.some.inj hat)
    · cases hat
  have htruncate : (⟨memory, 1, file, [.encoded 1 1 (text memory), .waiting change'], false⟩ : Store σ κ).Orderly
      usable (.truncate 0) := by
    refine ⟨?_, ?_⟩
    · rintro ⟨i, _, _, _, _, hat⟩
      rcases hpair hat with h | h <;> cases h
    · rintro j version (hat | hat) <;> rcases hpair hat with h | h <;> cases h
  have hpiece : Store.step apply text
      ⟨memory', 2, some [], [.writing 1 1 [] (text memory), .changed 2], false⟩ (.piece 0 (text memory).length) =
      some (⟨memory', 2, some (writeAt [] 0 (text memory)), [.written 1, .changed 2], false⟩, []) := by
    show some (Store.piece _ 0 1 1 [] (text memory) (text memory).length, []) = _
    unfold Store.piece
    rw [List.take_length, List.drop_length]
    rfl
  have hkill : (⟨memory', 2, some (writeAt [] 0 (text memory)), [.completed 1, .changed 2], false⟩ :
      Store σ κ).Orderly usable .kill := by
    rintro ⟨i, _, _, _, _, hat⟩
    rcases hpair hat with h | h <;> cases h
  have hcalled : Reaches (Store.step apply text) (Store.Orderly usable) (Store.start first file) _
      ⟨first, 0, file, [.waiting change], false⟩ := .next (e := .call change) .start husable rfl
  have hboth := hcalled.next (e := .call change') (by exact husable') rfl
  have hencoded := (hboth.next (e := .change 0) (by exact trivial) (by exact step_change rfl rfl hchange)).next
    (e := .encode 0) (by exact trivial) rfl
  have htruncated := hencoded.next htruncate rfl
  have hchanged := htruncated.next (e := .change 1) (by exact trivial) (by exact step_change rfl rfl hchange')
  have hclosed := (hchanged.next (by exact trivial) hpiece).next (e := .close 0) (by exact trivial) rfl
  exact ⟨_, hclosed.next hkill rfl, rfl⟩

end Runs

end Portix.Lib.Persist
