import Portix.Lib.Update

/-!
# No update is lost

As long as the file is rewritten by one call at a time, each of which has read what the file still says
under the other keys, the file says under each key what the last call for it wrote.
-/

namespace Portix.Lib.Update

variable {σ κ ι ν : Type}

section Changes

variable [DecidableEq ι] {key : κ → ι} {value : κ → ν} {first : ι → ν}

theorem changesOf_append (k : ι) (changes changes' : List κ) :
    changesOf key k (changes ++ changes') = changesOf key k changes ++ changesOf key k changes' :=
  List.filter_append ..

theorem changesOf_singleton (k : ι) (change : κ) :
    changesOf key k [change] = if key change = k then [change] else [] := by
  unfold changesOf
  by_cases hkey : key change = k
  · simp [hkey]
  · simp [hkey]

@[simp] theorem lastValue_nil : lastValue key value first [] = first := rfl

theorem lastValue_concat (changes : List κ) (change : κ) : lastValue key value first (changes ++ [change]) =
      Function.update (lastValue key value first changes) (key change) (value change) := by
  funext k
  unfold lastValue
  rw [changesOf_append, changesOf_singleton, Function.update_apply]
  by_cases hkey : k = key change
  · rw [if_pos hkey, if_pos hkey.symm, List.getLast?_concat]
    rfl
  · rw [if_neg hkey, if_neg (Ne.symm hkey), List.append_nil]

theorem lastValue_congr {changes changes' : List κ} {k : ι}
    (hsame : changesOf key k changes = changesOf key k changes') :
    lastValue key value first changes k = lastValue key value first changes' k := by
  unfold lastValue
  rw [hsame]

theorem wrote_append (h h' : List (Obs κ)) : wrote (h ++ h') = wrote h ++ wrote h' :=
  List.filterMap_append

theorem completed_append (h h' : List (Obs κ)) : completed (h ++ h') = completed h ++ completed h' :=
  List.filterMap_append

end Changes

section Steps

variable [DecidableEq ι] {load : Option (List UInt8) → Option σ} {text : σ → List UInt8}
  {apply : κ → σ → σ} {view : σ → ι → ν} {key : κ → ι} {value : κ → ν} {first : ι → ν}
  {h o : List (Obs κ)} {s s' : Store σ κ} {i j : Nat} {call old new : Call σ κ}

theorem at_setCall (hold : s.At i old) : (s.setCall i new).At j call ↔ (j = i ∧ call = new) ∨ (j ≠ i ∧ s.At j call) :=
  getElem?_set_eq_some hold

theorem at_setCall_of_ne (hold : s.At i old) (hne : call ≠ old) (hne' : call ≠ new) :
    (s.setCall i new).At j call ↔ s.At j call :=
  getElem?_set_of_ne hold hne hne'

theorem at_unique (hold : s.At i old) (hnew : s.At i new) : old = new :=
  Option.some.inj (hold.symm.trans hnew)

def Says (load : Option (List UInt8) → Option σ) (view : σ → ι → ν) (key : κ → ι) (value : κ → ν)
    (first : ι → ν) (h : List (Obs κ)) (s : Store σ κ) : Prop :=
  ∃ now, load s.file = some now ∧ view now = lastValue key value first (wrote h)

/-- The file is empty, and the call that truncated it will write what was written so far, and its own
change. -/
def Rewritten (view : σ → ι → ν) (key : κ → ι) (value : κ → ν) (first : ι → ν)
    (h : List (Obs κ)) (s : Store σ κ) : Prop :=
  ∃ i change read, s.At i (.truncated change read) ∧ s.file = some [] ∧
    (∀ k, k ≠ key change → view read k = lastValue key value first (wrote h) k) ∧
    (∀ j change' read', s.At j (.truncated change' read') → j = i) ∧
    ∀ j change', s.At j (.written change') → key change' ≠ key change

/-- The calls of a key end in the order in which they wrote: one at most has written and is not over. -/
def InOrder (key : κ → ι) (h : List (Obs κ)) (s : Store σ κ) (k : ι) : Prop :=
  (changesOf key k (wrote h) = changesOf key k (completed h) ∧
    ∀ i change, s.At i (.written change) → key change ≠ k) ∨
  ∃ i change, s.At i (.written change) ∧ key change = k ∧
    changesOf key k (wrote h) = changesOf key k (completed h) ++ [change] ∧
    ∀ j change', s.At j (.written change') → key change' = k → j = i

structure Inv (load : Option (List UInt8) → Option σ) (view : σ → ι → ν) (key : κ → ι)
    (value : κ → ν) (first : ι → ν) (h : List (Obs κ)) (s : Store σ κ) : Prop where
  file : (¬s.Torn ∧ Says load view key value first h s) ∨ Rewritten view key value first h s
  order : ∀ k, InOrder key h s k

theorem Inv.frame (hinv : Inv load view key value first h s) (hfile : s'.file = s.file)
    (htruncated : ∀ j change read, s'.At j (.truncated change read) ↔ s.At j (.truncated change read))
    (hwritten : ∀ j change, s'.At j (.written change) ↔ s.At j (.written change)) :
    Inv load view key value first h s' := by
  refine ⟨?_, ?_⟩
  · rcases hinv.file with ⟨htorn, now, hload, hnow⟩ | ⟨i, change, read, hat, hempty, hothers⟩
    · left
      refine ⟨?_, now, by rw [hfile]; exact hload, hnow⟩
      rintro ⟨j, change, read, hj⟩
      exact htorn ⟨j, change, read, (htruncated ..).mp hj⟩
    · right
      obtain ⟨hread, hunique, hkeys⟩ := hothers
      refine ⟨i, change, read, (htruncated ..).mpr hat, hfile.trans hempty, hread, ?_, ?_⟩
      · intro j change' read' hj
        exact hunique j change' read' ((htruncated ..).mp hj)
      · intro j change' hj
        exact hkeys j change' ((hwritten ..).mp hj)
  · intro k
    rcases hinv.order k with ⟨hsame, hnone⟩ | ⟨i, change, hat, hkey, hsame, hunique⟩
    · exact .inl ⟨hsame, fun i change hi => hnone i change ((hwritten ..).mp hi)⟩
    · exact .inr ⟨i, change, (hwritten ..).mpr hat, hkey, hsame,
        fun j change' hj => hunique j change' ((hwritten ..).mp hj)⟩

/-- A call that neither is rewriting the file nor has written and is not over. -/
def Quiet : Call σ κ → Prop
  | .waiting _ => True
  | .holding _ _ => True
  | .failed _ => True
  | .closed _ => True
  | .truncated _ _ => False
  | .written _ => False

theorem at_setCall_quiet (hold : s.At i old) (hquiet : Quiet old) (hquiet' : Quiet new)
    (hcall : ¬Quiet call) : (s.setCall i new).At j call ↔ s.At j call := by
  apply at_setCall_of_ne hold
  · rintro rfl
    exact hcall hquiet
  · rintro rfl
    exact hcall hquiet'

theorem Inv.setCall_quiet (hinv : Inv load view key value first h s) (hold : s.At i old)
    (hquiet : Quiet old) (hquiet' : Quiet new) :
    Inv load view key value first h (s.setCall i new) :=
  hinv.frame rfl (fun _ _ _ => at_setCall_quiet hold hquiet hquiet' id)
    (fun _ _ => at_setCall_quiet hold hquiet hquiet' id)

theorem Inv.call_step (hinv : Inv load view key value first h s) (change : κ) :
    Inv load view key value first h { s with calls := s.calls ++ [.waiting change] } := by
  have hat : ∀ j (call : Call σ κ), ({ s with calls := s.calls ++ [.waiting change] } :
      Store σ κ).At j call ↔ s.At j call ∨ (j = s.calls.length ∧ call = .waiting change) :=
    fun j call => getElem?_concat_eq_some
  refine hinv.frame ?_ ?_ ?_
  · rfl
  · intro j change' read
    rw [hat]
    simp
  · intro j change'
    rw [hat]
    simp

variable {read : σ} {change : κ}

theorem Inv.truncate_step (hinv : Inv load view key value first h s) (hat : s.At i (.holding change read))
    (horderly : s.Orderly load view key (.truncate i)) :
    Inv load view key value first h
      ({ s with file := some [] }.setCall i (.truncated change read)) := by
  obtain ⟨hnotTorn, hcall⟩ := horderly
  obtain ⟨hfresh, hkeys⟩ := hcall change read hat
  have hwritten : ∀ j change', ({ s with file := some [] }.setCall i (.truncated change read)).At j
      (.written change') ↔ s.At j (.written change') :=
    fun j change' => at_setCall_of_ne hat (by simp) (by simp)
  obtain ⟨now, hload, hnow⟩ : Says load view key value first h s := by
    rcases hinv.file with ⟨_, hsays⟩ | ⟨j, change', read', hj, _⟩
    · exact hsays
    · exact absurd ⟨j, change', read', hj⟩ hnotTorn
  refine ⟨.inr ⟨i, change, read, (at_setCall hat).mpr (.inl ⟨rfl, rfl⟩), rfl, ?_, ?_, ?_⟩, ?_⟩
  · intro k hk
    rw [hfresh now hload k hk, hnow]
  · intro j change' read' hj
    rcases (at_setCall hat).mp hj with ⟨hsame, _⟩ | ⟨_, hj⟩
    · exact hsame
    · exact absurd ⟨j, change', read', hj⟩ hnotTorn
  · intro j change' hj
    exact hkeys j change' ((hwritten j change').mp hj)
  · intro k
    rcases hinv.order k with ⟨hsame, hnone⟩ | ⟨j, change', hj, hkey, hsame, hunique⟩
    · exact .inl ⟨hsame, fun j change' hj => hnone j change' ((hwritten ..).mp hj)⟩
    · exact .inr ⟨j, change', (hwritten ..).mpr hj, hkey, hsame,
        fun j' change'' hj' => hunique j' change'' ((hwritten ..).mp hj')⟩

theorem Inv.write_step (hinv : Inv load view key value first h s)
    (happly : ∀ change read, view (apply change read) =
      Function.update (view read) (key change) (value change))
    (htext : ∀ m, ∃ m', load (some (text m)) = some m' ∧ view m' = view m) (hat : s.At i (.truncated change read)) :
    Inv load view key value first (h ++ [.wrote change])
      ({ s with file := some (writeAt (s.file.getD []) 0 (text (apply change read))) }.setCall i
        (.written change)) := by
  have hwrote : wrote (h ++ [.wrote change]) = wrote h ++ [change] := wrote_append ..
  have hcompleted : completed (h ++ [.wrote change]) = completed h := by
    rw [completed_append]
    exact List.append_nil _
  obtain ⟨hempty, hread, hunique, hkeys⟩ : s.file = some [] ∧
      (∀ k, k ≠ key change → view read k = lastValue key value first (wrote h) k) ∧
      (∀ j change' read', s.At j (.truncated change' read') → j = i) ∧
      ∀ j change', s.At j (.written change') → key change' ≠ key change := by
    rcases hinv.file with ⟨htorn, _⟩ | ⟨j, change', read', hj, hempty, hread, hunique, hkeys⟩
    · exact absurd ⟨i, change, read, hat⟩ htorn
    · have hsame := hunique i change read hat
      rw [hsame] at hat
      cases at_unique hj hat
      rw [hsame]
      exact ⟨hempty, hread, hunique, hkeys⟩
  refine ⟨.inl ⟨?_, ?_⟩, ?_⟩
  · rintro ⟨j, change', read', hj⟩
    rcases (at_setCall hat).mp hj with ⟨_, hsame⟩ | ⟨hne, hj⟩
    · cases hsame
    · exact hne (hunique j change' read' hj)
  · obtain ⟨now, hload, hnow⟩ := htext (apply change read)
    refine ⟨now, ?_, ?_⟩
    · show load (some (writeAt (s.file.getD []) 0 (text (apply change read)))) = some now
      have hcontent : writeAt (s.file.getD []) 0 (text (apply change read)) =
          text (apply change read) := by
        rw [hempty]
        exact writeAt_length [] _
      rw [hcontent, hload]
    · rw [hnow, happly, hwrote, lastValue_concat]
      funext k
      by_cases hk : k = key change
      · rw [hk, Function.update_self, Function.update_self]
      · rw [Function.update_of_ne hk, Function.update_of_ne hk, hread k hk]
  · intro k
    unfold InOrder
    rw [hwrote, hcompleted, changesOf_append, changesOf_singleton]
    by_cases hk : key change = k
    · right
      refine ⟨i, change, (at_setCall hat).mpr (.inl ⟨rfl, rfl⟩), hk, ?_, ?_⟩
      · rw [if_pos hk]
        rcases hinv.order k with ⟨hsame, _⟩ | ⟨j, change', hj, hkey, _⟩
        · rw [hsame]
        · exact absurd (hkey.trans hk.symm) (hkeys j change' hj)
      · intro j change' hj hkey
        rcases (at_setCall hat).mp hj with ⟨hsame, _⟩ | ⟨_, hj⟩
        · exact hsame
        · exact absurd (hkey.trans hk.symm) (hkeys j change' hj)
    · rw [if_neg hk, List.append_nil]
      have hwritten : ∀ j change', key change' = k →
          (({ s with file := some (writeAt (s.file.getD []) 0 (text (apply change read))) }.setCall i
            (.written change)).At j (.written change') ↔ s.At j (.written change')) := by
        intro j change' hkey
        refine at_setCall_of_ne hat (by simp) ?_
        intro hsame
        rw [Call.written.inj hsame] at hkey
        exact hk hkey
      rcases hinv.order k with ⟨hsame, hnone⟩ | ⟨j, change', hj, hkey, hsame, honly⟩
      · refine .inl ⟨hsame, ?_⟩
        intro j change' hj hkey
        exact hnone j change' ((hwritten j change' hkey).mp hj) hkey
      · refine .inr ⟨j, change', (hwritten j change' hkey).mpr hj, hkey, hsame, ?_⟩
        intro j' change'' hj' hkey'
        exact honly j' change'' ((hwritten j' change'' hkey').mp hj') hkey'

theorem Inv.close_step (hinv : Inv load view key value first h s) (hat : s.At i (.written change)) :
    Inv load view key value first (h ++ [.completed change]) (s.setCall i (.closed change)) := by
  have hwrote : wrote (h ++ [.completed change]) = wrote h := by
    rw [wrote_append]
    exact List.append_nil _
  have hcompleted : completed (h ++ [.completed change]) = completed h ++ [change] :=
    completed_append ..
  have htruncated : ∀ j change' read', (s.setCall i (.closed change)).At j (.truncated change' read') ↔
      s.At j (.truncated change' read') :=
    fun j change' read' => at_setCall_of_ne hat (by simp) (by simp)
  have hwritten : ∀ j change', (s.setCall i (.closed change)).At j (.written change') →
      j ≠ i ∧ s.At j (.written change') := by
    intro j change' hj
    rcases (at_setCall hat).mp hj with ⟨_, hsame⟩ | hj
    · cases hsame
    · exact hj
  refine ⟨?_, ?_⟩
  · rcases hinv.file with ⟨htorn, now, hload, hnow⟩ | ⟨k, change', read', hk, hempty, hothers⟩
    · left
      refine ⟨?_, now, hload, by rw [hwrote]; exact hnow⟩
      rintro ⟨j, change', read', hj⟩
      exact htorn ⟨j, change', read', (htruncated ..).mp hj⟩
    · right
      obtain ⟨hread, hunique, hkeys⟩ := hothers
      refine ⟨k, change', read', (htruncated ..).mpr hk, hempty, by rw [hwrote]; exact hread, ?_, ?_⟩
      · intro j change'' read'' hj
        exact hunique j change'' read'' ((htruncated ..).mp hj)
      · intro j change'' hj
        exact hkeys j change'' (hwritten j change'' hj).2
  · intro k
    unfold InOrder
    rw [hwrote, hcompleted, changesOf_append, changesOf_singleton]
    by_cases hk : key change = k
    · left
      rw [if_pos hk]
      rcases hinv.order k with ⟨_, hnone⟩ | ⟨j, change', hj, hkey, hsame, honly⟩
      · exact absurd hk (hnone i change hat)
      · have hij := honly i change hat hk
        rw [hij] at hat
        cases at_unique hj hat
        refine ⟨hsame, ?_⟩
        intro j' change'' hj' hkey'
        obtain ⟨hne, hj'⟩ := hwritten j' change'' hj'
        exact hne ((honly j' change'' hj' hkey').trans hij.symm)
    · rw [if_neg hk, List.append_nil]
      rcases hinv.order k with ⟨hsame, hnone⟩ | ⟨j, change', hj, hkey, hsame, honly⟩
      · exact .inl ⟨hsame, fun j change' hj => hnone j change' (hwritten j change' hj).2⟩
      · refine .inr ⟨j, change', (at_setCall hat).mpr (.inr ⟨?_, hj⟩), hkey, hsame, ?_⟩
        · rintro rfl
          rw [Call.written.inj (at_unique hat hj)] at hk
          exact hk hkey
        · intro j' change'' hj'
          exact honly j' change'' (hwritten j' change'' hj').2

/-- The invariant is kept by every step that is orderly. -/
theorem Inv.step (hinv : Inv load view key value first h s) (happly : ∀ change read, view (apply change read) =
      Function.update (view read) (key change) (value change))
    (htext : ∀ m, ∃ m', load (some (text m)) = some m' ∧ view m' = view m) {event : Event κ}
    (horderly : s.Orderly load view key event)
    (hstep : Store.step load text apply s event = some (s', o)) :
    Inv load view key value first (h ++ o) s' := by
  cases event with
  | call change =>
    cases hstep
    rw [List.append_nil]
    exact hinv.call_step change
  | read i =>
    simp only [Store.step] at hstep
    split at hstep
    · rename_i change hat
      split at hstep
      · rename_i read _
        cases hstep
        have hquiet : Quiet (.holding change read : Call σ κ) := trivial
        rw [List.append_nil]
        exact hinv.setCall_quiet hat trivial hquiet
      · cases hstep
        have hquiet : Quiet (.failed change : Call σ κ) := trivial
        rw [List.append_nil]
        exact hinv.setCall_quiet hat trivial hquiet
    · cases hstep
  | truncate i =>
    simp only [Store.step] at hstep
    split at hstep
    · rename_i change read hat
      cases hstep
      rw [List.append_nil]
      exact hinv.truncate_step hat horderly
    · cases hstep
  | write i =>
    simp only [Store.step] at hstep
    split at hstep
    · rename_i change read hat
      cases hstep
      exact hinv.write_step happly htext hat
    · cases hstep
  | close i =>
    simp only [Store.step] at hstep
    split at hstep
    · rename_i change hat
      cases hstep
      exact hinv.close_step hat
    · cases hstep

theorem Inv.settled (hinv : Inv load view key value first h s) (hsettled : s.Settled) :
    ∃ now, load s.file = some now ∧ view now = lastValue key value first (completed h) := by
  have hfinished : ∀ i call, s.At i call → call.finished = true :=
    fun i call hat => hsettled call (List.mem_of_getElem? hat)
  rcases hinv.file with ⟨_, now, hload, hnow⟩ | ⟨i, change, read, hat, _⟩
  · refine ⟨now, hload, ?_⟩
    rw [hnow]
    funext k
    apply lastValue_congr
    rcases hinv.order k with ⟨hsame, _⟩ | ⟨i, change, hat, _⟩
    · exact hsame
    · cases hfinished i _ hat
  · cases hfinished i _ hat

variable {file : Option (List UInt8)}

theorem unread_of_reaches {G : Store σ κ → Event κ → Prop} (hload : load file = none)
    (hreach : Reaches (Store.step load text apply) G (Store.start file) h s) :
    s.file = file ∧ completed h = [] := by
  have hall := hreach.invariant (I := fun h s => s.file = file ∧ completed h = [] ∧
    ∀ call ∈ s.calls, ∃ change, call = .waiting change ∨ call = .failed change)
    ⟨rfl, rfl, fun call hmem => by cases hmem⟩ ?_
  · exact ⟨hall.1, hall.2.1⟩
  intro h s event s' o ⟨hfile, hnone, hcalls⟩ _ hstep
  have hnot : ∀ {i : Nat} {call : Call σ κ}, s.calls[i]? = some call →
      (∀ change, call ≠ .waiting change) → (∀ change, call ≠ .failed change) → False := by
    intro i call hat hwaiting hfailed
    obtain ⟨change, hcall | hcall⟩ := hcalls call (List.mem_of_getElem? hat)
    · exact hwaiting change hcall
    · exact hfailed change hcall
  cases event with
  | call change =>
    cases hstep
    rw [List.append_nil]
    refine ⟨hfile, hnone, ?_⟩
    intro call hmem
    rcases List.mem_append.mp hmem with hold | hnew
    · exact hcalls call hold
    · exact ⟨change, .inl (List.mem_singleton.mp hnew)⟩
  | read i =>
    simp only [Store.step, hfile, hload] at hstep
    split at hstep
    · rename_i change _
      cases hstep
      rw [List.append_nil]
      refine ⟨hfile, hnone, ?_⟩
      intro call hmem
      rcases List.mem_or_eq_of_mem_set hmem with hold | hnew
      · exact hcalls call hold
      · exact ⟨change, .inr hnew⟩
    · cases hstep
  | truncate i | write i | close i =>
    simp only [Store.step] at hstep
    split at hstep
    · rename_i hat
      exact (hnot hat (by simp) (by simp)).elim
    · cases hstep

/-- In an orderly run no update is lost: once all calls are over, the file says under each key what the
last call for it wrote, and what it said at the start under a key that no call wrote. -/
theorem settled_of_reaches (happly : ∀ change read, view (apply change read) =
      Function.update (view read) (key change) (value change))
    (htext : ∀ m, ∃ m', load (some (text m)) = some m' ∧ view m' = view m)
    (hreach : Reaches (Store.step load text apply) (fun s => s.Orderly load view key)
      (Store.start file) h s) (hsettled : s.Settled) :
    Kept key value load view file h s := by
  unfold Kept
  cases hload : load file with
  | none =>
    obtain ⟨hfile, hnone⟩ := unread_of_reaches hload hreach
    rw [hfile, hload]
    exact ⟨rfl, fun _ => ⟨rfl, hnone⟩⟩
  | some read =>
    have hempty : ∀ i (call : Call σ κ), ¬(Store.start file : Store σ κ).At i call := by
      rintro i call ⟨⟩
    have hstart : Inv load view key value (view read) [] (Store.start file : Store σ κ) := by
      refine ⟨.inl ⟨?_, read, hload, rfl⟩, ?_⟩
      · rintro ⟨i, change, read', hat⟩
        exact hempty i _ hat
      · intro k
        exact .inl ⟨rfl, fun i change hat => absurd hat (hempty i _)⟩
    have hinv := hreach.invariant
      (I := fun h s => Inv load view key value (view read) h s) hstart
      (fun hinv horderly hstep => hinv.step happly htext horderly hstep)
    obtain ⟨now, hnow, hview⟩ := hinv.settled hsettled
    refine ⟨?_, fun hnone => by cases hnone⟩
    rw [hnow, Option.map_some, Option.map_some, hview]

omit [DecidableEq ι] in
theorem step_read (hat : s.At i (.waiting change)) (hload : load s.file = some read) :
    Store.step load text apply s (.read i) = some (s.setCall i (.holding change read), []) := by
  have hcall : s.calls[i]? = some (.waiting change) := hat
  simp only [Store.step, hcall, hload]

omit [DecidableEq ι] in
variable (load text apply view key) in
/-- Two calls overlap: the second reads the file when the first has written it, and is closed before the first. -/
theorem reaches_interleaved (change change' : κ) {read' : σ} (hload : load file = some read)
    (hload' : load (some (text (apply change read))) = some read') (hkey : key change ≠ key change') :
    ∃ s, Reaches (Store.step load text apply) (fun s => s.Orderly load view key) (Store.start file)
      [.wrote change, .wrote change', .completed change', .completed change] s ∧ s.Settled := by
  have hpair : ∀ {file : Option (List UInt8)} {a b call : Call σ κ} {i : Nat},
      (⟨file, [a, b]⟩ : Store σ κ).At i call → a = call ∨ b = call := by
    intro file a b call i hat
    rcases i with _ | _ | i
    · exact .inl (Option.some.inj hat)
    · exact .inr (Option.some.inj hat)
    · cases hat
  have horderly : ∀ (s : Store σ κ) (e : Event κ), (∀ i, e ≠ .truncate i) → s.Orderly load view key e := by
    intro s e hne
    cases e with
    | truncate i => exact absurd rfl (hne i)
    | call change => trivial
    | read i => trivial
    | write i => trivial
    | close i => trivial
  have hread : Store.step load text apply ⟨file, [.waiting change, .waiting change']⟩ (.read 0) =
      some (⟨file, [.holding change read, .waiting change']⟩, []) := step_read rfl hload
  have hread' : Store.step load text apply ⟨some (text (apply change read)), [.written change, .waiting change']⟩
      (.read 1) = some (⟨some (text (apply change read)), [.written change, .holding change' read']⟩, []) :=
    step_read rfl hload'
  have htruncate : (⟨file, [.holding change read, .waiting change']⟩ : Store σ κ).Orderly load view key
      (.truncate 0) := by
    refine ⟨?_, fun _ _ hat => ?_⟩
    · rintro ⟨i, _, _, hat⟩
      rcases hpair hat with h | h <;> cases h
    · cases hat
      refine ⟨fun now hnow k _ => by cases hload.symm.trans hnow; rfl, fun j _ hat => ?_⟩
      rcases hpair hat with h | h <;> cases h
  have htruncate' : (⟨some (text (apply change read)), [.written change, .holding change' read']⟩ :
      Store σ κ).Orderly load view key (.truncate 1) := by
    refine ⟨?_, fun _ _ hat => ?_⟩
    · rintro ⟨i, _, _, hat⟩
      rcases hpair hat with h | h <;> cases h
    · cases hat
      refine ⟨fun now hnow k _ => by cases hload'.symm.trans hnow; rfl, fun j _ hat => ?_⟩
      rcases hpair hat with h | h <;> cases h
      exact hkey
  have hcalled : Reaches (Store.step load text apply) (fun s => s.Orderly load view key)
      (Store.start file) [] ⟨file, [.waiting change]⟩ :=
    .next (e := .call change) .start (horderly _ _ (by simp)) rfl
  have hboth := hcalled.next (e := .call change') (horderly _ _ (by simp)) rfl
  have htext : some (writeAt [] 0 (text (apply change read))) = some (text (apply change read)) :=
    congrArg some (writeAt_length [] _)
  have hwrite : Store.step load text apply ⟨some [], [.truncated change read, .waiting change']⟩ (.write 0) =
      some (⟨some (text (apply change read)), [.written change, .waiting change']⟩, [.wrote change]) := by
    rw [← htext]
    rfl
  have hwritten := ((hboth.next (horderly _ _ (by simp)) hread).next htruncate rfl).next (horderly _ _ (by simp))
    hwrite
  have hwritten' := ((hwritten.next (horderly _ _ (by simp)) hread').next htruncate' rfl).next (e := .write 1)
    (horderly _ _ (by simp)) rfl
  have hclosed := (hwritten'.next (e := .close 1) (horderly _ _ (by simp)) rfl).next (e := .close 0)
    (horderly _ _ (by simp)) rfl
  refine ⟨_, hclosed, fun call hmem => ?_⟩
  rcases List.mem_cons.mp hmem with rfl | hmem
  · rfl
  · rw [List.mem_singleton.mp hmem]
    rfl

variable (load text apply) in
/-- Two calls read the file before either writes it: the second rewrites it without what the first
has put there. -/
theorem reaches_overlap (change change' : κ) (hload : load file = some read) :
    ∃ h s, Reaches (Store.step load text apply) (fun _ _ => True) (Store.start file) h s ∧
      s.Settled ∧ completed h = [change, change'] ∧
      s.file = some (text (apply change' read)) := by
  have hread : Store.step load text apply ⟨file, [.waiting change, .waiting change']⟩ (.read 0) =
      some (⟨file, [.holding change read, .waiting change']⟩, []) := step_read rfl hload
  have hread' : Store.step load text apply ⟨file, [.holding change read, .waiting change']⟩
      (.read 1) = some (⟨file, [.holding change read, .holding change' read]⟩, []) :=
    step_read rfl hload
  have hcalled : Reaches (Store.step load text apply) (fun _ _ => True) (Store.start file) []
      ⟨file, [.waiting change]⟩ := .next (e := .call change) .start trivial rfl
  have hboth := hcalled.next (e := .call change') trivial rfl
  have hheld := (hboth.next trivial hread).next trivial hread'
  have hfirst := ((hheld.next (e := .truncate 0) trivial rfl).next (e := .write 0) trivial rfl).next
    (e := .close 0) trivial rfl
  have hsecond := ((hfirst.next (e := .truncate 1) trivial rfl).next (e := .write 1) trivial rfl).next
    (e := .close 1) trivial rfl
  refine ⟨_, _, hsecond, ?_, rfl, ?_⟩
  · intro call hmem
    rcases List.mem_cons.mp hmem with hcall | hmem
    · rw [hcall]
      rfl
    · rw [List.mem_singleton.mp hmem]
      rfl
  · exact congrArg some (writeAt_length [] _)

end Steps

end Portix.Lib.Update
