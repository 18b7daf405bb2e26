import Portix.Forward.Tunnels

/-!
# Proofs: the registry of tunnels

While a call of `register` holds the lock, its task may run to its end but not remove anything: a removal
always comes after the registration. The invariant says what the map holds in terms of the history.
-/

namespace Portix.Forward

open Lib

section Histories

variable {id : String} {h : List TunnelObs} {x : TunnelObs} {forward : LocalForward}

theorem registered_concat :
    Registered id (h ++ [x]) ↔ Registered id h ∨ ∃ forward, x = .registered forward ∧ forward.id = id := by
  unfold Registered
  constructor
  · rintro ⟨forward, hmem, hid⟩
    rcases List.mem_append.mp hmem with hmem | hmem
    · exact .inl ⟨forward, hmem, hid⟩
    · exact .inr ⟨forward, (List.mem_singleton.mp hmem).symm, hid⟩
  · rintro (⟨forward, hmem, hid⟩ | ⟨forward, rfl, hid⟩)
    · exact ⟨forward, List.mem_append_left _ hmem, hid⟩
    · exact ⟨forward, List.mem_concat_self, hid⟩

theorem registered_concat_of_ne (hx : ∀ forward, x ≠ .registered forward) :
    Registered id (h ++ [x]) ↔ Registered id h := by
  rw [registered_concat]
  refine or_iff_left ?_
  rintro ⟨forward, hforward, -⟩
  exact hx forward hforward

theorem Live.registered (hlive : Live id h) : Registered id h := by
  obtain ⟨⟨before, forward, after, rfl, hid, -⟩, -⟩ := hlive
  exact ⟨forward, by simp, hid⟩

theorem concat_eq_iff {before after : List TunnelObs} : h ++ [x] = before ++ .registered forward :: after ↔
      (h = before ∧ x = .registered forward ∧ after = []) ∨
        ∃ rest, h = before ++ .registered forward :: rest ∧ after = rest ++ [x] := by
  constructor
  · intro heq
    rcases List.eq_nil_or_concat' after with rfl | ⟨rest, y, rfl⟩
    · obtain ⟨rfl, hx⟩ := List.append_inj' heq rfl
      exact .inl ⟨rfl, List.singleton_inj.mp hx, rfl⟩
    · rw [← List.cons_append, ← List.append_assoc] at heq
      obtain ⟨rfl, hx⟩ := List.append_inj' heq rfl
      exact .inr ⟨rest, rfl, by rw [List.singleton_inj.mp hx]⟩
  · rintro (⟨rfl, rfl, rfl⟩ | ⟨rest, rfl, rfl⟩)
    · rfl
    · simp

theorem live_concat_registered :
    Live id (h ++ [.registered forward]) ↔ .removed id ∉ h ∧ (forward.id = id ∨ Live id h) := by
  have hremoved : .removed id ∉ h ++ [.registered forward] ↔ .removed id ∉ h := by simp
  constructor
  · rintro ⟨⟨before, forward', after, heq, hid, hstopped⟩, hnot⟩
    rw [hremoved] at hnot
    refine ⟨hnot, ?_⟩
    rcases concat_eq_iff.mp heq with ⟨-, hx, -⟩ | ⟨rest, hh, rfl⟩
    · exact .inl (TunnelObs.registered.inj hx ▸ hid)
    · exact .inr ⟨⟨before, forward', rest, hh, hid, fun hm => hstopped (List.mem_append_left _ hm)⟩, hnot⟩
  · rintro ⟨hnot, hid | ⟨⟨before, forward', after, heq, hid, hstopped⟩, -⟩⟩
    · exact ⟨⟨h, forward, [], rfl, hid, List.not_mem_nil⟩, hremoved.mpr hnot⟩
    · refine ⟨⟨before, forward', _, concat_eq_iff.mpr (.inr ⟨after, heq, rfl⟩), hid, fun hm => ?_⟩, hremoved.mpr hnot⟩
      rcases List.mem_append.mp hm with hm | hm
      · exact hstopped hm
      · cases List.mem_singleton.mp hm

theorem live_concat (hx : ∀ forward, x ≠ .registered forward) :
    Live id (h ++ [x]) ↔ Live id h ∧ x ≠ .stopped id ∧ x ≠ .removed id := by
  constructor
  · rintro ⟨⟨before, forward, after, heq, hid, hstopped⟩, hnot⟩
    rcases concat_eq_iff.mp heq with ⟨-, hreg, -⟩ | ⟨rest, hh, rfl⟩
    · exact absurd hreg (hx forward)
    · refine ⟨⟨⟨before, forward, rest, hh, hid, fun hm => hstopped (List.mem_append_left _ hm)⟩,
        fun hm => hnot (List.mem_append_left _ hm)⟩, ?_, ?_⟩
      · rintro rfl
        exact hstopped List.mem_concat_self
      · rintro rfl
        exact hnot List.mem_concat_self
  · rintro ⟨⟨⟨before, forward, after, heq, hid, hstopped⟩, hnot⟩, hstop, hremove⟩
    refine ⟨⟨before, forward, _, concat_eq_iff.mpr (.inr ⟨after, heq, rfl⟩), hid, fun hm => ?_⟩, fun hm => ?_⟩
    · rcases List.mem_append.mp hm with hm | hm
      · exact hstopped hm
      · exact hstop (List.mem_singleton.mp hm).symm
    · rcases List.mem_append.mp hm with hm | hm
      · exact hnot hm
      · exact hremove (List.mem_singleton.mp hm).symm

end Histories

namespace Tunnels

variable {s s' : Tunnels} {e : TunnelEvent} {o : List TunnelObs} {id : String} {n : Nat}

theorem mem_ids_iff : id ∈ s.ids ↔ ∃ entry ∈ s.active, entry.1.id = id := List.mem_map

theorem mem_without_iff {entry : LocalForward × Nat} : entry ∈ s.without id ↔ entry ∈ s.active ∧ entry.1.id ≠ id := by
  simp [without]

theorem stop_spec (id : String) : (s.stop id).registering = s.registering ∧ (s.stop id).active = s.without id ∧
      ((s.stop id).tasks = s.tasks ∨ ∃ n, (∃ forward, (forward, n) ∈ s.active ∧ forward.id = id) ∧
        (s.stop id).tasks = s.abort n) := by
  unfold stop
  split
  case h_1 forward n hfind =>
    refine ⟨rfl, rfl, .inr ⟨n, ⟨forward, List.mem_of_find?_eq_some hfind, ?_⟩, rfl⟩⟩
    simpa using List.find?_some hfind
  case h_2 hfind =>
    refine ⟨rfl, ?_, .inl rfl⟩
    rw [List.find?_eq_none] at hfind
    exact (List.filter_eq_self.mpr fun entry hentry => by simpa using hfind entry hentry).symm

theorem step_cases (hstep : s.step e = some (s', o)) :
    (∃ forward, e = .spawn forward ∧ s.registering = none ∧ forward.id ∉ s.tasks.map TunnelTask.id ∧ s' = { s with
        registering := some (forward, s.tasks.length)
        tasks := s.tasks ++ [{ id := forward.id }] } ∧ o = []) ∨
    (∃ forward n, e = .insert ∧ s.registering = some (forward, n) ∧
      s' = { s with registering := none, active := s.without forward.id ++ [(forward, n)] } ∧
      o = [.registered forward]) ∨
    (∃ n task phase, e.task = some n ∧ s.tasks[n]? = some task ∧
      s' = { s with tasks := s.tasks.set n { task with phase := phase } } ∧ o = []) ∨
    (∃ n task, e = .remove n ∧ s.tasks[n]? = some task ∧ s.registering = none ∧
      s' = { s with active := s.without task.id, tasks := s.tasks.set n { task with phase := .over } } ∧
      o = [.removed task.id]) ∨
    (∃ id, e = .stop id ∧ s.registering = none ∧ s' = s.stop id ∧ o = [.stopped id]) ∨
    (e = .list ∧ s.registering = none ∧ s' = s ∧ o = [.listed (s.active.map Prod.fst)]) := by
  cases e with
  | spawn forward =>
    simp only [step, Option.ite_none_right_eq_some, Option.some.injEq, Prod.mk.injEq] at hstep
    obtain ⟨⟨hlock, hfresh⟩, rfl, rfl⟩ := hstep
    exact .inl ⟨forward, rfl, hlock, hfresh, rfl, rfl⟩
  | insert =>
    simp only [step] at hstep
    split at hstep
    case h_1 forward n hlock =>
      simp only [Option.some.injEq, Prod.mk.injEq] at hstep
      obtain ⟨rfl, rfl⟩ := hstep
      exact .inr (.inl ⟨forward, n, rfl, hlock, rfl, rfl⟩)
    case h_2 => cases hstep
  | finish n =>
    simp only [step] at hstep
    split at hstep
    case h_1 task htask =>
      simp only [Option.ite_none_right_eq_some, Option.some.injEq, Prod.mk.injEq] at hstep
      obtain ⟨-, rfl, rfl⟩ := hstep
      exact .inr (.inr (.inl ⟨n, task, _, rfl, htask, rfl, rfl⟩))
    case h_2 => cases hstep
  | drop n panicked =>
    simp only [step] at hstep
    split at hstep
    case h_1 task htask =>
      simp only [Option.ite_none_right_eq_some, Option.some.injEq, Prod.mk.injEq] at hstep
      obtain ⟨-, rfl, rfl⟩ := hstep
      exact .inr (.inr (.inl ⟨n, task, _, rfl, htask, rfl, rfl⟩))
    case h_2 => cases hstep
  | remove n =>
    simp only [step] at hstep
    split at hstep
    case h_1 task htask =>
      simp only [Option.ite_none_right_eq_some, Option.some.injEq, Prod.mk.injEq] at hstep
      obtain ⟨⟨-, hlock⟩, rfl, rfl⟩ := hstep
      exact .inr (.inr (.inr (.inl ⟨n, task, rfl, htask, hlock, rfl, rfl⟩)))
    case h_2 => cases hstep
  | stop id =>
    simp only [step, Option.ite_none_right_eq_some, Option.some.injEq, Prod.mk.injEq] at hstep
    obtain ⟨hlock, rfl, rfl⟩ := hstep
    exact .inr (.inr (.inr (.inr (.inl ⟨id, rfl, hlock, rfl, rfl⟩))))
  | list =>
    simp only [step, Option.ite_none_right_eq_some, Option.some.injEq, Prod.mk.injEq] at hstep
    obtain ⟨hlock, rfl, rfl⟩ := hstep
    exact .inr (.inr (.inr (.inr (.inr ⟨rfl, hlock, rfl, rfl⟩))))

/-- The tasks have the ids of the registered tunnels and of the one that is being registered, and the map holds
what is alive. -/
structure Inv (h : List TunnelObs) (s : Tunnels) : Prop where
  ids_nodup : (s.tasks.map TunnelTask.id).Nodup
  registered_iff : ∀ id, Registered id h ↔
    id ∈ s.tasks.map TunnelTask.id ∧ ∀ forward n, s.registering = some (forward, n) → forward.id ≠ id
  registering_task : ∀ forward n, s.registering = some (forward, n) →
    ∃ task, s.tasks[n]? = some task ∧ task.id = forward.id
  active_task : ∀ entry ∈ s.active, ∃ task, s.tasks[entry.2]? = some task ∧ task.id = entry.1.id
  ids_iff : ∀ id, id ∈ s.ids ↔ Live id h
  removed_registered : ∀ id, .removed id ∈ h → Registered id h

variable {h : List TunnelObs} {old new : TunnelTask}

theorem map_id_set (hold : s.tasks[n]? = some old) (hid : new.id = old.id) :
    (s.tasks.set n new).map TunnelTask.id = s.tasks.map TunnelTask.id := by
  refine List.ext_getElem? fun i => ?_
  rw [List.map_set, List.getElem?_set]
  split
  case isTrue hi =>
    subst hi
    rw [List.getElem?_map, hold, hid]
    split
    case isTrue => rfl
    case isFalse hlt =>
      rw [List.length_map] at hlt
      exact absurd (List.getElem?_eq_some_iff.mp hold).1 hlt
  case isFalse => rfl

variable {k : String}

theorem exists_task_set (hold : s.tasks[n]? = some old) (hid : new.id = old.id) {m : Nat}
    (htask : ∃ task, s.tasks[m]? = some task ∧ task.id = k) :
    ∃ task, (s.tasks.set n new)[m]? = some task ∧ task.id = k := by
  obtain ⟨task, htask, hk⟩ := htask
  by_cases hm : m = n
  · subst hm
    cases hold.symm.trans htask
    exact ⟨new, (getElem?_set_eq_some hold).mpr (.inl ⟨rfl, rfl⟩), hid.trans hk⟩
  · exact ⟨task, (getElem?_set_eq_some hold).mpr (.inr ⟨hm, htask⟩), hk⟩

theorem Inv.set_task (hinv : Inv h s) (hold : s.tasks[n]? = some old) (hid : new.id = old.id) :
    Inv h { s with tasks := s.tasks.set n new } where
  ids_nodup := map_id_set hold hid ▸ hinv.ids_nodup
  registered_iff k := by
    rw [hinv.registered_iff, map_id_set hold hid]
  registering_task forward m hreg := exists_task_set hold hid (hinv.registering_task forward m hreg)
  active_task entry hentry := exists_task_set hold hid (hinv.active_task entry hentry)
  ids_iff := hinv.ids_iff
  removed_registered := hinv.removed_registered

/-- An observation that ends the tunnel under an id: a stop, or the removal by a task that was registered. -/
def Ends (h : List TunnelObs) (k : String) (x : TunnelObs) : Prop :=
  x = .stopped k ∨ x = .removed k ∧ Registered k h

theorem Ends.ne_registered {x : TunnelObs} (hx : Ends h k x) (forward : LocalForward) : x ≠ .registered forward := by
  rcases hx with rfl | ⟨rfl, -⟩ <;> exact fun he => nomatch he

theorem Ends.other_iff {x : TunnelObs} (hx : Ends h k x) (k' : String) :
    (x ≠ .stopped k' ∧ x ≠ .removed k') ↔ k' ≠ k := by
  rcases hx with rfl | ⟨rfl, -⟩
  · simp [eq_comm]
  · simp [eq_comm]

theorem Inv.drop {x : TunnelObs} (hinv : Inv h s) (hends : Ends h k x) :
    Inv (h ++ [x]) { s with active := s.without k } where
  ids_nodup := hinv.ids_nodup
  registered_iff k' := by
    rw [registered_concat_of_ne hends.ne_registered, hinv.registered_iff]
  registering_task := hinv.registering_task
  active_task entry hentry := hinv.active_task entry (mem_without_iff.mp hentry).1
  ids_iff k' := by
    rw [live_concat hends.ne_registered, hends.other_iff, ← hinv.ids_iff, mem_ids_iff, mem_ids_iff]
    constructor
    · rintro ⟨entry, hentry, rfl⟩
      obtain ⟨hmem, hne⟩ := mem_without_iff.mp hentry
      exact ⟨⟨entry, hmem, rfl⟩, hne⟩
    · rintro ⟨⟨entry, hmem, rfl⟩, hne⟩
      exact ⟨entry, mem_without_iff.mpr ⟨hmem, hne⟩, rfl⟩
  removed_registered k' hmem := by
    rw [registered_concat_of_ne hends.ne_registered]
    rcases List.mem_append.mp hmem with hmem | hmem
    · exact hinv.removed_registered k' hmem
    · rcases hends with rfl | ⟨rfl, hregistered⟩
      · cases List.mem_singleton.mp hmem
      · cases List.mem_singleton.mp hmem
        exact hregistered

theorem Inv.spawn {forward : LocalForward} (hinv : Inv h s) (hlock : s.registering = none)
    (hfresh : forward.id ∉ s.tasks.map TunnelTask.id) :
    Inv h { s with registering := some (forward, s.tasks.length), tasks := s.tasks ++ [{ id := forward.id }] } where
  ids_nodup := by
    rw [List.map_append, List.nodup_append]
    refine ⟨hinv.ids_nodup, List.nodup_cons.mpr ⟨List.not_mem_nil, List.nodup_nil⟩, fun k hk k' hk' he => ?_⟩
    have hid : k' = forward.id := List.mem_singleton.mp hk'
    rw [he, hid] at hk
    exact hfresh hk
  registered_iff k := by
    rw [hinv.registered_iff, List.map_append, List.mem_append, List.map_singleton, List.mem_singleton]
    constructor
    · rintro ⟨hmem, -⟩
      refine ⟨.inl hmem, fun forward' m hreg => ?_⟩
      cases hreg
      exact fun hk => hfresh (hk ▸ hmem)
    · rintro ⟨hmem, hne⟩
      refine ⟨hmem.resolve_right fun hk => hne forward _ rfl hk.symm, fun forward' m hreg => ?_⟩
      rw [hlock] at hreg
      cases hreg
  registering_task forward' m hreg := by
    cases hreg
    exact ⟨{ id := forward.id }, getElem?_concat_eq_some.mpr (.inr ⟨rfl, rfl⟩), rfl⟩
  active_task entry hentry := by
    obtain ⟨task, htask, hid⟩ := hinv.active_task entry hentry
    exact ⟨task, getElem?_concat_eq_some.mpr (.inl htask), hid⟩
  ids_iff := hinv.ids_iff
  removed_registered := hinv.removed_registered

theorem Inv.insert {forward : LocalForward} (hinv : Inv h s) (hlock : s.registering = some (forward, n)) :
    Inv (h ++ [.registered forward])
      { s with registering := none, active := s.without forward.id ++ [(forward, n)] } := by
  have hnew : ¬ Registered forward.id h := by
    intro hregistered
    exact ((hinv.registered_iff _).mp hregistered).2 forward n hlock rfl
  obtain ⟨own, hown, hownid⟩ := hinv.registering_task forward n hlock
  have hregistered : ∀ k, Registered k (h ++ [.registered forward]) ↔ Registered k h ∨ forward.id = k := by
    intro k
    rw [registered_concat]
    refine or_congr_right ⟨?_, fun hk => ⟨forward, rfl, hk⟩⟩
    rintro ⟨forward', hsame, hk⟩
    exact TunnelObs.registered.inj hsame ▸ hk
  have hids : ∀ k, k ∈ ids { s with registering := none, active := s.without forward.id ++ [(forward, n)] } ↔
      forward.id = k ∨ k ∈ s.ids := by
    intro k
    rw [mem_ids_iff, mem_ids_iff]
    constructor
    · rintro ⟨entry, hentry, rfl⟩
      rcases List.mem_append.mp hentry with hentry | hentry
      · exact .inr ⟨entry, (mem_without_iff.mp hentry).1, rfl⟩
      · exact .inl (by rw [List.mem_singleton.mp hentry])
    · rintro (rfl | ⟨entry, hentry, rfl⟩)
      · exact ⟨(forward, n), List.mem_concat_self, rfl⟩
      · have hne : entry.1.id ≠ forward.id := by
          intro he
          exact hnew ((hinv.ids_iff _).mp (he ▸ mem_ids_iff.mpr ⟨entry, hentry, rfl⟩)).registered
        exact ⟨entry, List.mem_append_left _ (mem_without_iff.mpr ⟨hentry, hne⟩), rfl⟩
  refine ⟨hinv.ids_nodup, fun k => ?_, fun _ _ hreg => (nomatch hreg), fun entry hentry => ?_, fun k => ?_,
    fun k hmem => ?_⟩
  · rw [hregistered, hinv.registered_iff]
    constructor
    · rintro (⟨hmem, -⟩ | rfl)
      · exact ⟨hmem, fun _ _ hreg => nomatch hreg⟩
      · exact ⟨List.mem_map.mpr ⟨own, List.mem_of_getElem? hown, hownid⟩, fun _ _ hreg => nomatch hreg⟩
    · rintro ⟨hmem, -⟩
      by_cases hk : forward.id = k
      · exact .inr hk
      · refine .inl ⟨hmem, fun forward' m hreg => ?_⟩
        rw [hlock] at hreg
        cases hreg
        exact hk
  · rcases List.mem_append.mp hentry with hentry | hentry
    · exact hinv.active_task entry (mem_without_iff.mp hentry).1
    · rw [List.mem_singleton.mp hentry]
      exact ⟨own, hown, hownid⟩
  · rw [hids, live_concat_registered, hinv.ids_iff]
    constructor
    · rintro (rfl | hlive)
      · exact ⟨fun hm => hnew (hinv.removed_registered _ hm), .inl rfl⟩
      · exact ⟨hlive.2, .inr hlive⟩
    · exact fun hlive => hlive.2
  · rw [hregistered]
    rcases List.mem_append.mp hmem with hmem | hmem
    · exact .inl (hinv.removed_registered k hmem)
    · cases List.mem_singleton.mp hmem

theorem Inv.stop (hinv : Inv h s) (k : String) : Inv (h ++ [.stopped k]) (s.stop k) := by
  have hdropped : Inv (h ++ [.stopped k]) { s with active := s.without k } := hinv.drop (.inl rfl)
  unfold Tunnels.stop
  split
  case h_1 forward n hfind =>
    obtain ⟨task, htask, -⟩ := hinv.active_task _ (List.mem_of_find?_eq_some hfind)
    have haborted : s.abort n = s.tasks.set n { task with aborted := true } := by
      unfold abort
      rw [htask]
    rw [haborted]
    exact hdropped.set_task htask rfl
  case h_2 hfind =>
    rw [List.find?_eq_none] at hfind
    have hall : s.without k = s.active := List.filter_eq_self.mpr fun entry hentry => by
      simpa using hfind entry hentry
    rw [hall] at hdropped
    exact hdropped

theorem Inv.list (hinv : Inv h s) : Inv (h ++ [.listed (s.active.map Prod.fst)]) s := by
  have hne : ∀ forward, TunnelObs.listed (s.active.map Prod.fst) ≠ .registered forward := fun _ he => nomatch he
  refine ⟨hinv.ids_nodup, fun k => ?_, hinv.registering_task, hinv.active_task, fun k => ?_, fun k hmem => ?_⟩
  · rw [registered_concat_of_ne hne, hinv.registered_iff]
  · rw [live_concat hne, hinv.ids_iff]
    exact (and_iff_left ⟨by simp, by simp⟩).symm
  · rw [registered_concat_of_ne hne]
    rcases List.mem_append.mp hmem with hmem | hmem
    · exact hinv.removed_registered k hmem
    · cases List.mem_singleton.mp hmem

theorem Inv.step (hinv : Inv h s) (hstep : s.step e = some (s', o)) : Inv (h ++ o) s' := by
  rcases step_cases hstep with ⟨forward, rfl, hlock, hfresh, rfl, rfl⟩ | ⟨forward, n, rfl, hlock, rfl, rfl⟩ |
    ⟨n, task, phase, -, htask, rfl, rfl⟩ | ⟨n, task, rfl, htask, hlock, rfl, rfl⟩ | ⟨k, rfl, hlock, rfl, rfl⟩ |
    ⟨rfl, hlock, rfl, rfl⟩
  · rw [List.append_nil]
    exact hinv.spawn hlock hfresh
  · exact hinv.insert hlock
  · rw [List.append_nil]
    exact hinv.set_task htask rfl
  · -- The task gets the lock only after the call that spawned it has registered it.
    have hregistered : Registered task.id h := by
      refine (hinv.registered_iff task.id).mpr ⟨List.mem_map.mpr ⟨task, List.mem_of_getElem? htask, rfl⟩, ?_⟩
      intro forward m hreg
      rw [hlock] at hreg
      cases hreg
    exact (hinv.drop (.inr ⟨rfl, hregistered⟩)).set_task htask rfl
  · exact hinv.stop k
  · exact hinv.list

theorem inv_start : Inv [] {} where
  ids_nodup := List.nodup_nil
  registered_iff k := by
    refine iff_of_false ?_ ?_
    · rintro ⟨forward, hmem, -⟩
      cases hmem
    · rintro ⟨hmem, -⟩
      cases hmem
  registering_task _ _ hreg := nomatch hreg
  active_task _ hentry := nomatch hentry
  ids_iff k := by
    refine iff_of_false (fun hmem => nomatch hmem) ?_
    rintro ⟨⟨before, forward, after, heq, -, -⟩, -⟩
    exact absurd heq.symm (List.append_ne_nil_of_right_ne_nil _ (List.cons_ne_nil _ _))
  removed_registered _ hmem := nomatch hmem

/-- The runs of the registry, with every order of steps. -/
abbrev Run (h : List TunnelObs) (s : Tunnels) : Prop := Reaches step (fun _ _ => True) {} h s

theorem Run.inv (hrun : Run h s) : Inv h s :=
  Reaches.invariant inv_start (fun hinv _ hstep => hinv.step hstep) hrun

/-- The id has been a tunnel's, and is no more. -/
def Gone (k : String) (s : Tunnels) : Prop :=
  k ∈ s.tasks.map TunnelTask.id ∧ (∀ forward n, s.registering = some (forward, n) → forward.id ≠ k) ∧ k ∉ s.ids

theorem map_id_abort (s : Tunnels) (n : Nat) : (s.abort n).map TunnelTask.id = s.tasks.map TunnelTask.id := by
  unfold abort
  split
  case h_1 task htask => exact map_id_set htask rfl
  case h_2 => rfl

theorem notMem_ids_without {k k' : String} (hk : k ∉ s.ids) {t : Tunnels} (ht : t.active = s.without k') :
    k ∉ t.ids := by
  intro hmem
  obtain ⟨entry, hentry, hid⟩ := mem_ids_iff.mp hmem
  rw [ht] at hentry
  exact hk (mem_ids_iff.mpr ⟨entry, (mem_without_iff.mp hentry).1, hid⟩)

theorem Gone.step (hgone : Gone k s) (hstep : s.step e = some (s', o)) : Gone k s' := by
  obtain ⟨htask, hother, hids⟩ := hgone
  rcases step_cases hstep with ⟨forward, rfl, hlock, hfresh, rfl, rfl⟩ | ⟨forward, n, rfl, hlock, rfl, rfl⟩ |
    ⟨n, task, phase, -, hat, rfl, rfl⟩ | ⟨n, task, rfl, hat, hlock, rfl, rfl⟩ | ⟨k', rfl, hlock, rfl, rfl⟩ |
    ⟨rfl, hlock, rfl, rfl⟩
  · refine ⟨?_, fun forward' n hreg => ?_, hids⟩
    · rw [List.map_append]
      exact List.mem_append_left _ htask
    · cases hreg
      exact fun he => hfresh (he ▸ htask)
  · refine ⟨htask, fun _ _ hreg => (nomatch hreg), fun hmem => ?_⟩
    obtain ⟨entry, hentry, hid⟩ := mem_ids_iff.mp hmem
    rcases List.mem_append.mp hentry with hentry | hentry
    · exact hids (mem_ids_iff.mpr ⟨entry, (mem_without_iff.mp hentry).1, hid⟩)
    · rw [List.mem_singleton.mp hentry] at hid
      exact hother forward n hlock hid
  · refine ⟨?_, hother, hids⟩
    rw [map_id_set hat]
    · exact htask
    · rfl
  · refine ⟨?_, hother, notMem_ids_without hids rfl⟩
    rw [map_id_set hat]
    · exact htask
    · rfl
  · obtain ⟨hreg, hactive, htasks⟩ := stop_spec (s := s) k'
    refine ⟨?_, hreg ▸ hother, notMem_ids_without hids hactive⟩
    rcases htasks with htasks | ⟨n, -, htasks⟩
    · rwa [htasks]
    · rwa [htasks, map_id_abort]
  · exact ⟨htask, hother, hids⟩

theorem Gone.run {h' : List TunnelObs} (hgone : Gone k s)
    (hrun : Reaches Tunnels.step (fun _ _ => True) s h' s') : Gone k s' :=
  hrun.invariant (I := fun _ s => Gone k s) hgone fun hgone _ hstep => hgone.step hstep

theorem active_of_task_step {task : TunnelTask} (htask : s.tasks[n]? = some task) (hown : e.task = some n)
    (hstep : s.step e = some (s', o)) : s'.active = s.active ∨ s'.active = s.without task.id := by
  rcases step_cases hstep with ⟨forward, rfl, -, -, rfl, rfl⟩ | ⟨forward, m, rfl, -, rfl, rfl⟩ |
    ⟨m, task', phase, -, -, rfl, rfl⟩ | ⟨m, task', rfl, hat, hlock, rfl, rfl⟩ | ⟨k, rfl, -, rfl, rfl⟩ |
    ⟨rfl, -, rfl, rfl⟩
  · cases hown
  · cases hown
  · exact .inl rfl
  · cases hown
    cases hat.symm.trans htask
    exact .inr rfl
  · cases hown
  · cases hown

theorem listed_of_step {forwards : List LocalForward} {o' : List TunnelObs}
    (hstep : s.step e = some (s', o ++ .listed forwards :: o')) :
    o = [] ∧ forwards = s.active.map Prod.fst := by
  have hmem : .listed forwards ∈ o ++ .listed forwards :: o' := by simp
  rcases step_cases hstep with ⟨_, _, _, _, _, ho⟩ | ⟨_, _, _, _, _, ho⟩ | ⟨_, _, _, _, _, _, ho⟩ |
    ⟨_, _, _, _, _, _, ho⟩ | ⟨_, _, _, _, ho⟩ | ⟨_, _, _, ho⟩
  · rw [ho] at hmem
    cases hmem
  · rw [ho] at hmem
    cases List.mem_singleton.mp hmem
  · rw [ho] at hmem
    cases hmem
  · rw [ho] at hmem
    cases List.mem_singleton.mp hmem
  · rw [ho] at hmem
    cases List.mem_singleton.mp hmem
  · rcases List.append_eq_singleton_iff.mp ho with ⟨hnil, hx⟩ | ⟨-, hnil⟩
    · exact ⟨hnil, TunnelObs.listed.inj (List.cons.inj hx).1⟩
    · cases hnil

/-- The registry lists exactly the tunnels that run: in every run, an id is in the map, and in every listing that
was made, exactly when it was registered and has neither been removed by its task nor stopped; an id that is gone
stays away; and a task changes the registry for no other id, and that of a stopped tunnel for none at all. -/
theorem registry_lists_running (hrun : Reaches Tunnels.step (fun _ _ => True) {} h s) :
    (∀ k, k ∈ s.ids ↔ Live k h) ∧
    (∀ before forwards after, h = before ++ .listed forwards :: after →
      ∀ k, k ∈ forwards.map LocalForward.id ↔ Live k before) ∧
    (∀ k, Registered k h → ¬ Live k h →
      ∀ h' s', Reaches Tunnels.step (fun _ _ => True) s h' s' → ¬ Live k (h ++ h') ∧ k ∉ s'.ids) ∧
    (∀ (n : Nat) task, s.tasks[n]? = some task → ∀ e s' o, e.task = some n → s.step e = some (s', o) →
      (∀ entry : LocalForward × Nat, entry.1.id ≠ task.id → (entry ∈ s'.active ↔ entry ∈ s.active)) ∧
        (Registered task.id h → ¬ Live task.id h → s'.active = s.active)) := by
  have hinv : Inv h s := Run.inv hrun
  refine ⟨hinv.ids_iff, ?_, ?_, ?_⟩
  · intro before forwards after hsplit k
    refine Reaches.observed (Q := fun h x => ∀ forwards, x = .listed forwards →
      ∀ k, k ∈ forwards.map LocalForward.id ↔ Live k h) ?_ hrun hsplit forwards rfl k
    intro h s e s' o1 x o2 hreach _ hstep forwards hx k
    subst hx
    obtain ⟨rfl, rfl⟩ := listed_of_step hstep
    rw [List.append_nil, ← (Run.inv hreach).ids_iff, List.map_map]
    exact Iff.rfl
  · intro k hregistered hdead h' s' hlater
    have hrun' : Run (h ++ h') s' := hrun.trans hlater
    obtain ⟨htask, hother⟩ := (hinv.registered_iff k).mp hregistered
    have hgone : Gone k s := ⟨htask, hother, fun hmem => hdead ((hinv.ids_iff k).mp hmem)⟩
    have hnot := (hgone.run hlater).2.2
    exact ⟨fun hlive => hnot ((hrun'.inv.ids_iff k).mpr hlive), hnot⟩
  · intro n task htask e s' o hown hstep
    rcases active_of_task_step htask hown hstep with hactive | hactive
    · exact ⟨fun _ _ => hactive ▸ Iff.rfl, fun _ _ => hactive⟩
    · rw [hactive]
      refine ⟨fun entry hne => ?_, fun _ hdead => List.filter_eq_self.mpr fun entry hentry => ?_⟩
      · rw [mem_without_iff]
        exact and_iff_left hne
      · have hne : entry.1.id ≠ task.id := fun he =>
          hdead ((hinv.ids_iff _).mp (mem_ids_iff.mpr ⟨entry, hentry, he⟩))
        simpa using hne

/-- A tunnel that ends while it is being registered. -/
theorem registry_lists_running_immediate :
    let s : Tunnels := { tasks := [{ id := "t", phase := .over }] }
    let h : List TunnelObs := [.registered { id := "t" }, .listed [{ id := "t" }], .removed "t", .listed []]
    Reaches Tunnels.step (fun _ _ => True) {} h s ∧ ("t" ∈ s.ids ↔ Live "t" h) ∧
      ∀ k, k ∈ ([] : List LocalForward).map LocalForward.id ↔
        Live k [.registered { id := "t" }, .listed [{ id := "t" }], .removed "t"] := by
  intro s h
  have hrun : Reaches Tunnels.step (fun _ _ => True) {} ([] ++ h) s :=
    Reaches.of_runEvents [.spawn { id := "t" }, .finish 0, .insert, .list, .remove 0, .list]
      (fun _ _ _ => trivial) .start (by decide)
  exact ⟨hrun, (registry_lists_running hrun).1 "t", (registry_lists_running hrun).2.1 _ [] [] rfl⟩

end Tunnels

end Portix.Forward
