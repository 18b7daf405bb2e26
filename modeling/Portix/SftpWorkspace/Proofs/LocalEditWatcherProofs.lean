import Portix.SftpWorkspace.LocalEditWatcher

/-!
# Saves of edited copies

A step is taken apart into what it finds (`Taken`). The invariant has three parts: the times that are
known, the timers with the ticks they have running, and what the history says of the saves the timers
have seen.
-/

namespace Portix.SftpWorkspace

open Lib

/-- Two timers that differ at most in being cancelled. -/
def WatchTimer.Alike (timer timer' : WatchTimer) : Prop :=
  timer.path = timer'.path ∧ timer.lastSeen = timer'.lastSeen ∧ timer.running = timer'.running

namespace LocalEditWatcher

variable {s s' : LocalEditWatcher} {h o : List WatchObs} {event : WatchEvent} {path : String}
  {t time : Nat} {timer : WatchTimer}

/-- The steps there are, by what they find. -/
inductive Taken (s : LocalEditWatcher) : WatchEvent → LocalEditWatcher → List WatchObs → Prop where
  | save (path : String) : Taken s (.save path) (s.save path) []
  | watch (path : String) : Taken s (.watch path)
      { s with watches := s.watches ++ [.stating path none false] } [.watched path]
  | readWatch {i : Nat} {path : String} {stopped : Bool}
      (hat : s.watches[i]? = some (.stating path none stopped)) : Taken s (.readWatch i)
      (s.setWatch i (.stating path (some (s.modified path)) stopped)) []
  | startWatch {i modified : Nat} {path : String} {stopped : Bool}
      (hat : s.watches[i]? = some (.stating path (some modified) stopped)) :
      Taken s (.startWatch i) (s.startWatch i path modified) []
  | fire (t : Nat) : Taken s (.fire t) { s with ticks := s.ticks ++ [.stating t none] } []
  | readTick {k t : Nat} {timer : WatchTimer} (hat : s.ticks[k]? = some (.stating t none))
      (hmade : s.made[t]? = some timer) :
      Taken s (.readTick k) (s.setTick k (.stating t (some (s.modified timer.path)))) []
  | resumeOld {k t modified : Nat} {timer : WatchTimer}
      (hat : s.ticks[k]? = some (.stating t (some modified))) (hmade : s.made[t]? = some timer)
      (hold : modified ≤ timer.lastSeen) :
      Taken s (.resumeTick k) (s.setTick k .completed) [.ticked timer.path modified]
  | resumeRunning {k t modified : Nat} {timer : WatchTimer}
      (hat : s.ticks[k]? = some (.stating t (some modified))) (hmade : s.made[t]? = some timer)
      (hnew : timer.lastSeen < modified) (hrunning : timer.running = true) :
      Taken s (.resumeTick k)
        (s.setTimer t { timer with lastSeen := modified } |>.setTick k .completed)
        [.ticked timer.path modified]
  | resumeIdle {k t modified : Nat} {timer : WatchTimer}
      (hat : s.ticks[k]? = some (.stating t (some modified))) (hmade : s.made[t]? = some timer)
      (hnew : timer.lastSeen < modified) (hidle : timer.running = false) :
      Taken s (.resumeTick k) (s.setTimer t { timer with lastSeen := modified, running := true } |>.setTick
        k (.saving t modified)) [.began timer.path s.clock]
  | returned {k t modified : Nat} {timer : WatchTimer}
      (hat : s.ticks[k]? = some (.saving t modified)) (hmade : s.made[t]? = some timer) :
      Taken s (.returned k) (s.returned k t timer modified).1 (s.returned k t timer modified).2
  | thrown {k t modified : Nat} {timer : WatchTimer}
      (hat : s.ticks[k]? = some (.saving t modified)) (hmade : s.made[t]? = some timer) :
      Taken s (.thrown k) (s.thrown k t timer modified).1 (s.thrown k t timer modified).2
  | unwatch (path : String) : Taken s (.unwatch path) (s.unwatch path) [.unwatched path]
  | dispose : Taken s .dispose s.dispose [.disposed]

theorem taken_of_resumeTick {k modified : Nat}
    (hat : s.ticks[k]? = some (.stating t (some modified))) (hmade : s.made[t]? = some timer) :
    Taken s (.resumeTick k) (s.resumeTick k t timer modified).1
      (s.resumeTick k t timer modified).2 := by
  unfold resumeTick
  split
  · rename_i hold
    exact .resumeOld hat hmade hold
  · rename_i hnew
    split
    · rename_i hrunning
      exact .resumeRunning hat hmade (by omega) hrunning
    · rename_i hidle
      exact .resumeIdle hat hmade (by omega) (by simpa using hidle)

theorem of_map_eq_some {f : WatchTimer → LocalEditWatcher × List WatchObs} (hstep : (s.made[t]?).map f = some (s', o)) :
    ∃ timer, s.made[t]? = some timer ∧ (f timer).1 = s' ∧ (f timer).2 = o := by
  obtain ⟨timer, hmade, heq⟩ := Option.map_eq_some_iff.mp hstep
  exact ⟨timer, hmade, by rw [heq], by rw [heq]⟩

theorem taken_of_step (hstep : s.step event = some (s', o)) : Taken s event s' o := by
  revert hstep
  fun_cases step s event <;> intro hstep
  all_goals first
    | cases hstep <;> constructor <;> assumption
    | obtain ⟨timer, hmade, rfl, rfl⟩ := of_map_eq_some hstep
  case case10 hat => exact .readTick hat hmade
  case case12 hat => exact taken_of_resumeTick hat hmade
  case case14 hat => exact .returned hat hmade
  case case16 hat => exact .thrown hat hmade

variable {which : String → Bool}

theorem getElem?_cancel (t : Nat) : (s.cancel which)[t]? = (s.made[t]?).map fun timer =>
    if which timer.path ∧ s.timers timer.path = some t then { timer with cancelled := true }
    else timer := by
  unfold cancel
  rw [List.getElem?_mapIdx]

theorem alike_cancelled (timer : WatchTimer) (which : Prop) [Decidable which] :
    timer.Alike (if which then { timer with cancelled := true } else timer) := by
  split
  · exact ⟨rfl, rfl, rfl⟩
  · exact ⟨rfl, rfl, rfl⟩

theorem cancel_of_made (hmade : s.made[t]? = some timer) :
    ∃ timer', (s.cancel which)[t]? = some timer' ∧ timer.Alike timer' := by
  rw [getElem?_cancel, hmade]
  exact ⟨_, rfl, alike_cancelled _ _⟩

theorem made_of_cancel (hcancel : (s.cancel which)[t]? = some timer) :
    ∃ old, s.made[t]? = some old ∧ old.Alike timer := by
  rw [getElem?_cancel] at hcancel
  obtain ⟨old, hmade, rfl⟩ := Option.map_eq_some_iff.mp hcancel
  exact ⟨old, hmade, alike_cancelled _ _⟩

theorem length_cancel : (s.cancel which).length = s.made.length := List.length_mapIdx

theorem made_of_startWatch {i modified : Nat} (hmade : (s.startWatch i path modified).made[t]? = some timer) :
    (∃ old, s.made[t]? = some old ∧ old.Alike timer) ∨
      (t = s.made.length ∧ timer = WatchTimer.mk path modified false false) := by
  have hconcat : (s.cancel (fun p => p = path) ++ [WatchTimer.mk path modified false false])[t]? = some timer := hmade
  rw [getElem?_concat_eq_some, length_cancel] at hconcat
  exact hconcat.imp made_of_cancel id

theorem startWatch_of_made {i modified : Nat} (hmade : s.made[t]? = some timer) :
    ∃ timer', (s.startWatch i path modified).made[t]? = some timer' ∧ timer.Alike timer' := by
  obtain ⟨timer', hcancel, halike⟩ : ∃ timer', (s.cancel fun p => p = path)[t]? = some timer' ∧ timer.Alike timer' :=
    cancel_of_made hmade
  exact ⟨timer', getElem?_concat_eq_some.mpr (.inl hcancel), halike⟩

/-- No time is after the clock. -/
structure Times (h : List WatchObs) (s : LocalEditWatcher) : Prop where
  modified_le (path : String) : s.modified path ≤ s.clock
  lastSave_le {path : String} {time : Nat} : s.lastSave path = some time → time ≤ s.clock
  lastSeen_le {t : Nat} {timer : WatchTimer} : s.made[t]? = some timer → timer.lastSeen ≤ s.clock
  read_le {k t modified : Nat} :
    s.ticks[k]? = some (.stating t (some modified)) → modified ≤ s.clock
  saving_le {k t modified : Nat} : s.ticks[k]? = some (.saving t modified) → modified ≤ s.clock
  readWatch_le {i modified : Nat} {path : String} {stopped : Bool} :
    s.watches[i]? = some (.stating path (some modified) stopped) → modified ≤ s.clock
  ticked_le {path : String} {modified : Nat} : .ticked path modified ∈ h → modified ≤ s.clock

theorem Times.initial : Times [] initial where
  modified_le _ := Nat.le_refl 0
  lastSave_le := by simp [LocalEditWatcher.initial]
  lastSeen_le := by simp [LocalEditWatcher.initial]
  read_le := by simp [LocalEditWatcher.initial]
  saving_le := by simp [LocalEditWatcher.initial]
  readWatch_le := by simp [LocalEditWatcher.initial]
  ticked_le := by simp

namespace Times

variable {k modified : Nat} {tick tick' : Tick}

theorem setTick (htimes : Times h s) (hat : s.ticks[k]? = some tick)
    (hstating : ∀ t modified, tick' = .stating t (some modified) → modified ≤ s.clock)
    (hsaving : ∀ t modified, tick' = .saving t modified → modified ≤ s.clock) :
    Times h (s.setTick k tick') :=
  { htimes with
    read_le := by
      intro j t modified hat'
      rcases (getElem?_set_eq_some hat).mp hat' with ⟨_, heq⟩ | ⟨_, hother⟩
      · exact hstating t modified heq.symm
      · exact htimes.read_le hother
    saving_le := by
      intro j t modified hat'
      rcases (getElem?_set_eq_some hat).mp hat' with ⟨_, heq⟩ | ⟨_, hother⟩
      · exact hsaving t modified heq.symm
      · exact htimes.saving_le hother }

theorem completeTick (htimes : Times h s) (hat : s.ticks[k]? = some tick) : Times h (s.setTick k .completed) :=
  htimes.setTick hat (fun _ _ heq => by cases heq) (fun _ _ heq => by cases heq)

theorem setTimer (htimes : Times h s) (hmade : s.made[t]? = some timer) {timer' : WatchTimer}
    (hle : timer'.lastSeen ≤ s.clock) : Times h (s.setTimer t timer') :=
  { htimes with
    lastSeen_le := by
      intro j timer hat
      rcases (getElem?_set_eq_some hmade).mp hat with ⟨_, rfl⟩ | ⟨_, hother⟩
      · exact hle
      · exact htimes.lastSeen_le hother }

theorem ticked (htimes : Times h s) (hle : modified ≤ s.clock) : Times (h ++ [.ticked path modified]) s :=
  { htimes with
    ticked_le := by
      intro path' modified' hmem
      rcases List.mem_append.mp hmem with hbefore | hnow
      · exact htimes.ticked_le hbefore
      · cases List.mem_singleton.mp hnow
        exact hle }

theorem seen (htimes : Times h s) {obs : WatchObs} (hobs : ∀ path modified, obs ≠ .ticked path modified) :
    Times (h ++ [obs]) s :=
  { htimes with
    ticked_le := by
      intro path modified hmem
      rcases List.mem_append.mp hmem with hbefore | hnow
      · exact htimes.ticked_le hbefore
      · exact absurd (List.mem_singleton.mp hnow).symm (hobs path modified) }

theorem save (htimes : Times h s) (path : String) : Times h (s.save path) where
  modified_le := by
    intro path'
    show Function.update s.modified path (s.clock + 1) path' ≤ s.clock + 1
    rw [Function.update_apply]
    split
    · exact Nat.le_refl _
    · exact Nat.le_succ_of_le (htimes.modified_le path')
  lastSave_le := by
    intro path' time hsave
    show time ≤ s.clock + 1
    have hlast : (if (s.timers path).isSome then Function.update s.lastSave path (some (s.clock + 1))
      else s.lastSave) path' = some time := hsave
    split at hlast
    · rw [Function.update_apply] at hlast
      split at hlast
      · exact Nat.le_of_eq (Option.some.inj hlast).symm
      · exact Nat.le_succ_of_le (htimes.lastSave_le hlast)
    · exact Nat.le_succ_of_le (htimes.lastSave_le hlast)
  lastSeen_le hmade := Nat.le_succ_of_le (htimes.lastSeen_le hmade)
  read_le hat := Nat.le_succ_of_le (htimes.read_le hat)
  saving_le hat := Nat.le_succ_of_le (htimes.saving_le hat)
  readWatch_le hat := Nat.le_succ_of_le (htimes.readWatch_le hat)
  ticked_le hmem := Nat.le_succ_of_le (htimes.ticked_le hmem)

theorem forget (htimes : Times h s) (path : String) : Times h (s.forget path) :=
  { htimes with
    lastSave_le := by
      intro path' time hsave
      have hlast : Function.update s.lastSave path none path' = some time := hsave
      rw [Function.update_apply] at hlast
      split at hlast
      · cases hlast
      · exact htimes.lastSave_le hlast }

theorem startWatch (htimes : Times h s) {i : Nat} {stopped : Bool}
    (hat : s.watches[i]? = some (.stating path (some modified) stopped)) :
    Times h (s.startWatch i path modified) :=
  { htimes with
    lastSeen_le := by
      intro t timer hmade
      rcases made_of_startWatch hmade with ⟨old, hold, halike⟩ | ⟨_, rfl⟩
      · rw [← halike.2.1]
        exact htimes.lastSeen_le hold
      · exact htimes.readWatch_le hat
    readWatch_le := by
      intro j modified' path' stopped' hat'
      rcases (getElem?_set_eq_some hat).mp hat' with ⟨_, heq⟩ | ⟨_, hother⟩
      · cases heq
      · exact htimes.readWatch_le hother }

theorem stop (htimes : Times h s) (which : String → Bool) : Times h (s.stop which) :=
  { htimes with
    lastSave_le := by
      intro path time hsave
      have hlast : (if which path then none else s.lastSave path) = some time := hsave
      split at hlast
      · cases hlast
      · exact htimes.lastSave_le hlast
    lastSeen_le := by
      intro t timer hmade
      obtain ⟨old, hold, halike⟩ := made_of_cancel hmade
      rw [← halike.2.1]
      exact htimes.lastSeen_le hold
    readWatch_le := by
      intro i modified path stopped hat
      have hmap : (s.watches.map (stopCall which))[i]? = some (.stating path (some modified) stopped) :=
        hat
      rw [List.getElem?_map] at hmap
      obtain ⟨call, hcall, heq⟩ := Option.map_eq_some_iff.mp hmap
      cases call with
      | stating path' modified' stopped' =>
        cases heq
        exact htimes.readWatch_le hcall
      | watching => cases heq }

end Times

theorem Times.step (htimes : Times h s) (htaken : Taken s event s' o) : Times (h ++ o) s' := by
  cases htaken with
  | save path =>
    rw [List.append_nil]
    exact htimes.save path
  | watch path =>
    have hwatch : Times h { s with watches := s.watches ++ [.stating path none false] } :=
      { htimes with
        readWatch_le := by
          intro i modified path' stopped hat
          rcases getElem?_concat_eq_some.mp hat with hbefore | ⟨_, heq⟩
          · exact htimes.readWatch_le hbefore
          · cases heq }
    exact hwatch.seen (fun _ _ heq => by cases heq)
  | @readWatch i path stopped hat =>
    rw [List.append_nil]
    exact { htimes with
      readWatch_le := by
        intro j modified path' stopped' hat'
        rcases (getElem?_set_eq_some hat).mp hat' with ⟨_, heq⟩ | ⟨_, hother⟩
        · obtain ⟨_, hread, _⟩ := WatchCall.stating.inj heq
          rw [Option.some.inj hread]
          exact htimes.modified_le path
        · exact htimes.readWatch_le hother }
  | startWatch hat =>
    rw [List.append_nil]
    exact htimes.startWatch hat
  | fire t =>
    rw [List.append_nil]
    exact { htimes with
      read_le := by
        intro k t' modified hat
        rcases getElem?_concat_eq_some.mp hat with hbefore | ⟨_, heq⟩
        · exact htimes.read_le hbefore
        · cases heq
      saving_le := by
        intro k t' modified hat
        rcases getElem?_concat_eq_some.mp hat with hbefore | ⟨_, heq⟩
        · exact htimes.saving_le hbefore
        · cases heq }
  | @readTick k t timer hat hmade =>
    rw [List.append_nil]
    refine htimes.setTick hat ?_ (fun _ _ heq => by cases heq)
    intro t' modified heq
    obtain ⟨_, hread⟩ := Tick.stating.inj heq
    rw [← Option.some.inj hread]
    exact htimes.modified_le timer.path
  | resumeOld hat hmade hold => exact (htimes.completeTick hat).ticked (htimes.read_le hat)
  | @resumeRunning k t modified timer hat hmade hnew hrunning =>
    have htimer : Times h (s.setTimer t { timer with lastSeen := modified }) :=
      htimes.setTimer hmade (htimes.read_le hat)
    exact (htimer.completeTick hat).ticked (htimes.read_le hat)
  | @resumeIdle k t modified timer hat hmade hnew hidle =>
    have htimer : Times h (s.setTimer t { timer with lastSeen := modified, running := true }) :=
      htimes.setTimer hmade (htimes.read_le hat)
    refine (htimer.setTick hat (fun _ _ heq => by cases heq) ?_).seen (fun _ _ heq => by cases heq)
    rintro t' modified' ⟨⟩
    exact htimes.read_le hat
  | @returned k t modified timer hat hmade =>
    have hle := htimes.lastSeen_le hmade
    have htimer : Times h (s.setTimer t { timer with running := false }) :=
      htimes.setTimer hmade hle
    exact (htimer.completeTick hat).ticked (htimes.saving_le hat)
  | @thrown k t modified timer hat hmade =>
    have hle := htimes.lastSeen_le hmade
    have htimer : Times h ((s.forget timer.path).setTimer t { timer with cancelled := true }) :=
      (htimes.forget timer.path).setTimer hmade hle
    exact (htimer.completeTick hat).ticked (htimes.saving_le hat)
  | unwatch path => exact (htimes.stop _).seen (fun _ _ heq => by cases heq)
  | dispose => exact (htimes.stop _).seen (fun _ _ heq => by cases heq)

/-- What is known of the timers. -/
structure Timers (s : LocalEditWatcher) : Prop where
  timer_of {path : String} {t : Nat} : s.timers path = some t →
    ∃ timer, s.made[t]? = some timer ∧ timer.path = path
  watched {path : String} {time : Nat} : s.lastSave path = some time → ∃ t, s.timers path = some t
  saves {k t modified : Nat} : s.ticks[k]? = some (Tick.saving t modified) →
    ∃ timer, s.made[t]? = some timer ∧ modified ≤ timer.lastSeen
  running {t : Nat} {timer : WatchTimer} : s.made[t]? = some timer →
    s.timers timer.path = some t → timer.running = true →
    ∃ k modified : Nat, s.ticks[k]? = some (.saving t modified)
  apart : s.Apart

theorem Timers.initial : Timers initial where
  timer_of := by simp [LocalEditWatcher.initial]
  watched := by simp [LocalEditWatcher.initial]
  saves := by simp [LocalEditWatcher.initial]
  running := by simp [LocalEditWatcher.initial]
  apart := by
    rintro path k k' ⟨t, modified, timer, hat, -⟩
    simp [LocalEditWatcher.initial] at hat

/-- The timers are still there, and no tick has got into `onSaved`. -/
structure Keeps (s s' : LocalEditWatcher) : Prop where
  made {t : Nat} {timer : WatchTimer} : s.made[t]? = some timer →
    ∃ timer', s'.made[t]? = some timer' ∧ timer'.path = timer.path ∧
      timer.lastSeen ≤ timer'.lastSeen
  ticks {k t modified : Nat} : s'.ticks[k]? = some (Tick.saving t modified) →
    s.ticks[k]? = some (.saving t modified)

namespace Keeps

theorem of_eq (hmade : s'.made = s.made) (hticks : s'.ticks = s.ticks) : Keeps s s' where
  made {t timer} hat := ⟨timer, by rw [hmade, hat], rfl, Nat.le_refl _⟩
  ticks hat := by rwa [hticks] at hat

theorem save (s : LocalEditWatcher) (path : String) : Keeps s (s.save path) := .of_eq rfl rfl

theorem forget (s : LocalEditWatcher) (path : String) : Keeps s (s.forget path) := .of_eq rfl rfl

theorem setTimer (hmade : s.made[t]? = some timer) {timer' : WatchTimer}
    (hpath : timer'.path = timer.path) (hle : timer.lastSeen ≤ timer'.lastSeen) :
    Keeps s (s.setTimer t timer') where
  made {j old} hat := by
    by_cases hsame : j = t
    · cases hat.symm.trans (hsame ▸ hmade)
      exact ⟨timer', (getElem?_set_eq_some hmade).mpr (.inl ⟨hsame, rfl⟩), hpath, hle⟩
    · exact ⟨old, (getElem?_set_eq_some hmade).mpr (.inr ⟨hsame, hat⟩), rfl, Nat.le_refl _⟩
  ticks hat := hat

theorem setTick {k : Nat} {tick tick' : Tick} (hat : s.ticks[k]? = some tick)
    (hnot : ∀ t modified, tick' ≠ .saving t modified) : Keeps s (s.setTick k tick') where
  made {_ timer} hmade := ⟨timer, hmade, rfl, Nat.le_refl _⟩
  ticks {j t modified} hat' := by
    rcases (getElem?_set_eq_some hat).mp hat' with ⟨_, heq⟩ | ⟨_, hother⟩
    · exact absurd heq.symm (hnot t modified)
    · exact hother

theorem trans {s'' : LocalEditWatcher} (hfirst : Keeps s s') (hsecond : Keeps s' s'') : Keeps s s'' where
  made hat := by
    obtain ⟨timer', hat', hpath, hle⟩ := hfirst.made hat
    obtain ⟨timer'', hat'', hpath', hle'⟩ := hsecond.made hat'
    exact ⟨timer'', hat'', hpath'.trans hpath, Nat.le_trans hle hle'⟩
  ticks hat := hfirst.ticks (hsecond.ticks hat)

theorem startWatch (s : LocalEditWatcher) (i : Nat) (path : String) (modified : Nat) :
    Keeps s (s.startWatch i path modified) where
  made hat := by
    obtain ⟨timer', hat', halike⟩ := startWatch_of_made hat
    exact ⟨timer', hat', halike.1.symm, Nat.le_of_eq halike.2.1⟩
  ticks hat := hat

theorem stop (s : LocalEditWatcher) (which : String → Bool) : Keeps s (s.stop which) where
  made hat := by
    obtain ⟨timer', hat', halike⟩ := cancel_of_made hat
    exact ⟨timer', hat', halike.1.symm, Nat.le_of_eq halike.2.1⟩
  ticks hat := hat

variable (hkeeps : Keeps s s') (htimers : Timers s)

include hkeeps htimers

theorem savingAt {k : Nat} (hsaving : s'.SavingAt k path) : s.SavingAt k path := by
  obtain ⟨t, modified, timer', hat, hmade', hpath⟩ := hsaving
  have hbefore := hkeeps.ticks hat
  obtain ⟨timer, hmade, -⟩ := htimers.saves hbefore
  obtain ⟨timer'', hmade'', hsame, -⟩ := hkeeps.made hmade
  cases hmade''.symm.trans hmade'
  exact ⟨t, modified, timer, hbefore, hmade, hsame.symm.trans hpath⟩

theorem apart : s'.Apart := fun path k k' hk hk' =>
  htimers.apart path k k' (hkeeps.savingAt htimers hk) (hkeeps.savingAt htimers hk')

theorem saves {k modified : Nat} (hat : s'.ticks[k]? = some (.saving t modified)) :
    ∃ timer, s'.made[t]? = some timer ∧ modified ≤ timer.lastSeen := by
  obtain ⟨timer, hmade, hle⟩ := htimers.saves (hkeeps.ticks hat)
  obtain ⟨timer', hmade', -, hle'⟩ := hkeeps.made hmade
  exact ⟨timer', hmade', Nat.le_trans hle hle'⟩

theorem timer_of (hmap : s'.timers path = some t → s.timers path = some t)
    (htimer : s'.timers path = some t) : ∃ timer, s'.made[t]? = some timer ∧ timer.path = path := by
  obtain ⟨timer, hmade, hpath⟩ := htimers.timer_of (hmap htimer)
  obtain ⟨timer', hmade', hsame, -⟩ := hkeeps.made hmade
  exact ⟨timer', hmade', hsame.trans hpath⟩

end Keeps

namespace Timers

variable {k modified : Nat} {tick' : Tick}

theorem setTick (htimers : Timers s) {tick : Tick} (hat : s.ticks[k]? = some tick)
    (hbefore : ∀ t modified, tick ≠ .saving t modified)
    (hnot : ∀ t modified, tick' ≠ .saving t modified) : Timers (s.setTick k tick') where
  timer_of := htimers.timer_of
  watched := htimers.watched
  saves := (Keeps.setTick hat hnot).saves htimers
  apart := (Keeps.setTick hat hnot).apart htimers
  running {t timer} hmade htimer hrunning := by
    obtain ⟨j, modified, hsaving⟩ := htimers.running hmade htimer hrunning
    refine ⟨j, modified, (getElem?_set_eq_some hat).mpr (.inr ⟨?_, hsaving⟩)⟩
    rintro rfl
    exact hbefore t modified (Option.some.inj (hat.symm.trans hsaving))

theorem save (htimers : Timers s) (path : String) : Timers (s.save path) where
  timer_of := htimers.timer_of
  watched {path' time} hsave := by
    show ∃ t, s.timers path' = some t
    have hlast : (if (s.timers path).isSome then Function.update s.lastSave path (some (s.clock + 1))
      else s.lastSave) path' = some time := hsave
    split at hlast
    · rename_i hwatched
      rw [Function.update_apply] at hlast
      split at hlast
      · rename_i hsame
        rw [hsame]
        exact Option.isSome_iff_exists.mp hwatched
      · exact htimers.watched hlast
    · exact htimers.watched hlast
  saves := (Keeps.save s path).saves htimers
  apart := (Keeps.save s path).apart htimers
  running := htimers.running

theorem startWatch (htimers : Timers s) (i : Nat) (path : String) (modified : Nat) :
    Timers (s.startWatch i path modified) where
  timer_of {path' t} htimer := by
    have hmap : Function.update s.timers path (some s.made.length) path' = some t := htimer
    rw [Function.update_apply] at hmap
    split at hmap
    · rename_i hsame
      refine ⟨_, getElem?_concat_eq_some.mpr (.inr ⟨?_, rfl⟩), hsame.symm⟩
      rw [length_cancel]
      exact (Option.some.inj hmap).symm
    · exact (Keeps.startWatch s i path modified).timer_of htimers (fun _ => hmap) htimer
  watched {path' time} hsave := by
    show ∃ t, Function.update s.timers path (some s.made.length) path' = some t
    rw [Function.update_apply]
    split
    · exact ⟨_, rfl⟩
    · exact htimers.watched hsave
  saves := (Keeps.startWatch s i path modified).saves htimers
  apart := (Keeps.startWatch s i path modified).apart htimers
  running {t timer} hmade htimer hrunning := by
    have hmap : Function.update s.timers path (some s.made.length) timer.path = some t := htimer
    rcases made_of_startWatch hmade with ⟨old, hold, hpath, -, hsame⟩ | ⟨_, rfl⟩
    · have hlt : t < s.made.length := (List.getElem?_eq_some_iff.mp hold).1
      rw [Function.update_apply] at hmap
      split at hmap
      · have heq := Option.some.inj hmap
        omega
      · exact htimers.running hold (hpath ▸ hmap) (hsame ▸ hrunning)
    · cases hrunning

theorem stop (htimers : Timers s) (which : String → Bool) : Timers (s.stop which) where
  timer_of {path t} htimer := by
    refine (Keeps.stop s which).timer_of htimers (fun _ => ?_) htimer
    have hmap : (if which path then none else s.timers path) = some t := htimer
    split at hmap
    · cases hmap
    · exact hmap
  watched {path time} hsave := by
    show ∃ t, (if which path then none else s.timers path) = some t
    have hlast : (if which path then none else s.lastSave path) = some time := hsave
    split at hlast
    · cases hlast
    · rename_i hnot
      rw [if_neg hnot]
      exact htimers.watched hlast
  saves := (Keeps.stop s which).saves htimers
  apart := (Keeps.stop s which).apart htimers
  running {t timer} hmade htimer hrunning := by
    obtain ⟨old, hold, hpath, -, hsame⟩ := made_of_cancel hmade
    have hmap : (if which timer.path then none else s.timers timer.path) = some t := htimer
    split at hmap
    · cases hmap
    · exact htimers.running hold (hpath ▸ hmap) (hsame ▸ hrunning)

theorem resumeIdle (htimers : Timers s) (hat : s.ticks[k]? = some (.stating t (some modified)))
    (hmade : s.made[t]? = some timer) (hnew : timer.lastSeen < modified) (hquiet : s.Quiet timer.path) :
    Timers (s.setTimer t { timer with lastSeen := modified, running := true } |>.setTick k
      (.saving t modified)) := by
  have hkeeps : Keeps s (s.setTimer t { timer with lastSeen := modified, running := true }) :=
    .setTimer hmade rfl (Nat.le_of_lt hnew)
  constructor
  case timer_of => exact fun htimer => hkeeps.timer_of htimers id htimer
  case watched => exact htimers.watched
  case saves =>
    intro j t' modified' hat'
    rcases (getElem?_set_eq_some hat).mp hat' with ⟨_, heq⟩ | ⟨_, hother⟩
    · cases heq
      exact ⟨_, (getElem?_set_eq_some hmade).mpr (.inl ⟨rfl, rfl⟩), Nat.le_refl _⟩
    · exact hkeeps.saves htimers hother
  case apart =>
    -- the tick is the only one for its path; all others are as before
    have hcases : ∀ path j, SavingAt (s.setTimer t { timer with lastSeen := modified, running := true }
        |>.setTick k (.saving t modified)) j path → j = k ∧ path = timer.path ∨ s.SavingAt j path := by
      rintro path j ⟨t', modified', timer', hat', hmade', hpath⟩
      rcases (getElem?_set_eq_some hat).mp hat' with ⟨hj, heq⟩ | ⟨_, hother⟩
      · cases heq
        rcases (getElem?_set_eq_some hmade).mp hmade' with ⟨_, rfl⟩ | ⟨hne, _⟩
        · exact .inl ⟨hj, hpath.symm⟩
        · exact absurd rfl hne
      · exact .inr (hkeeps.savingAt htimers ⟨t', modified', timer', hother, hmade', hpath⟩)
    intro path j j' hj hj'
    rcases hcases path j hj with ⟨rfl, rfl⟩ | hbefore
    · rcases hcases _ j' hj' with ⟨rfl, _⟩ | hbefore'
      · rfl
      · exact absurd hbefore' (hquiet j')
    · rcases hcases path j' hj' with ⟨rfl, rfl⟩ | hbefore'
      · exact absurd hbefore (hquiet j)
      · exact htimers.apart path j j' hbefore hbefore'
  case running =>
    intro j timer' hmade' htimer hrunning
    by_cases hsame : j = t
    · exact ⟨k, modified, (getElem?_set_eq_some hat).mpr (.inl ⟨rfl, by rw [hsame]⟩)⟩
    · rcases (getElem?_set_eq_some hmade).mp hmade' with ⟨hj, _⟩ | ⟨_, hold⟩
      · exact absurd hj hsame
      · obtain ⟨i, modified', hsaving⟩ := htimers.running hold htimer hrunning
        refine ⟨i, modified', (getElem?_set_of_ne hat ?_ ?_).mpr hsaving⟩
        · rintro ⟨⟩
        · intro heq
          exact hsame (Tick.saving.inj heq).1

/-- `onSaved` is over: the timer is not running any more, or it is not the timer of its path. -/
theorem complete (htimers : Timers s) (hat : s.ticks[k]? = some (.saving t modified))
    (hmade : s.made[t]? = some timer) {timer' : WatchTimer} (hpath : timer'.path = timer.path)
    (hseen : timer'.lastSeen = timer.lastSeen)
    (hover : s.timers timer.path = some t → timer'.running = false) :
    Timers (s.setTimer t timer' |>.setTick k .completed) := by
  have hkeeps : Keeps s (s.setTimer t timer' |>.setTick k .completed) :=
    (Keeps.setTimer hmade hpath (Nat.le_of_eq hseen.symm)).trans
      (Keeps.setTick hat (fun _ _ heq => by cases heq))
  exact
    { timer_of := hkeeps.timer_of htimers id
      watched := htimers.watched
      saves := hkeeps.saves htimers
      apart := hkeeps.apart htimers
      running := by
        intro j old hmade' htimer hrunning
        rcases (getElem?_set_eq_some hmade).mp hmade' with ⟨rfl, rfl⟩ | ⟨hne, hold⟩
        · rw [hover (hpath ▸ htimer)] at hrunning
          cases hrunning
        · obtain ⟨i, modified', hsaving⟩ := htimers.running hold htimer hrunning
          refine ⟨i, modified', (getElem?_set_of_ne hat ?_ ?_).mpr hsaving⟩
          · intro heq
            exact hne (Tick.saving.inj heq).1
          · intro heq
            cases heq }

theorem forget (htimers : Timers s) (path : String) : Timers (s.forget path) where
  timer_of {path' t} htimer := by
    refine (Keeps.forget s path).timer_of htimers (fun _ => ?_) htimer
    have hmap : Function.update s.timers path none path' = some t := htimer
    rw [Function.update_apply] at hmap
    split at hmap
    · cases hmap
    · exact hmap
  watched {path' time} hsave := by
    show ∃ t, Function.update s.timers path none path' = some t
    have hlast : Function.update s.lastSave path none path' = some time := hsave
    rw [Function.update_apply] at hlast ⊢
    split at hlast
    · cases hlast
    · rename_i hne
      rw [if_neg hne]
      exact htimers.watched hlast
  saves := (Keeps.forget s path).saves htimers
  apart := (Keeps.forget s path).apart htimers
  running {t timer} hmade htimer hrunning := by
    have hmap : Function.update s.timers path none timer.path = some t := htimer
    rw [Function.update_apply] at hmap
    split at hmap
    · cases hmap
    · exact htimers.running hmade hmap hrunning

theorem not_quiet (htimers : Timers s) (hmade : s.made[t]? = some timer)
    (htimer : s.timers timer.path = some t) (hrunning : timer.running = true) :
    ¬s.Quiet timer.path := by
  intro hquiet
  obtain ⟨k, modified, hsaving⟩ := htimers.running hmade htimer hrunning
  exact hquiet k ⟨t, modified, timer, hsaving, hmade, rfl⟩

end Timers

theorem Timers.step (htimers : Timers s) (hguard : s.Undisturbed event)
    (htaken : Taken s event s' o) : Timers s' := by
  cases htaken with
  | save path => exact htimers.save path
  | watch path => exact { htimers with }
  | readWatch hat => exact { htimers with }
  | @startWatch i modified path stopped hat => exact htimers.startWatch i path modified
  | fire t =>
    have hticks : ∀ {k t' modified : Nat}, (s.ticks ++ [Tick.stating t none])[k]? =
        some (Tick.saving t' modified) ↔ s.ticks[k]? = some (Tick.saving t' modified) := by
      intro k t' modified
      simp [getElem?_concat_eq_some]
    have hkeeps : Keeps s { s with ticks := s.ticks ++ [.stating t none] } :=
      { made := fun {_ timer} hmade => ⟨timer, hmade, rfl, Nat.le_refl _⟩
        ticks := fun hat => hticks.mp hat }
    exact { htimers with
      saves := hkeeps.saves htimers
      apart := hkeeps.apart htimers
      running := by
        intro t' timer hmade htimer hrunning
        obtain ⟨k, modified, hsaving⟩ := htimers.running hmade htimer hrunning
        exact ⟨k, modified, hticks.mpr hsaving⟩ }
  | readTick hat hmade =>
    exact htimers.setTick hat (fun _ _ heq => by cases heq) (fun _ _ heq => by cases heq)
  | resumeOld hat hmade hold =>
    exact htimers.setTick hat (fun _ _ heq => by cases heq) (fun _ _ heq => by cases heq)
  | resumeRunning hat hmade hnew hrunning =>
    obtain ⟨hquiet, htimer⟩ := hguard _ _ _ hat hmade hnew
    exact absurd hquiet (htimers.not_quiet hmade htimer hrunning)
  | resumeIdle hat hmade hnew hidle =>
    exact htimers.resumeIdle hat hmade hnew (hguard _ _ _ hat hmade hnew).1
  | returned hat hmade => exact htimers.complete hat hmade rfl rfl (fun _ => rfl)
  | @thrown k t modified timer hat hmade =>
    refine (htimers.forget timer.path).complete hat hmade rfl rfl ?_
    intro htimer
    have hmap : Function.update s.timers timer.path none timer.path = some t := htimer
    rw [Function.update_self] at hmap
    cases hmap
  | unwatch path => exact htimers.stop _
  | dispose => exact htimers.stop _

theorem BeganSince.append (hbegan : BeganSince h path time) (o : List WatchObs) : BeganSince (h ++ o) path time := by
  obtain ⟨now, hle, hmem⟩ := hbegan
  exact ⟨now, hle, List.mem_append_left o hmem⟩

/-- `onSaved` was called for each save that a timer has seen or that a tick has come after. -/
structure Seen (h : List WatchObs) (s : LocalEditWatcher) : Prop where
  seen {t time : Nat} {timer : WatchTimer} : s.made[t]? = some timer →
    s.lastSave timer.path = some time → time ≤ timer.lastSeen → BeganSince h timer.path time
  ticked {path : String} {time : Nat} : s.lastSave path = some time → TickedSince h path time →
    BeganSince h path time

namespace Seen

theorem initial : Seen [] initial where
  seen := by simp [LocalEditWatcher.initial]
  ticked := by simp [LocalEditWatcher.initial]

theorem frame (hseen : Seen h s) (hmade : ∀ {t : Nat} {timer' : WatchTimer}, s'.made[t]? = some timer' →
      ∃ timer, s.made[t]? = some timer ∧ timer.path = timer'.path ∧ timer.lastSeen = timer'.lastSeen)
    (hsave : ∀ {path : String} {time : Nat}, s'.lastSave path = some time → s.lastSave path = some time)
    (hticked : ∀ {path : String} {modified time : Nat}, .ticked path modified ∈ o → s.lastSave path = some time →
      time ≤ modified → BeganSince h path time) : Seen (h ++ o) s' where
  seen {t time timer'} hat hlast hle := by
    obtain ⟨timer, hold, hpath, hsame⟩ := hmade hat
    rw [← hpath] at hlast ⊢
    exact (hseen.seen hold (hsave hlast) (hsame ▸ hle)).append o
  ticked {path time} hlast hafter := by
    obtain ⟨modified, hle, hmem⟩ := hafter
    rcases List.mem_append.mp hmem with hbefore | hnow
    · exact (hseen.ticked (hsave hlast) ⟨modified, hle, hbefore⟩).append o
    · exact (hticked hnow (hsave hlast) hle).append o

theorem setTick (hseen : Seen h s) (k : Nat) (tick : Tick)
    (hticked : ∀ {path : String} {modified time : Nat}, .ticked path modified ∈ o → s.lastSave path = some time →
      time ≤ modified → BeganSince h path time) : Seen (h ++ o) (s.setTick k tick) :=
  hseen.frame (fun {_ timer} hmade => ⟨timer, hmade, rfl, rfl⟩) id hticked

theorem setTimer (hseen : Seen h s) (hmade : s.made[t]? = some timer) {timer' : WatchTimer}
    (hpath : timer.path = timer'.path) (hsame : timer.lastSeen = timer'.lastSeen) :
    Seen h (s.setTimer t timer') := by
  rw [← List.append_nil h]
  refine hseen.frame ?_ id (fun hmem => by cases hmem)
  intro j timer'' hat
  rcases (getElem?_set_eq_some hmade).mp hat with ⟨rfl, rfl⟩ | ⟨_, hold⟩
  · exact ⟨timer, hmade, hpath, hsame⟩
  · exact ⟨timer'', hold, rfl, rfl⟩

theorem forget (hseen : Seen h s) (path : String) : Seen h (s.forget path) := by
  rw [← List.append_nil h]
  refine hseen.frame (fun {_ timer} hmade => ⟨timer, hmade, rfl, rfl⟩) ?_ (fun hmem => by cases hmem)
  intro path' time hlast
  have hupdate : Function.update s.lastSave path none path' = some time := hlast
  rw [Function.update_apply] at hupdate
  split at hupdate
  · cases hupdate
  · exact hupdate

theorem save (hseen : Seen h s) (htimes : Times h s) (path : String) : Seen h (s.save path) := by
  have hcases : ∀ {path' time}, (s.save path).lastSave path' = some time →
      time = s.clock + 1 ∨ s.lastSave path' = some time := by
    intro path' time hlast
    have hif : (if (s.timers path).isSome then Function.update s.lastSave path (some (s.clock + 1))
      else s.lastSave) path' = some time := hlast
    split at hif
    · rw [Function.update_apply] at hif
      split at hif
      · exact .inl (Option.some.inj hif).symm
      · exact .inr hif
    · exact .inr hif
  constructor
  case seen =>
    intro t time timer hmade hlast hle
    rcases hcases hlast with rfl | hbefore
    · have hclock := htimes.lastSeen_le hmade
      omega
    · exact hseen.seen hmade hbefore hle
  case ticked =>
    intro path' time hlast hafter
    rcases hcases hlast with rfl | hbefore
    · obtain ⟨modified, hle, hmem⟩ := hafter
      have hclock := htimes.ticked_le hmem
      omega
    · exact hseen.ticked hbefore hafter

theorem startWatch (hseen : Seen h s) (htimers : Timers s) {i modified : Nat} {stopped : Bool}
    (hat : s.watches[i]? = some (.stating path (some modified) stopped))
    (hguard : s.Undisturbed (.startWatch i)) : Seen h (s.startWatch i path modified) where
  seen {t time timer} hmade hlast hle := by
    rcases made_of_startWatch hmade with ⟨old, hold, hpath, hsame, -⟩ | ⟨_, rfl⟩
    · rw [← hpath] at hlast ⊢
      exact hseen.seen hold hlast (hsame ▸ hle)
    · obtain ⟨t', htimer⟩ := htimers.watched hlast
      obtain ⟨old, hold, rfl⟩ := htimers.timer_of htimer
      rcases (hguard old.path modified stopped hat).2 t' old time htimer hold hlast with hlater | hbefore
      · exact absurd hle (Nat.not_le_of_lt hlater)
      · have hbegan := hseen.seen hold hlast hbefore
        exact hbegan
  ticked := hseen.ticked

theorem resumeIdle (hseen : Seen h s) (htimes : Times h s) {k modified : Nat}
    (hmade : s.made[t]? = some timer) : Seen (h ++ [.began timer.path s.clock])
      (s.setTimer t { timer with lastSeen := modified, running := true } |>.setTick k
        (.saving t modified)) where
  seen {j time timer'} hat hlast hle := by
    rcases (getElem?_set_eq_some hmade).mp hat with ⟨rfl, rfl⟩ | ⟨_, hold⟩
    · exact ⟨s.clock, htimes.lastSave_le hlast, by simp⟩
    · exact (hseen.seen hold hlast hle).append _
  ticked {path time} hlast hafter := by
    obtain ⟨modified', hle, hmem⟩ := hafter
    rcases List.mem_append.mp hmem with hbefore | hnow
    · exact (hseen.ticked hlast ⟨modified', hle, hbefore⟩).append _
    · cases List.mem_singleton.mp hnow

theorem stop (hseen : Seen h s) (which : String → Bool) {obs : WatchObs}
    (hobs : ∀ path modified, obs ≠ .ticked path modified) : Seen (h ++ [obs]) (s.stop which) := by
  refine hseen.frame ?_ ?_ ?_
  · intro t timer hmade
    obtain ⟨old, hold, hpath, hsame, -⟩ := made_of_cancel hmade
    exact ⟨old, hold, hpath, hsame⟩
  · intro path time hlast
    have hif : (if which path then none else s.lastSave path) = some time := hlast
    split at hif
    · cases hif
    · exact hif
  · intro path modified time hmem
    exact absurd (List.mem_singleton.mp hmem).symm (hobs path modified)

theorem tickedOf (hseen : Seen h s) (hmade : s.made[t]? = some timer) {modified : Nat}
    (hle : modified ≤ timer.lastSeen) {path' : String} {modified' time : Nat}
    (hmem : WatchObs.ticked path' modified' ∈ [.ticked timer.path modified])
    (hlast : s.lastSave path' = some time) (hafter : time ≤ modified') : BeganSince h path' time := by
  cases List.mem_singleton.mp hmem
  exact hseen.seen hmade hlast (Nat.le_trans hafter hle)

end Seen

theorem Seen.step (hseen : Seen h s) (htimes : Times h s) (htimers : Timers s)
    (hguard : s.Undisturbed event) (htaken : Taken s event s' o) : Seen (h ++ o) s' := by
  cases htaken with
  | save path =>
    rw [List.append_nil]
    exact hseen.save htimes path
  | watch path =>
    refine hseen.frame (fun {_ timer} hmade => ⟨timer, hmade, rfl, rfl⟩) id ?_
    intro path modified time hmem
    cases List.mem_singleton.mp hmem
  | readWatch hat =>
    rw [List.append_nil]
    exact { hseen with }
  | startWatch hat =>
    rw [List.append_nil]
    exact hseen.startWatch htimers hat hguard
  | fire t =>
    rw [List.append_nil]
    exact { hseen with }
  | readTick hat hmade => exact hseen.setTick _ _ (fun hmem => by cases hmem)
  | resumeOld hat hmade hold => exact hseen.setTick _ _ (hseen.tickedOf hmade hold)
  | resumeRunning hat hmade hnew hrunning =>
    obtain ⟨hquiet, htimer⟩ := hguard _ _ _ hat hmade hnew
    exact absurd hquiet (htimers.not_quiet hmade htimer hrunning)
  | resumeIdle hat hmade hnew hidle => exact hseen.resumeIdle htimes hmade
  | @returned k t modified timer hat hmade =>
    obtain ⟨timer', hmade', hle⟩ := htimers.saves hat
    obtain rfl : timer' = timer := Option.some.inj (hmade'.symm.trans hmade)
    have htimer : Seen h (s.setTimer t { timer' with running := false }) :=
      hseen.setTimer hmade rfl rfl
    exact htimer.setTick _ _ (hseen.tickedOf hmade hle)
  | @thrown k t modified timer hat hmade =>
    obtain ⟨timer', hmade', hle⟩ := htimers.saves hat
    obtain rfl : timer' = timer := Option.some.inj (hmade'.symm.trans hmade)
    have hforgotten := hseen.forget timer'.path
    have htimer : Seen h ((s.forget timer'.path).setTimer t { timer' with cancelled := true }) :=
      hforgotten.setTimer hmade rfl rfl
    exact htimer.setTick _ _ (hforgotten.tickedOf hmade hle)
  | unwatch path => exact hseen.stop _ (fun _ _ heq => by cases heq)
  | dispose => exact hseen.stop _ (fun _ _ heq => by cases heq)

theorem Wanted.append (hwanted : Wanted h path) (hnone : ∀ obs ∈ o, wantedBy path obs = none) :
    Wanted (h ++ o) path := by
  unfold Wanted
  rw [List.filterMap_append, List.filterMap_eq_nil_iff.mpr hnone, List.append_nil]
  exact hwanted

theorem wanted_watched (h : List WatchObs) (path : String) : Wanted (h ++ [.watched path]) path := by
  unfold Wanted
  rw [List.filterMap_append]
  simp [wantedBy]

/-- A path that has a timer, or that a call of `watch` will give one, was last asked to be watched. -/
structure Wants (h : List WatchObs) (s : LocalEditWatcher) : Prop where
  timer {path : String} {t : Nat} : s.timers path = some t → Wanted h path
  call {i : Nat} {path : String} {modified : Option Nat} :
    s.watches[i]? = some (.stating path modified false) → Wanted h path

namespace Wants

theorem initial : Wants [] initial where
  timer := by simp [LocalEditWatcher.initial]
  call := by simp [LocalEditWatcher.initial]

theorem frame (hwants : Wants h s) (htimers : s'.timers = s.timers) (hwatches : s'.watches = s.watches)
    (hnone : ∀ path, ∀ obs ∈ o, wantedBy path obs = none) : Wants (h ++ o) s' where
  timer {path _} htimer := (hwants.timer (htimers ▸ htimer)).append (hnone path)
  call {_ path _} hat := (hwants.call (hwatches ▸ hat)).append (hnone path)

theorem watch (hwants : Wants h s) (path : String) : Wants (h ++ [.watched path])
    { s with watches := s.watches ++ [.stating path none false] } := by
  have hkept : ∀ {path'}, Wanted h path' → Wanted (h ++ [.watched path]) path' := by
    intro path' hwanted
    by_cases hsame : path = path'
    · rw [hsame]
      exact wanted_watched h path'
    · refine hwanted.append ?_
      intro obs hmem
      rw [List.mem_singleton.mp hmem]
      exact if_neg hsame
  constructor
  case timer =>
    intro path' t htimer
    exact hkept (hwants.timer htimer)
  case call =>
    intro i path' modified hat
    rcases getElem?_concat_eq_some.mp hat with hbefore | ⟨_, heq⟩
    · exact hkept (hwants.call hbefore)
    · obtain ⟨rfl, _, _⟩ := WatchCall.stating.inj heq
      exact wanted_watched h path'

theorem stop (hwants : Wants h s) (which : String → Bool) {obs : WatchObs}
    (hobs : ∀ path, which path = false → wantedBy path obs = none) :
    Wants (h ++ [obs]) (s.stop which) := by
  have hkept : ∀ {path}, Wanted h path → which path = false → Wanted (h ++ [obs]) path := by
    intro path hwanted hnot
    refine hwanted.append ?_
    intro obs' hmem
    rw [List.mem_singleton.mp hmem]
    exact hobs path hnot
  constructor
  case timer =>
    intro path t htimer
    have hmap : (if which path then none else s.timers path) = some t := htimer
    split at hmap
    · cases hmap
    · rename_i hnot
      exact hkept (hwants.timer hmap) (Bool.eq_false_iff.mpr hnot)
  case call =>
    intro i path modified hat
    have hmap : (s.watches.map (stopCall which))[i]? = some (.stating path modified false) := hat
    rw [List.getElem?_map] at hmap
    obtain ⟨call, hcall, heq⟩ := Option.map_eq_some_iff.mp hmap
    cases call with
    | stating path' modified' stopped =>
      obtain ⟨rfl, rfl, hstopped⟩ := WatchCall.stating.inj heq
      obtain ⟨rfl, hnot⟩ := Bool.or_eq_false_iff.mp hstopped
      exact hkept (hwants.call hcall) hnot
    | watching => cases heq

end Wants

theorem Wants.step (hwants : Wants h s) (hguard : s.Undisturbed event) (htaken : Taken s event s' o) :
    Wants (h ++ o) s' := by
  have hticked : ∀ {path' : String} {modified : Nat} (path : String),
      ∀ obs ∈ [WatchObs.ticked path' modified], wantedBy path obs = none := by
    intro path' modified path obs hmem
    rw [List.mem_singleton.mp hmem]
    rfl
  cases htaken with
  | save path => exact hwants.frame rfl rfl (fun _ _ hmem => by cases hmem)
  | watch path => exact hwants.watch path
  | readWatch hat =>
    rw [List.append_nil]
    exact { hwants with
      call := by
        intro j path modified hat'
        rcases (getElem?_set_eq_some hat).mp hat' with ⟨_, heq⟩ | ⟨_, hother⟩
        · obtain ⟨rfl, _, hstopped⟩ := WatchCall.stating.inj heq
          exact hwants.call (hstopped ▸ hat)
        · exact hwants.call hother }
  | @startWatch i modified path stopped hat =>
    obtain ⟨rfl, -⟩ := hguard path modified stopped hat
    rw [List.append_nil]
    constructor
    case timer =>
      intro path' t htimer
      have hmap : Function.update s.timers path (some s.made.length) path' = some t := htimer
      rw [Function.update_apply] at hmap
      split at hmap
      · rename_i hsame
        rw [hsame]
        exact hwants.call hat
      · exact hwants.timer hmap
    case call =>
      intro j path' modified' hat'
      rcases (getElem?_set_eq_some hat).mp hat' with ⟨_, heq⟩ | ⟨_, hother⟩
      · cases heq
      · exact hwants.call hother
  | fire t => exact hwants.frame rfl rfl (fun _ _ hmem => by cases hmem)
  | readTick hat hmade => exact hwants.frame rfl rfl (fun _ _ hmem => by cases hmem)
  | resumeOld hat hmade hold => exact hwants.frame rfl rfl hticked
  | resumeRunning hat hmade hnew hrunning => exact hwants.frame rfl rfl hticked
  | resumeIdle hat hmade hnew hidle =>
    refine hwants.frame rfl rfl ?_
    intro path obs hmem
    rw [List.mem_singleton.mp hmem]
    rfl
  | returned hat hmade => exact hwants.frame rfl rfl hticked
  | @thrown k t modified timer hat hmade =>
    have hforgotten : Wants h (s.forget timer.path) :=
      { hwants with
        timer := by
          intro path t htimer
          have hmap : Function.update s.timers timer.path none path = some t := htimer
          rw [Function.update_apply] at hmap
          split at hmap
          · cases hmap
          · exact hwants.timer hmap }
    exact hforgotten.frame rfl rfl hticked
  | unwatch path =>
    refine hwants.stop _ ?_
    intro path' hnot
    exact if_neg (fun heq => by simp [heq] at hnot)
  | dispose => exact hwants.stop _ (fun _ hnot => by cases hnot)

/-- What holds in every state that is reached. -/
structure WatchInv (h : List WatchObs) (s : LocalEditWatcher) : Prop where
  times : Times h s
  timers : Timers s
  seen : Seen h s
  wants : Wants h s

theorem watchInv_of_reaches (hreach : Reaches step Undisturbed initial h s) : WatchInv h s := by
  refine hreach.invariant ⟨.initial, .initial, .initial, .initial⟩ ?_
  intro h s event s' o hinv hguard hstep
  have htaken := taken_of_step hstep
  exact ⟨hinv.times.step htaken, hinv.timers.step hguard htaken,
    hinv.seen.step hinv.times hinv.timers hguard htaken, hinv.wants.step hguard htaken⟩

theorem watched_of_began {now : Nat} {o1 o2 : List WatchObs} (hguard : s.Undisturbed event)
    (htaken : Taken s event s' (o1 ++ .began path now :: o2)) :
    o1 = [] ∧ ∃ t, s.timers path = some t := by
  have hmem : ∀ {obs : List WatchObs}, obs = o1 ++ .began path now :: o2 → .began path now ∈ obs := by
    rintro obs rfl
    simp
  generalize hobs : o1 ++ .began path now :: o2 = obs at htaken
  have hbegan := hmem hobs.symm
  cases htaken with
  | @resumeIdle k t modified timer hat hmade hnew hidle =>
    cases List.mem_singleton.mp hbegan
    obtain ⟨_, htimer⟩ := hguard _ _ _ hat hmade hnew
    refine ⟨?_, t, htimer⟩
    cases o1 with
    | nil => rfl
    | cons first rest =>
      have hlength := congrArg List.length hobs
      simp at hlength
  | returned hat hmade => cases List.mem_singleton.mp hbegan
  | thrown hat hmade => cases List.mem_singleton.mp hbegan
  | _ => simp at hbegan

/-- In runs without the orders that `Undisturbed` names, no save is lost, the calls of `onSaved` for one
path do not overlap, and none is made after `unwatch` or `dispose`. -/
theorem saves_not_lost (hreach : Reaches step Undisturbed initial h s) :
    NoneLost h s ∧ s.Apart ∧ StopsAtOnce h := by
  have hinv := watchInv_of_reaches hreach
  refine ⟨?_, hinv.timers.apart, ?_⟩
  · intro path time _ _ hlast hticked
    exact hinv.seen.ticked hlast hticked
  · intro h1 h2 path now hsplit
    refine hreach.observed (Q := fun h1 obs => ∀ path now, obs = .began path now → Wanted h1 path) ?_
      hsplit path now rfl
    rintro h s event s' o1 obs o2 hbefore hguard hstep path now rfl
    obtain ⟨rfl, t, htimer⟩ := watched_of_began hguard (taken_of_step hstep)
    rw [List.append_nil]
    exact (watchInv_of_reaches hbefore).wants.timer htimer

/-- A save is made while `onSaved` is running for the one before; the tick after it has run to its end finds it. -/
theorem saves_not_lost_two_saves : ∃ h s, Reaches step Undisturbed initial h s ∧
    TickedSince h "notes.txt" 2 ∧ BeganSince h "notes.txt" 2 ∧ NoneLost h s ∧ s.Apart ∧ StopsAtOnce h := by
  have hwatched : Reaches step Undisturbed initial _ _ :=
    .next (e := .save "notes.txt") (.next (e := .startWatch 0) (.next (e := .readWatch 0)
      (.next (e := .watch "notes.txt") .start trivial rfl) trivial rfl) (by
        rintro path modified stopped ⟨⟩
        exact ⟨rfl, fun _ _ _ htimer => by cases htimer⟩) rfl) trivial rfl
  have hread : Reaches step Undisturbed initial _ _ :=
    .next (e := .readTick 0) (.next (e := .fire 0) hwatched (by exact trivial) rfl) (by exact trivial)
      rfl
  have hbegan : Reaches step Undisturbed initial _ _ := hread.next (e := .resumeTick 0) (by
    intro t modified timer hat hmade _
    cases hat
    cases hmade
    refine ⟨?_, rfl⟩
    rintro k ⟨t, modified, timer, hsaving, -⟩
    rcases k with _ | k
    · cases hsaving
    · cases hsaving) rfl
  have hreturned := (hbegan.next (e := .save "notes.txt") (by exact trivial) rfl).next (e := .returned 0)
    (by exact trivial) rfl
  have hreadAgain : Reaches step Undisturbed initial _ _ :=
    .next (e := .readTick 1) (.next (e := .fire 0) hreturned (by exact trivial) rfl) (by exact trivial)
      rfl
  have hagain : Reaches step Undisturbed initial _ _ := hreadAgain.next (e := .resumeTick 1) (by
    intro t modified timer hat hmade _
    cases hat
    cases hmade
    refine ⟨?_, rfl⟩
    rintro k ⟨t, modified, timer, hsaving, -⟩
    rcases k with _ | _ | k
    · cases hsaving
    · cases hsaving
    · cases hsaving) rfl
  have hover := hagain.next (e := .returned 1) (by exact trivial) rfl
  exact ⟨_, _, hover, ⟨2, Nat.le_refl 2, by decide⟩, ⟨2, Nat.le_refl 2, by decide⟩, saves_not_lost hover⟩

/-- A save made while `onSaved` is running is not noticed: the tick that finds it only notes its time. -/
theorem save_lost_while_running : ¬∀ h s, Reaches step (fun _ _ => True) initial h s →
    NoneLost h s ∧ s.Apart ∧ StopsAtOnce h := by
  intro hall
  obtain ⟨h, s, hreach, hh, hticks, htimer, hlast⟩ := Reaches.exists_history step initial
    (P := fun h s => h = [.watched "notes.txt", .began "notes.txt" 1, .ticked "notes.txt" 2,
        .ticked "notes.txt" 1] ∧ s.ticks = [.completed, .completed] ∧
      s.timers "notes.txt" = some 0 ∧ s.lastSave "notes.txt" = some 2)
    (fun _ _ => true) (fun _ _ _ => trivial)
    [.watch "notes.txt", .readWatch 0, .startWatch 0, .save "notes.txt", .fire 0, .readTick 0,
      .resumeTick 0, .save "notes.txt", .fire 0, .readTick 1, .resumeTick 1, .returned 0] (by decide)
  have hquiet : s.Quiet "notes.txt" := by
    rintro k ⟨t, modified, timer, hsaving, -⟩
    rw [hticks] at hsaving
    rcases k with _ | _ | k
    · cases hsaving
    · cases hsaving
    · cases hsaving
  have hticked : TickedSince h "notes.txt" 2 := ⟨2, Nat.le_refl 2, by rw [hh]; simp⟩
  obtain ⟨now, hle, hmem⟩ := (hall h s hreach).1 "notes.txt" 2 (by rw [htimer]; rfl) hquiet hlast hticked
  rw [hh] at hmem
  simp at hmem
  omega

end LocalEditWatcher

end Portix.SftpWorkspace
