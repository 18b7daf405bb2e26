import Mathlib.Data.List.Basic

/-!
# Broadcast channels

A broadcast channel keeps the last events it was sent, up to a capacity, for receivers that each go
through them at their own pace. A receiver that falls further behind is told how many events it
missed, and goes on with the oldest one left.

The laws are about everything ever sent, the log, which no channel keeps: `Holds s log` says that a
channel in state `s` was sent `log`.
-/

namespace Portix.Lib

variable {E S R : Type}

/-- What a receiver of a channel is told. -/
inductive Recv (E : Type) where
  | empty
  | ok (e : E)
  | lagged (missed : Nat)
  | closed

/-- The operations of a broadcast channel with states `S` and receivers `R`. -/
structure Broadcast (E S R : Type) where
  send : S → E → S
  subscribe : S → R
  recv : S → R → Recv E × R

namespace Broadcast

/-- The behaviour of a channel of which a sender is kept, `pos` being the position of a receiver in
the log. -/
structure Lawful (B : Broadcast E S R) (capacity : Nat) (Holds : S → List E → Prop)
    (pos : R → Nat) : Prop where
  send : ∀ {s log} e, Holds s log → Holds (B.send s e) (log ++ [e])
  subscribe : ∀ {s log}, Holds s log → pos (B.subscribe s) = log.length
  empty : ∀ {s log r}, Holds s log → pos r = log.length → B.recv s r = (.empty, r)
  ok : ∀ {s log r} (_ : Holds s log) (hpos : pos r < log.length), log.length ≤ pos r + capacity →
    ∃ r', B.recv s r = (.ok log[pos r], r') ∧ pos r' = pos r + 1
  lagged : ∀ {s log r}, Holds s log → pos r + capacity < log.length →
    ∃ r', B.recv s r = (.lagged (log.length - capacity - pos r), r') ∧
      pos r' = log.length - capacity

/-- The receiver `r` has been through `front`; `outstanding` was sent since. -/
def At (Holds : S → List E → Prop) (pos : R → Nat) (s : S) (r : R) (front outstanding : List E) :
    Prop :=
  Holds s (front ++ outstanding) ∧ pos r = front.length

namespace Lawful

variable {B : Broadcast E S R} {capacity : Nat} {Holds : S → List E → Prop} {pos : R → Nat}
  {s : S} {r : R} {front outstanding : List E} (hlaw : B.Lawful capacity Holds pos)
include hlaw

theorem at_subscribe (hholds : Holds s front) : At Holds pos s (B.subscribe s) front [] :=
  ⟨by rwa [List.append_nil], hlaw.subscribe hholds⟩

theorem at_send (e : E) (hat : At Holds pos s r front outstanding) :
    At Holds pos (B.send s e) r front (outstanding ++ [e]) :=
  ⟨by rw [← List.append_assoc]; exact hlaw.send e hat.1, hat.2⟩

/-- What a receiver gets: nothing when nothing is outstanding, the oldest outstanding event when no
more are than the channel keeps, and else to know how many it missed. -/
theorem recv_cases (hat : At Holds pos s r front outstanding) : (outstanding = [] ∧ B.recv s r = (.empty, r)) ∨
    (∃ e rest r', outstanding = e :: rest ∧ outstanding.length ≤ capacity ∧
      B.recv s r = (.ok e, r') ∧ At Holds pos s r' (front ++ [e]) rest) ∨
    ∃ missed r', outstanding.length = missed + capacity ∧ 0 < missed ∧ B.recv s r = (.lagged missed, r') ∧
      At Holds pos s r' (front ++ outstanding.take missed) (outstanding.drop missed) := by
  obtain ⟨hholds, hpos⟩ := hat
  have hlength : (front ++ outstanding).length = front.length + outstanding.length :=
    List.length_append
  by_cases hlag : capacity < outstanding.length
  · obtain ⟨r', hrecv, hpos'⟩ := hlaw.lagged (r := r) hholds (by omega)
    have hmissed : (front ++ outstanding).length - capacity - pos r = outstanding.length - capacity := by omega
    rw [hmissed] at hrecv
    refine Or.inr (Or.inr ⟨_, r', by omega, by omega, hrecv, ?_, ?_⟩)
    · rwa [List.append_assoc, List.take_append_drop]
    · rw [hpos', List.length_append, List.length_append, List.length_take]
      omega
  · cases outstanding with
    | nil =>
      rw [List.append_nil] at hholds
      exact Or.inl ⟨rfl, hlaw.empty hholds hpos⟩
    | cons e rest =>
      rw [List.length_cons] at hlength hlag
      obtain ⟨r', hrecv, hpos'⟩ := hlaw.ok (r := r) hholds (by omega) (by omega)
      have hget : (front ++ e :: rest)[pos r] = e := by simp [hpos]
      rw [hget] at hrecv
      refine Or.inr (Or.inl ⟨e, rest, r', rfl, Nat.le_of_not_lt hlag, hrecv, ?_, ?_⟩)
      · rwa [List.append_assoc, List.singleton_append]
      · rw [hpos', hpos, List.length_append, List.length_singleton]

end Lawful

/-- A channel that keeps its last messages. -/
structure Ring (E : Type) where
  tail : Nat
  buffer : List E

def Ring.oldest (s : Ring E) : Nat := s.tail - s.buffer.length

def ring (E : Type) (capacity : Nat) : Broadcast E (Ring E) Nat where
  send s e :=
    { tail := s.tail + 1
      buffer := (s.buffer ++ [e]).drop (s.buffer.length + 1 - capacity) }
  subscribe s := s.tail
  recv s next :=
    if next < s.oldest then (.lagged (s.oldest - next), s.oldest)
    else
      match s.buffer[next - s.oldest]? with
      | some e => (.ok e, next + 1)
      | none => (.empty, next)

/-- The ring was sent `log`. -/
def Ring.Holds (capacity : Nat) (s : Ring E) (log : List E) : Prop :=
  s.tail = log.length ∧ s.buffer = log.drop (log.length - capacity)

variable {log : List E}

theorem Ring.Holds.oldest {capacity : Nat} {s : Ring E} (hholds : Ring.Holds capacity s log) :
    s.oldest = log.length - capacity := by
  rw [Ring.oldest, hholds.1, hholds.2, List.length_drop]
  omega

theorem Ring.Holds.getElem?_buffer {capacity next : Nat} {s : Ring E} (hholds : Ring.Holds capacity s log)
    (hnext : s.oldest ≤ next) :
    s.buffer[next - s.oldest]? = log[next]? := by
  have holdest := hholds.oldest
  rw [hholds.2, List.getElem?_drop]
  congr 1
  omega

theorem ring_recv_of_le {capacity next : Nat} {s : Ring E} (hholds : Ring.Holds capacity s log)
    (hnext : s.oldest ≤ next) :
    (ring E capacity).recv s next =
      match log[next]? with
      | some e => (.ok e, next + 1)
      | none => (.empty, next) := by
  rw [← hholds.getElem?_buffer hnext]
  exact if_neg (Nat.not_lt.mpr hnext)

theorem ring_lawful (capacity : Nat) : (ring E capacity).Lawful capacity (Ring.Holds capacity) id where
  send := by
    rintro ⟨tail, buffer⟩ log e ⟨rfl, rfl⟩
    refine ⟨by simp [ring], ?_⟩
    have hdrop : log.drop (log.length - capacity) ++ [e] = (log ++ [e]).drop (log.length - capacity) :=
      (List.drop_append_of_le_length (by omega)).symm
    simp only [ring, hdrop, List.drop_drop, List.length_drop, List.length_append, List.length_singleton]
    congr 1
    omega
  subscribe := fun hholds => hholds.1
  empty := by
    intro s log r hholds hr
    have holdest := hholds.oldest
    rw [id] at hr
    rw [ring_recv_of_le hholds (by omega), List.getElem?_eq_none (by omega)]
  ok := by
    intro s log r hholds hr hkept
    have holdest := hholds.oldest
    rw [id] at hr hkept
    refine ⟨r + 1, ?_, rfl⟩
    rw [ring_recv_of_le hholds (by omega), List.getElem?_eq_getElem hr]
    rfl
  lagged := by
    intro s log r hholds hbehind
    have holdest := hholds.oldest
    rw [id] at hbehind
    refine ⟨s.oldest, ?_, holdest⟩
    rw [id, ← holdest]
    exact if_pos (by omega)

end Broadcast

end Portix.Lib
