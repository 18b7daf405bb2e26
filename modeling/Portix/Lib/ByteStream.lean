import Mathlib.Tactic.Common

/-!
# Byte streams

A peer sends bytes and closes. What is read of them is taken from the front; what is written is kept.
-/

namespace Portix.Lib

/-- One side of a connection: what the peer has sent and is not read yet, and what was written to it. -/
structure ByteStream where
  input : List UInt8
  written : List UInt8 := []

inductive StreamError where
  | unexpectedEof
  | invalidData (message : String)

/-- A computation on a stream, which is left as it is where the computation fails. -/
def StreamM (α : Type) : Type := ByteStream → Except StreamError α × ByteStream

namespace StreamM

variable {α β : Type}

protected def bind (m : StreamM α) (f : α → StreamM β) : StreamM β := fun s =>
  match m s with
  | (.ok a, s') => f a s'
  | (.error e, s') => (.error e, s')

instance : Monad StreamM where
  pure a := fun s => (.ok a, s)
  bind := StreamM.bind

def fail (e : StreamError) : StreamM α := fun s => (.error e, s)

def readExact (n : Nat) : StreamM (List UInt8) := fun s =>
  if s.input.length < n then (.error .unexpectedEof, { s with input := [] })
  else (.ok (s.input.take n), { s with input := s.input.drop n })

def writeAll (bytes : List UInt8) : StreamM Unit := fun s =>
  (.ok (), { s with written := s.written ++ bytes })

theorem writeAll_bind (bytes : List UInt8) (f : Unit → StreamM β) (s : ByteStream) :
    (writeAll bytes >>= f) s = f () { s with written := s.written ++ bytes } := rfl

theorem bind_assoc {γ : Type} (m : StreamM α) (f : α → StreamM β) (g : β → StreamM γ) :
    m >>= f >>= g = m >>= fun a => f a >>= g := by
  funext s
  change StreamM.bind (StreamM.bind m f) g s = StreamM.bind m (fun a => StreamM.bind (f a) g) s
  unfold StreamM.bind
  cases m s with
  | mk result s' => cases result <;> rfl

theorem readExact_bind_append {n : Nat} {bytes : List UInt8} (hlen : bytes.length = n) (rest written : List UInt8)
    (f : List UInt8 → StreamM β) : (readExact n >>= f) ⟨bytes ++ rest, written⟩ = f bytes ⟨rest, written⟩ := by
  have hread : readExact n ⟨bytes ++ rest, written⟩ = (.ok bytes, ⟨rest, written⟩) := by
    unfold readExact
    rw [if_neg (by simp [hlen]), List.take_left' hlen, List.drop_left' hlen]
  change StreamM.bind (readExact n) f _ = _
  unfold StreamM.bind
  rw [hread]

/-- The rule of reading: the bytes are at the front, or the peer closed too early. -/
theorem readExact_rule {n : Nat} {f : List UInt8 → StreamM β} {s : ByteStream}
    {Q : Except StreamError β × ByteStream → Prop} (hclosed : Q (.error .unexpectedEof, { s with input := [] }))
    (hread : ∀ bytes rest, bytes.length = n → s.input = bytes ++ rest → Q (f bytes { s with input := rest })) :
    Q ((readExact n >>= f) s) := by
  change Q (StreamM.bind (readExact n) f s)
  unfold StreamM.bind readExact
  by_cases hlt : s.input.length < n
  · rw [if_pos hlt]
    exact hclosed
  · rw [if_neg hlt]
    have hlen : (s.input.take n).length = n := by
      rw [List.length_take]
      omega
    exact hread _ _ hlen (List.take_append_drop n s.input).symm

end StreamM

end Portix.Lib
