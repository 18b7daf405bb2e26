import Portix.Lib.Machine
import Portix.Lib.FileTree

/-!
# Memory that is written to a file

A program keeps a value in memory and writes it to a file as a whole after every change, with calls
that overlap. A file is rewritten in steps: it is truncated, the text is written in pieces, each after
the one before, and it is closed. The program may be killed between any two steps.
-/

namespace Portix.Lib

def utf8 (text : String) : List UInt8 := text.toUTF8.data.toList

def ofUtf8 (bytes : List UInt8) : Option String := String.fromUTF8? ⟨bytes.toArray⟩

theorem ofUtf8_utf8 (text : String) : ofUtf8 (utf8 text) = some text := by
  have hbytes : (⟨(utf8 text).toArray⟩ : ByteArray) = text.toByteArray := by simp [utf8]
  unfold ofUtf8 String.fromUTF8?
  rw [hbytes, dif_pos text.isValidUTF8]
  rfl

namespace Persist

variable {σ κ : Type}

/-- How far a call has got. Memories are counted: `version` is the number of changes up to its own,
`textVersion` the number of those that its text was made after. -/
inductive Call (κ : Type) where
  | waiting (change : κ)
  | changed (version : Nat)
  | encoded (version textVersion : Nat) (text : List UInt8)
  | writing (version textVersion : Nat) (done rest : List UInt8)
  | written (version : Nat)
  | completed (version : Nat)
  | refused

/-- A value in memory, its file, and the calls that write it. -/
structure Store (σ κ : Type) where
  memory : σ
  version : Nat
  file : Option (List UInt8)
  calls : List (Call κ)
  killed : Bool

/-- The steps of the calls, and the end of the process at any point. -/
inductive Event (κ : Type) where
  | call (change : κ)
  | change (call : Nat)
  | encode (call : Nat)
  | truncate (call : Nat)
  | piece (call length : Nat)
  | close (call : Nat)
  | kill

inductive Obs (σ : Type) where
  | changed (call : Nat) (memory : σ)
  | completed (call : Nat)

namespace Store

variable (apply : κ → σ → Option σ) (text : σ → List UInt8)

def start (first : σ) (file : Option (List UInt8)) : Store σ κ := ⟨first, 0, file, [], false⟩

variable (s : Store σ κ)

def setCall (i : Nat) (call : Call κ) : Store σ κ :=
  { s with calls := s.calls.set i call }

def change (i : Nat) (change : κ) : Store σ κ × List (Obs σ) :=
  match apply change s.memory with
  | none => (s.setCall i .refused, [])
  | some memory =>
    ({ s with memory := memory, version := s.version + 1 }.setCall i (.changed (s.version + 1)),
      [.changed i memory])

def piece (i version textVersion : Nat) (done rest : List UInt8) (length : Nat) :
    Store σ κ :=
  let next := rest.take length
  let call := if rest.drop length = [] then .written version
    else .writing version textVersion (done ++ next) (rest.drop length)
  { s with file := some (writeAt (s.file.getD []) done.length next) }.setCall i call

def step (event : Event κ) : Option (Store σ κ × List (Obs σ)) :=
  if s.killed then none
  else match event with
    | .call change => some ({ s with calls := s.calls ++ [.waiting change] }, [])
    | .change i => match s.calls[i]? with
      | some (.waiting change) => some (s.change apply i change)
      | _ => none
    | .encode i => match s.calls[i]? with
      | some (.changed version) =>
        some (s.setCall i (.encoded version s.version (text s.memory)), [])
      | _ => none
    | .truncate i => match s.calls[i]? with
      | some (.encoded version textVersion text) =>
        some ({ s with file := some [] }.setCall i (.writing version textVersion [] text), [])
      | _ => none
    | .piece i length => match s.calls[i]? with
      | some (.writing version textVersion done rest) =>
        some (s.piece i version textVersion done rest length, [])
      | _ => none
    | .close i => match s.calls[i]? with
      | some (.written version) => some (s.setCall i (.completed version), [.completed i])
      | _ => none
    | .kill => some ({ s with killed := true }, [])

end Store

def changes (h : List (Obs σ)) : List (Nat × σ) :=
  h.filterMap fun
    | .changed call memory => some (call, memory)
    | .completed _ => none

def memoryAfter (first : σ) (changes : List (Nat × σ)) : σ := (changes.getLast?.map Prod.snd).getD first

/-- The file gives back a memory that there was, with the changes of all calls that had completed. -/
def Survives (Reads : Option (List UInt8) → σ → Prop) (first : σ) (h : List (Obs σ))
    (file : Option (List UInt8)) : Prop :=
  ∃ h1 h2, h = h1 ++ h2 ∧ Reads file (memoryAfter first (changes h1)) ∧
    ∀ call, .completed call ∈ h → ∃ memory, .changed call memory ∈ h1

namespace Store

/-- How far a call has got. -/
def At (s : Store σ κ) (i : Nat) (call : Call κ) : Prop := s.calls[i]? = some call

/-- A call is between truncating the file and the last piece. -/
def Torn (s : Store σ κ) : Prop :=
  ∃ i version textVersion done rest, s.At i (.writing version textVersion done rest)

/-- The text of a call was made after a number of changes. -/
def TextAfter (s : Store σ κ) (i version : Nat) : Prop :=
  ∀ own textVersion text, s.At i (.encoded own textVersion text) → version ≤ textVersion

/-- All pieces of a call's text are written. -/
def HasWritten (s : Store σ κ) (i version : Nat) : Prop :=
  s.At i (.written version) ∨ s.At i (.completed version)

/-- The file is truncated only while no other call is rewriting it, for a text that has the changes of
all calls whose texts were written; the program is not killed while the file is being rewritten. -/
def Orderly (usable : κ → Prop) (s : Store σ κ) : Event κ → Prop
  | .call change => usable change
  | .truncate i => ¬s.Torn ∧ ∀ j version, s.HasWritten j version → s.TextAfter i version
  | .kill => ¬s.Torn
  | .change _ => True
  | .encode _ => True
  | .piece _ _ => True
  | .close _ => True

end Store

end Persist

end Portix.Lib
