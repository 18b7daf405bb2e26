import Portix.Lib.Machine
import Portix.Lib.FileTree

/-!
# Files that are read, changed and written again

A file holds values under keys. A call reads the file, changes the value under one key in what it has
read, and replaces the whole file: it is truncated, the text is written, and it is closed. Calls
overlap, and nothing keeps them apart.
-/

namespace Portix.Lib.Update

variable {σ κ ι ν : Type}

/-- How far a change has got that reads the file, changes it and writes it. -/
inductive Call (σ κ : Type) where
  | waiting (change : κ)
  | holding (change : κ) (read : σ)
  | truncated (change : κ) (read : σ)
  | written (change : κ)
  | closed (change : κ)
  | failed (change : κ)

namespace Call

def finished : Call σ κ → Bool
  | .closed _ => true
  | .failed _ => true
  | .waiting _ => false
  | .holding _ _ => false
  | .truncated _ _ => false
  | .written _ => false

end Call

/-- A file, and the calls that change it. -/
structure Store (σ κ : Type) where
  file : Option (List UInt8)
  calls : List (Call σ κ)

inductive Event (κ : Type) where
  | call (change : κ)
  | read (call : Nat)
  | truncate (call : Nat)
  | write (call : Nat)
  | close (call : Nat)

inductive Obs (κ : Type) where
  | wrote (change : κ)
  | completed (change : κ)

namespace Store

variable (load : Option (List UInt8) → Option σ) (text : σ → List UInt8) (apply : κ → σ → σ)

def start (file : Option (List UInt8)) : Store σ κ := ⟨file, []⟩

variable (s : Store σ κ)

def setCall (i : Nat) (call : Call σ κ) : Store σ κ :=
  { s with calls := s.calls.set i call }

def step : Event κ → Option (Store σ κ × List (Obs κ))
  | .call change => some ({ s with calls := s.calls ++ [.waiting change] }, [])
  | .read i => match s.calls[i]? with
    | some (.waiting change) => match load s.file with
      | some read => some (s.setCall i (.holding change read), [])
      | none => some (s.setCall i (.failed change), [])
    | _ => none
  | .truncate i => match s.calls[i]? with
    | some (.holding change read) =>
      some ({ s with file := some [] }.setCall i (.truncated change read), [])
    | _ => none
  | .write i => match s.calls[i]? with
    | some (.truncated change read) =>
      some ({ s with file := some (writeAt (s.file.getD []) 0 (text (apply change read))) }.setCall i
        (.written change), [.wrote change])
    | _ => none
  | .close i => match s.calls[i]? with
    | some (.written change) => some (s.setCall i (.closed change), [.completed change])
    | _ => none

/-- All calls are over. -/
def Settled : Prop := ∀ call ∈ s.calls, call.finished = true

/-- How far a call has got. -/
def At (i : Nat) (call : Call σ κ) : Prop := s.calls[i]? = some call

/-- A call is between truncating the file and writing its text. -/
def Torn : Prop := ∃ i change read, s.At i (.truncated change read)

variable (view : σ → ι → ν) (key : κ → ι)

/-- The file says under all other keys what the call has read there. -/
def Fresh (s : Store σ κ) (change : κ) (read : σ) : Prop :=
  ∀ now, load s.file = some now → ∀ k, k ≠ key change → view read k = view now k

/-- The file is truncated only while no other call is rewriting it or has yet to close it after writing
the same key, and while it still says under the other keys what the call has read. -/
def Orderly (s : Store σ κ) : Event κ → Prop
  | .truncate i => ¬s.Torn ∧ ∀ change read, s.At i (.holding change read) →
      s.Fresh load view key change read ∧
      ∀ j change', s.At j (.written change') → key change' ≠ key change
  | .call _ => True
  | .read _ => True
  | .write _ => True
  | .close _ => True

end Store

/-- The changes whose texts were written, and those of calls that are over. -/
def wrote (h : List (Obs κ)) : List κ :=
  h.filterMap fun
    | .wrote change => some change
    | .completed _ => none

def completed (h : List (Obs κ)) : List κ :=
  h.filterMap fun
    | .wrote _ => none
    | .completed change => some change

variable [DecidableEq ι] (key : κ → ι) (value : κ → ν)

def changesOf (k : ι) (changes : List κ) : List κ := changes.filter fun change => key change = k

def lastValue (first : ι → ν) (changes : List κ) (k : ι) : ν :=
  ((changesOf key k changes).getLast?.map value).getD (first k)

/-- The file says under each key what the last call for it wrote, and what it said at the start under a
key that no call wrote. A file that could not be read was left alone by every call. -/
def Kept (load : Option (List UInt8) → Option σ) (view : σ → ι → ν) (file : Option (List UInt8))
    (h : List (Obs κ)) (s : Store σ κ) : Prop :=
  (load s.file).map view =
      (load file).map (fun read => lastValue key value (view read) (completed h)) ∧
    (load file = none → s.file = file ∧ completed h = [])

end Portix.Lib.Update
