import Portix.Sftp.Client
import Portix.Lib.FileTree

/-!
# Transfers between two machines that may fail

The files of both machines, and a schedule that decides how each call turns out. Any call may be
refused, may be carried out without its answer arriving, or may move fewer bytes than asked; the
progress callback may cancel. Once the schedule is used up every call is refused: the connection is
gone. What a write leaves in its file, and whether its failure is reported by that call or by a later
one, is up to the file handles of the two machines (`Writer`), which are no part of this repository.
Nothing of an attempt is still in flight when it returns.
-/

namespace Portix.Sftp

open Lib

/-- How a request ends. -/
inductive Outcome where
  | complete
  | refused
  | unanswered
  | short (n : Nat)
  | late (n : Nat)
  | behind
  | attrs (size permissions : Bool)
  deriving DecidableEq

structure StoredFile where
  content : List UInt8
  mode : Nat
  deriving DecidableEq

abbrev Location := Side × String

/-- The files of both sides, and how the requests to come will end. -/
structure World where
  files : Location → Option StoredFile
  schedule : List Outcome

def File.writePos (file : File) (content : List UInt8) : Nat := if file.append then content.length else file.pos

/-- What a write leaves in its file, and its answer: an error, or whether the failure of a write is still to be
reported. -/
structure Written where
  content : List UInt8
  answer : Except String Bool

/-- What a write does to a file with some content, for each way in which a call turns out. -/
abbrev Writer := Outcome → List UInt8 → File → List UInt8 → Written

namespace Writer

variable (writer : Writer)

/-- When there is nothing to report any more, the write has landed and no write before it has failed. -/
def Reports : Prop :=
  ∀ o content file data, (writer o content file data).answer = .ok false →
    file.failed = false ∧ (writer o content file data).content = writeAt content (file.writePos content) data

/-- A write lands a beginning of its bytes, and nothing behind a write that failed. -/
def InOrder (o : Outcome) : Prop :=
  ∀ content file data,
    (file.failed = true → (writer o content file data).content = content) ∧
    (file.failed = false → ∃ n, (writer o content file data).content =
      writeAt content (file.writePos content) (data.take n))

/-- Writes are on their way before those ahead of them are answered: one can land behind another that failed. -/
def pipelined : Writer := fun o content file data =>
  let landed (n : Nat) := writeAt content (file.writePos content) (data.take n)
  match o, file.failed with
  | .behind, failed => ⟨landed data.length, .ok failed⟩
  | _, true => ⟨content, .error "write failed"⟩
  | .short n, false => ⟨landed n, .error "write failed"⟩
  | .late n, false => ⟨landed n, .ok true⟩
  | .unanswered, false => ⟨landed data.length, .error "connection lost"⟩
  | _, false => ⟨landed data.length, .ok false⟩

end Writer

namespace World

variable (writer : Writer) (w : World)

def bytes (l : Location) : Option (List UInt8) := (w.files l).map StoredFile.content

def next : Outcome × World :=
  match w.schedule with
  | [] => (.refused, w)
  | o :: rest => (o, { w with schedule := rest })

def set (l : Location) (f : Option StoredFile) : World :=
  { w with files := Function.update w.files l f }

/-- A call whose effect is `after`, when the call is a possible one, and whose answer is `answer`. -/
def effect {α : Type} (w : World) (o : Outcome) (after : Option World) (answer : α) :
    Except String α × World :=
  match o, after with
  | .refused, _ => (.error "refused", w)
  | _, none => (.error "failure", w)
  | .unanswered, some w' => (.error "connection lost", w')
  | _, some w' => (.ok answer, w')

def metadata (o : Outcome) (l : Location) : Except String Metadata :=
  match o, w.files l with
  | .refused, _ => .error "refused"
  | .unanswered, _ => .error "connection lost"
  | _, none => .error "no such file"
  | .attrs size permissions, some f =>
    if l.1 = .remote then
      .ok ⟨false, false, if size then some f.content.length else none,
        if permissions then some f.mode else none, none⟩
    else .ok ⟨false, false, some f.content.length, some f.mode, some 0⟩
  | _, some f => .ok ⟨false, false, some f.content.length, some f.mode, some 0⟩

def opened (l : Location) (flags : OpenFlags) : Option World :=
  match w.files l with
  | some f =>
    if flags.exclude then none
    else if flags.truncate then some (w.set l (some { f with content := [] }))
    else some w
  | none => if flags.create then some (w.set l (some ⟨[], 0o644⟩)) else none

def readSize (o : Outcome) (max : Nat) : Nat :=
  match o with
  | .short n => min (n + 1) max
  | _ => max

def readChunk (o : Outcome) (file : File) (max : Nat) :
    Except String (List UInt8 × File) :=
  match o, w.files file.location with
  | .refused, _ => .error "refused"
  | .unanswered, _ => .error "connection lost"
  | _, none => .error "no such file"
  | o, some f =>
    let data := (f.content.drop file.pos).take (readSize o max)
    .ok (data, { file with pos := file.pos + data.length })

def writeAll (o : Outcome) (file : File) (data : List UInt8) :
    Except String File × World :=
  match o, w.files file.location with
  | .refused, _ => (.error "refused", w)
  | _, none => (.error "failure", w)
  | o, some f =>
    let written := writer o f.content file data
    (written.answer.map fun failed => { file with pos := file.pos + data.length, failed := failed },
      w.set file.location (some { f with content := written.content }))

/-- The answer to a call that has no effect of its own: what was written before is all right. -/
def settle {α : Type} (o : Outcome) (failed : Bool) (answer : α) : Except String α :=
  match o with
  | .refused => .error "refused"
  | .unanswered => .error "connection lost"
  | _ => if failed then .error "write failed" else .ok answer

/-- The files after a renaming. The server does not overwrite, this machine does. -/
def renamed (side : Side) (source target : String) : Option World :=
  match w.files (side, source) with
  | none => none
  | some f =>
    if side = .remote ∧ (w.files (side, target)).isSome then none
    else some ((w.set (side, source) none).set (side, target) (some f))

/-- The answers of both machines. The calls that no transfer makes are not carried out. -/
def handle : (q : Request) → World → Response q × World
  | .metadata side path, w => (w.metadata w.next.1 (side, path), w.next.2)
  | .openFile side path flags, w =>
    w.next.2.effect w.next.1 (w.next.2.opened (side, path) flags)
      { side := side, path := path, pos := 0, append := flags.append }
  | .seek file pos, w => (settle w.next.1 file.failed { file with pos := pos }, w.next.2)
  | .readChunk file max, w => (w.readChunk w.next.1 file max, w.next.2)
  | .writeAll file data, w => w.next.2.writeAll writer w.next.1 file data
  | .flush file, w => (settle w.next.1 file.failed (), w.next.2)
  | .shutdown file, w => (settle w.next.1 file.failed (), w.next.2)
  | .removeFile path, w =>
    w.next.2.effect w.next.1 ((w.files (.remote, path)).map fun _ =>
      w.next.2.set (.remote, path) none) ()
  | .setMetadata path mode, w =>
    w.next.2.effect w.next.1 ((w.files (.remote, path)).map fun f =>
      w.next.2.set (.remote, path) (some { f with mode := mode })) ()
  | .rename side source target, w => w.next.2.effect w.next.1 (w.next.2.renamed side source target) ()
  | .progress _, w => (w.next.1 ≠ .refused, w.next.2)
  | .canonicalize _, w => (.error "unsupported", w)
  | .symlinkMetadata _, w => (.error "unsupported", w)
  | .readDir _, w => (.error "unsupported", w)
  | .readFile _, w => (.error "unsupported", w)
  | .createDir _, w => (.error "unsupported", w)
  | .removeDir _, w => (.error "unsupported", w)

end World

/-- A download or an upload of a file. -/
inductive Transfer where
  | download (remote disk : String)
  | upload (disk remote : String)

namespace Transfer

def source : Transfer → Location
  | download remote _ => (.remote, remotePath remote)
  | upload disk _ => (.disk, disk)

def target : Transfer → Location
  | download _ disk => (.disk, disk)
  | upload _ remote => (.remote, remotePath remote)

def part (t : Transfer) : Location := (t.target.1, t.target.2 ++ partSuffix)

def fill (fuel : Nat) : Transfer → SftpM File
  | download remote disk => downloadPart fuel remote disk
  | upload disk remote => uploadPart fuel disk (remotePath remote)

def run (fuel : Nat) : Transfer → SftpM Unit
  | download remote disk => Sftp.download fuel remote disk
  | upload disk remote => Sftp.upload fuel disk remote

variable (writer : Writer) (allowed : Outcome → Prop)

/-- An attempt in the world `w`, under a schedule of outcomes that are allowed, ends with `r` in `w'`. -/
def Attempt (t : Transfer) (w : World) (r : Except Domain.PortixError Unit) (w' : World) : Prop :=
  ∃ fuel schedule, (∀ o ∈ schedule, allowed o) ∧
    (t.run fuel).run (World.handle writer) { w with schedule := schedule } = some (r, w')

/-- The worlds that any number of attempts lead to. -/
inductive Attempts (t : Transfer) : World → World → Prop where
  | none (w : World) : Attempts t w w
  | more {w w1 w2 : World} {r : Except Domain.PortixError Unit} (before : Attempts t w w1)
      (attempt : t.Attempt writer allowed w1 r w2) : Attempts t w w2

/-- However earlier attempts were cut off, an attempt ends; the part file, if there is one, is a prefix of the source;
when the copying fails the target is as it was; and when the attempt returns without error the target is the source and
there is no part file. -/
def Resumes (t : Transfer) : Prop :=
  ∀ w0 w content, w0.bytes t.source = some content → w0.bytes t.part = none → t.Attempts writer allowed w0 w →
    ∀ schedule, (∀ o ∈ schedule, allowed o) → ∀ fuel,
      (schedule.length < fuel →
        ∃ r w', (t.run fuel).run (World.handle writer) { w with schedule := schedule } = some (r, w')) ∧
      ∀ r w', (t.run fuel).run (World.handle writer) { w with schedule := schedule } = some (r, w') →
        (∀ bytes, w'.bytes t.part = some bytes → bytes <+: content) ∧
        (∀ e w'', (t.fill fuel).run (World.handle writer) { w with schedule := schedule } =
            some (.error e, w'') → r = .error e ∧ w'.files t.target = w.files t.target) ∧
        (r = .ok () → w'.bytes t.target = some content ∧ w'.bytes t.part = none)

end Transfer

end Portix.Sftp
