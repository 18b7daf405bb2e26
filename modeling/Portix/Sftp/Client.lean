import Mathlib.Data.List.Sort
import Portix.Domain.Errors
import Portix.Lib.Prog
import Portix.Lib.Text

/-!
# The SFTP client

The methods of `SftpConnection` (`infrastructure/sftp_client.rs`) as programs over the calls they
make: to the SFTP session, to the local file system and to the caller's progress callback.

The parameter `fuel` of a recursion or a loop bounds its depth; nothing else depends on it.
-/

namespace Portix.Sftp

open Lib Domain

def partSuffix : String := ".portix-part"

/-- The path sent to the server: `~` and `~/x` are relative to the login directory. -/
def remotePath (path : String) : String :=
  let path := trim path
  if path = "" ∨ path = "~" then "." else (stripPrefix "~/" path).getD path

/-- Whether a name sent by the server is one path component; `windows` adds the separators only
that platform reads. -/
def isSafeEntryName (name : String) (windows : Bool) : Bool :=
  name ≠ "" && name ≠ "." && name ≠ ".."
    && !(containsChar name '/' || containsChar name '\x00')
    && !(windows && (containsChar name '\\' || containsChar name ':'))

def join (dir name : String) : String :=
  if endsWith dir '/' then dir ++ name else dir ++ "/" ++ name

def partPath (path : String) : String := path ++ partSuffix

/-- The two file systems of a transfer: the server's and this machine's. -/
inductive Side where
  | remote
  | disk
  deriving DecidableEq

structure Metadata where
  isDir : Bool
  isSymlink : Bool
  size : Option Nat
  permissions : Option Nat
  mtime : Option Nat

structure DirEntry where
  fileName : String
  metadata : Metadata

structure OpenFlags where
  write : Bool := false
  create : Bool := false
  append : Bool := false
  truncate : Bool := false
  exclude : Bool := false

/-- An open file: where its next read or write goes, and whether an earlier write has failed
without that having been reported. -/
structure File where
  side : Side
  path : String
  pos : Nat
  append : Bool
  failed : Bool := false

def File.location (file : File) : Side × String := (file.side, file.path)

structure TransferProgress where
  done : Nat
  total : Nat

/-- What is asked of the server or the disk. -/
inductive Request where
  | canonicalize (path : String)
  | metadata (side : Side) (path : String)
  | symlinkMetadata (path : String)
  | readDir (path : String)
  | readFile (path : String)
  | openFile (side : Side) (path : String) (flags : OpenFlags)
  | seek (file : File) (pos : Nat)
  | readChunk (file : File) (max : Nat)
  | writeAll (file : File) (data : List UInt8)
  | flush (file : File)
  | shutdown (file : File)
  | createDir (path : String)
  | removeFile (path : String)
  | removeDir (path : String)
  | setMetadata (path : String) (permissions : Nat)
  | rename (side : Side) (source target : String)
  | progress (p : TransferProgress)

abbrev Response : Request → Type
  | .canonicalize _ => Except String String
  | .metadata _ _ => Except String Metadata
  | .symlinkMetadata _ => Except String Metadata
  | .readDir _ => Except String (List DirEntry)
  | .readFile _ => Except String (List UInt8)
  | .openFile _ _ _ => Except String File
  | .seek _ _ => Except String File
  | .readChunk _ _ => Except String (List UInt8 × File)
  | .writeAll _ _ => Except String File
  | .progress _ => Bool
  | _ => Except String Unit

abbrev SftpM := Prog Request Response PortixError

/-- The answer to a `metadata` call whose failure the caller handles itself. -/
def tryMetadata (side : Side) (path : String) : SftpM (Except String Metadata) :=
  Prog.call (Request.metadata side path)

def orSftp {α : Type} (answer : Except String α) : SftpM α := Prog.lift (answer.mapError .sftp)

def orIo {α : Type} (answer : Except String α) : SftpM α := Prog.lift (answer.mapError .io)

variable {α : Type}

@[simp] theorem orSftp_ok (a : α) : orSftp (.ok a) = Prog.done (.ok a) := rfl

@[simp] theorem orSftp_error (e : String) : (orSftp (.error e) : SftpM α) = Prog.done (.error (.sftp e)) := rfl

@[simp] theorem orIo_ok (a : α) : orIo (.ok a) = Prog.done (.ok a) := rfl

@[simp] theorem orIo_error (e : String) : (orIo (.error e) : SftpM α) = Prog.done (.error (.io e)) := rfl

structure RemoteFileEntry where
  name : String
  path : String
  isDirectory : Bool
  sizeBytes : Nat
  modifiedUnixSeconds : Int
  mode : Nat
  deriving DecidableEq

/-- What the crate is compiled for, and the Unicode lower case of its standard library. -/
structure Platform where
  windows : Bool
  toLowercase : String → String

def entryLe (platform : Platform) (a b : RemoteFileEntry) : Bool :=
  if a.isDirectory = b.isDirectory then
    decide (platform.toLowercase a.name ≤ platform.toLowercase b.name)
  else a.isDirectory

def resolve (path : String) : SftpM String := do
  orSftp (← Prog.call (.canonicalize (remotePath path)))

def fileEntry (name path : String) (attrs : Metadata) : RemoteFileEntry where
  name := name
  path := path
  isDirectory := attrs.isDir
  sizeBytes := attrs.size.getD 0
  modifiedUnixSeconds := (attrs.mtime.map Int.ofNat).getD 0
  mode := attrs.permissions.getD 0 &&& 0o7777

/-- Links report their target's attributes; a link whose target cannot be read keeps its own. -/
def entryMetadata (entry : DirEntry) (path : String) : SftpM Metadata :=
  if entry.metadata.isSymlink then do
    match ← tryMetadata .remote path with
    | .ok target => pure target
    | .error _ => pure entry.metadata
  else
    pure entry.metadata

def listEntries (platform : Platform) (dir : String) : List DirEntry → SftpM (List RemoteFileEntry)
  | [] => pure []
  | entry :: rest => do
    let name := entry.fileName
    if !isSafeEntryName name platform.windows then
      listEntries platform dir rest
    else do
      let path := join dir name
      let attrs ← entryMetadata entry path
      let entries ← listEntries platform dir rest
      pure (fileEntry name path attrs :: entries)

def list (platform : Platform) (path : String) : SftpM (List RemoteFileEntry) := do
  let dir ← resolve path
  let entries ← listEntries platform dir (← orSftp (← Prog.call (.readDir dir)))
  pure (entries.insertionSort fun a b => entryLe platform a b = true)

def read (path : String) : SftpM (List UInt8) := do
  orSftp (← Prog.call (.readFile (remotePath path)))

def write (path : String) (data : List UInt8) : SftpM Unit := do
  let flags : OpenFlags := { write := true, create := true, truncate := true }
  let file ← orSftp (← Prog.call (.openFile .remote (remotePath path) flags))
  let file ← orIo (← Prog.call (.writeAll file data))
  orIo (← Prog.call (.shutdown file))

def chmod (path : String) (mode : Nat) : SftpM Unit := do
  orSftp (← Prog.call (.setMetadata (remotePath path) (mode &&& 0o7777)))

def rename (source target : String) : SftpM Unit := do
  orSftp (← Prog.call (.rename .remote (remotePath source) (remotePath target)))

def keepMode (path : String) : Option Nat → SftpM Unit
  | some mode => chmod path mode
  | none => pure ()

def removeChild (removeAt : String → SftpM Unit) (path : String) (entry : DirEntry) : SftpM Unit :=
  let name := entry.fileName
  if name ≠ "." ∧ name ≠ ".." then removeAt (join path name) else pure ()

/-- `remove_resolved`: a file or link is unlinked, a folder is emptied first. -/
def removeResolved : Nat → String → SftpM Unit
  | 0, _ => .more
  | fuel + 1, path => do
    let attrs ← orSftp (← Prog.call (.symlinkMetadata path))
    if !attrs.isDir then
      orSftp (← Prog.call (.removeFile path))
    else do
      let entries ← orSftp (← Prog.call (.readDir path))
      entries.forM (removeChild (removeResolved fuel) path)
      orSftp (← Prog.call (.removeDir path))

variable (fuel : Nat)

def remove (path : String) : SftpM Unit := do
  let path ← resolve path
  if path = "/" then
    Prog.fail (.invalidRequest "refusing to delete /")
  else
    removeResolved fuel path

/-- `tokio::io::copy` followed by nothing else: read until the end of the file, write each chunk. -/
def copyBytes : Nat → File → File → SftpM File
  | 0, _, _ => .more
  | fuel + 1, src, dst => do
    let (buf, src) ← orIo (← Prog.call (.readChunk src 8192))
    if buf = [] then pure dst
    else do
      let dst ← orIo (← Prog.call (.writeAll dst buf))
      copyBytes fuel src dst

def copy : Nat → String → String → SftpM Unit
  | 0, _, _ => .more
  | fuel + 1, source, target => do
    let source := remotePath source
    let target := remotePath target
    let attrs ← orSftp (← Prog.call (.metadata .remote source))
    if attrs.isDir then do
      orSftp (← Prog.call (.createDir target))
      let entries ← orSftp (← Prog.call (.readDir source))
      entries.forM fun entry => do
        let name := entry.fileName
        if name ≠ "." ∧ name ≠ ".." then
          copy fuel (join source name) (join target name)
      keepMode target attrs.permissions
    else do
      let src ← orSftp (← Prog.call (.openFile .remote source {}))
      let flags : OpenFlags := { write := true, create := true, exclude := true }
      let dst ← orSftp (← Prog.call (.openFile .remote target flags))
      let dst ← copyBytes fuel src dst
      orIo (← Prog.call (.shutdown dst))
      keepMode target attrs.permissions

def resumeOffset (partLen : Option Nat) (total : Nat) : Nat :=
  (partLen.filter (· ≤ total)).getD 0

def transferBuffer : Nat := 256 * 1024

/-- The copy loop; it leaves through the end of the source, an error, or the callback's `false`. -/
def copyWithProgress : Nat → File → File → Nat → Nat → SftpM File
  | 0, _, _, _, _ => .more
  | fuel + 1, src, dst, done, total => do
    if ← Prog.call (.progress ⟨done, total⟩) then do
      let (buf, src) ← orIo (← Prog.call (.readChunk src transferBuffer))
      if buf.length = 0 then pure dst
      else do
        let dst ← orIo (← Prog.call (.writeAll dst buf))
        copyWithProgress fuel src dst (done + buf.length) total
    else do
      -- Land the buffered writes, so that the part file can be resumed from.
      orIo (← Prog.call (.flush dst))
      Prog.fail .transferCancelled

/-- `download` up to the end of its copy loop: the part file is being filled. -/
def downloadPart (remote disk : String) : SftpM File := do
  let remote := remotePath remote
  let attrs ← orSftp (← Prog.call (.metadata .remote remote))
  let total := attrs.size.getD 0
  let part := partPath disk
  let existing ← tryMetadata .disk part
  let done := resumeOffset (existing.toOption.bind Metadata.size) total
  let src ← orSftp (← Prog.call (.openFile .remote remote {}))
  let src ← orIo (← Prog.call (.seek src done))
  let flags : OpenFlags :=
    { create := true, write := true, append := done > 0, truncate := done = 0 }
  let dst ← orIo (← Prog.call (.openFile .disk part flags))
  copyWithProgress fuel src dst done total

/-- Downloads into the part file, resuming from its size, then renames it. -/
def download (remote disk : String) : SftpM Unit := do
  let dst ← downloadPart fuel remote disk
  orIo (← Prog.call (.flush dst))
  orIo (← Prog.call (.rename .disk (partPath disk) disk))

/-- `upload` up to the end of its copy loop: the part file is being filled. -/
def uploadPart (disk remote : String) : SftpM File := do
  let attrs ← orIo (← Prog.call (.metadata .disk disk))
  let total := attrs.size.getD 0
  let part := remote ++ partSuffix
  let existing ← tryMetadata .remote part
  let done := resumeOffset (existing.toOption.bind Metadata.size) total
  let flags : OpenFlags := { write := true, create := true, truncate := done = 0 }
  let dst ← orSftp (← Prog.call (.openFile .remote part flags))
  let dst ← orIo (← Prog.call (.seek dst done))
  let src ← orIo (← Prog.call (.openFile .disk disk {}))
  let src ← orIo (← Prog.call (.seek src done))
  copyWithProgress fuel src dst done total

/-- The end of `upload`: the old file goes first, then the part file takes its name. -/
def replaceRemote (remote : String) : SftpM Unit := do
  let part := remote ++ partSuffix
  match ← tryMetadata .remote remote with
  | .ok old => do
    keepMode part old.permissions
    orSftp (← Prog.call (.removeFile remote))
  | .error _ => pure ()
  orSftp (← Prog.call (.rename .remote part remote))

/-- Uploads into the part file, resuming from its size, then replaces `remote`. -/
def upload (disk remote : String) : SftpM Unit := do
  let remote := remotePath remote
  let dst ← uploadPart fuel disk remote
  orIo (← Prog.call (.shutdown dst))
  replaceRemote remote

-- The path of a listed entry goes back to the server in every operation the user starts on it.

open Lib

/-- The path on the server that a request is about. A request on an open file goes by its handle. -/
def Request.subject : Request → Option String
  | canonicalize path => some path
  | metadata side path => if side = .remote then some path else none
  | symlinkMetadata path => some path
  | readDir path => some path
  | readFile path => some path
  | openFile side path _ => if side = .remote then some path else none
  | createDir path => some path
  | removeFile path => some path
  | removeDir path => some path
  | setMetadata path _ => some path
  | rename side source _ => if side = .remote then some source else none
  | seek _ _ | readChunk _ _ | writeAll _ _ | flush _ | shutdown _ | progress _ => none

/-- Whether a request makes something new or changes it. -/
def Request.writes : Request → Bool
  | openFile _ _ flags => flags.write
  | createDir _ => true
  | setMetadata _ _ => true
  | _ => false

/-- The path `deleteRemotePath` of the SFTP workspace hands to `remove`, unless it refuses. -/
def deletePath (name path : String) : Option String :=
  if name = ".." then none
  else
    let trimmed := dartTrim path
    if trimmed = "" ∨ trimmed = "/" ∨ trimmed = "~" then none else some trimmed

/-- What can be done to an entry that was listed. -/
inductive EntryOp where
  | read
  | write (data : List UInt8)
  | chmod (mode : Nat)
  | rename (target : String)
  | remove (fuel : Nat)
  | deleteRemotePath (fuel : Nat)
  | copy (fuel : Nat) (target : String)
  | download (fuel : Nat) (disk : String)

namespace EntryOp

def program (entry : RemoteFileEntry) : EntryOp → SftpM Unit
  | read => Sftp.read entry.path >>= fun _ => pure ()
  | write data => Sftp.write entry.path data
  | chmod mode => Sftp.chmod entry.path mode
  | rename target => Sftp.rename entry.path target
  | remove fuel => Sftp.remove fuel entry.path
  | deleteRemotePath fuel => (deletePath entry.name entry.path).elim (pure ()) fun path => Sftp.remove fuel path
  | copy fuel target => Sftp.copy (fuel + 1) entry.path target
  | download fuel disk => Sftp.download fuel entry.path disk

/-- The path on the server that a request is about, but for where a copy is written to. -/
def subject (q : Request) : EntryOp → Option String
  | copy _ _ => if q.writes then none else q.subject
  | _ => q.subject

def sentPath (op : EntryOp) (entry : RemoteFileEntry) : Option String :=
  (op.program entry).first.bind fun q => op.subject q

def trims : EntryOp → Char → Bool
  | deleteRemotePath _ => isDartWhitespace
  | _ => isWhitespace

end EntryOp

end Portix.Sftp
