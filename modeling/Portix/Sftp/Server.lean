import Portix.Lib.FileTree
import Portix.Sftp.Client

/-!
# An SFTP server on a file tree

The server resolves paths on a tree with symbolic links. REALPATH and STAT follow links, LSTAT does
not, READDIR lists every child besides `.` and `..`. The server may refuse to list, change or
remove some entries; what it refuses does not change while a method runs.
-/

namespace Portix.Sftp

open Lib

/-- A server: its tree of files, and where it refuses to write. -/
structure Server where
  tree : FileTree
  home : Path
  maxLinks : Nat
  locked : Path → Bool

namespace Server

variable (srv : Server) (path : String)

def start : Path := if isAbsolute path then [] else srv.home

def realpath : Option Path :=
  srv.tree.resolve srv.maxLinks (srv.start path) (splitChar '/' path)

def locate : Option Path :=
  srv.tree.locate srv.maxLinks (srv.start path) (splitChar '/' path)

def place : Option Path :=
  srv.tree.place srv.maxLinks (srv.start path) (splitChar '/' path)

def attrs : Node → Metadata
  | .file content mode => ⟨false, false, some content.length, some mode, some 0⟩
  | .dir mode => ⟨true, false, some 0, some mode, some 0⟩
  | .link target => ⟨false, true, some target.length, some 0o777, some 0⟩

def changed (t? : Option FileTree) : Except String Unit × Server :=
  match t? with
  | some t => (.ok (), { srv with tree := t })
  | none => (.error "failure", srv)

def change (p? : Option Path) (f : Path → Option FileTree) :
    Except String Unit × Server :=
  srv.changed (p?.bind fun p => if srv.locked p then none else f p)

def stat (p? : Option Path) : Except String Metadata :=
  match p?.bind srv.tree.node with
  | some n => .ok (attrs n)
  | none => .error "no such file"

def readDir : Except String (List DirEntry) :=
  match srv.realpath path with
  | some p =>
    if srv.tree.isDir p && !srv.locked p then
      .ok (⟨".", attrs (.dir 0o755)⟩ :: ⟨"..", attrs (.dir 0o755)⟩ ::
        (srv.tree.children p).map fun n =>
          ⟨n.text, attrs ((srv.tree.node (p ++ [n])).getD (.dir 0o755))⟩)
    else .error "permission denied"
  | none => .error "no such file"

def content : Option (List UInt8) :=
  match (srv.realpath path).bind srv.tree.node with
  | some (.file content _) => some content
  | _ => none

def setContent (f : List UInt8 → List UInt8) :
    Except String Unit × Server :=
  srv.change (srv.realpath path) fun p =>
    match srv.tree.node p with
    | some (.file content mode) => srv.tree.put p (.file (f content) mode)
    | _ => none

def setMode (mode : Nat) : Except String Unit × Server :=
  srv.change (srv.realpath path) fun p =>
    match srv.tree.node p with
    | some (.file content _) => srv.tree.put p (.file content mode)
    | some (.dir _) => srv.tree.put p (.dir mode)
    | _ => none

/-- SSH_FXP_OPEN: an existing file, or a new empty one where the flags ask for it. -/
def openFile (flags : OpenFlags) : Except String File × Server :=
  let file : File := { side := .remote, path := path, pos := 0, append := flags.append }
  match srv.content path with
  | some _ =>
    if flags.exclude then (.error "failure", srv)
    else if flags.truncate then
      match srv.setContent path fun _ => [] with
      | (.ok _, srv') => (.ok file, srv')
      | (.error e, srv') => (.error e, srv')
    else (.ok file, srv)
  | none =>
    if flags.create then
      match srv.change (srv.place path) fun p =>
          if (srv.tree.node p).isSome then none else srv.tree.put p (.file [] 0o644) with
      | (.ok _, srv') => (.ok file, srv')
      | (.error e, srv') => (.error e, srv')
    else (.error "no such file", srv)

def handle : (q : Request) → Server → Response q × Server
  | .canonicalize path, srv =>
    (match srv.realpath path with
      | some p => .ok p.render
      | none => .error "no such file", srv)
  | .metadata .remote path, srv => (srv.stat (srv.realpath path), srv)
  | .metadata .disk _, srv => (.error "no such file", srv)
  | .symlinkMetadata path, srv => (srv.stat (srv.locate path), srv)
  | .readDir path, srv => (srv.readDir path, srv)
  | .readFile path, srv =>
    (match srv.content path with
      | some content => .ok content
      | none => .error "no such file", srv)
  | .openFile .remote path flags, srv => srv.openFile path flags
  | .openFile .disk _ _, srv => (.error "no such file", srv)
  | .seek file pos, srv => (.ok { file with pos := pos }, srv)
  | .readChunk file max, srv =>
    (match srv.content file.path with
      | some content =>
        let data := (content.drop file.pos).take max
        .ok (data, { file with pos := file.pos + data.length })
      | none => .error "no such file", srv)
  | .writeAll file data, srv =>
    match srv.setContent file.path fun content =>
        writeAt content (if file.append then content.length else file.pos) data with
    | (.ok _, srv') => (.ok { file with pos := file.pos + data.length }, srv')
    | (.error e, srv') => (.error e, srv')
  | .flush _, srv => (.ok (), srv)
  | .shutdown _, srv => (.ok (), srv)
  | .createDir path, srv =>
    srv.change (srv.place path) fun p =>
      if (srv.tree.node p).isSome then none else srv.tree.put p (.dir 0o755)
  | .removeFile path, srv => srv.change (srv.locate path) srv.tree.unlink
  | .removeDir path, srv => srv.change (srv.locate path) srv.tree.rmdir
  | .setMetadata path mode, srv => srv.setMode path mode
  | .rename .remote source target, srv =>
    -- SFTP v3: an existing target is not overwritten.
    srv.change (srv.locate source) fun p =>
      (srv.place target).bind fun q =>
        if (srv.tree.node q).isSome then none else srv.tree.move p q
  | .rename .disk _ _, srv => (.error "no such file", srv)
  | .progress _, srv => (true, srv)

end Server

/-- A path with `~` for the login directory, which the server reads relative paths against. -/
def expandHome (path : String) : String :=
  if path = "~" then "." else (stripPrefix "~/" path).getD path

/-- The path names the entry `p`, which may be a symbolic link. -/
def Names (srv : Server) (path : String) (p : Path) : Prop :=
  srv.locate path = some p ∨ srv.locate (expandHome path) = some p

/-- A removal of the entry `p` deletes exactly what was named: when it succeeds, `p` and everything
lexically below it are gone and every other entry is as it was. -/
def RemovesExactly (srv : Server) (path : String) (p : Path) : Prop :=
  ∀ fuel srv', (remove fuel path).run Server.handle srv = some (.ok (), srv') →
    ∀ q, srv'.tree.node q = if p <+: q then none else srv.tree.node q

/-- What `remote_path` makes of the path leads, links followed, to another entry than `p`, which can
be removed. -/
def Astray (srv : Server) (path : String) (p : Path) : Prop :=
  ∃ d, srv.realpath (remotePath path) = some d ∧ d ≠ p ∧ d ≠ [] ∧
    ∀ q, d <+: q → (srv.tree.node q).isSome = true → srv.locked q = false

end Portix.Sftp
