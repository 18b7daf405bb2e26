import Portix.Lib.Trace
import Portix.Sftp.Client

/-!
# Downloads of folders

`downloadRemoteEntry`, `_downloadRemoteFile` and `_downloadRemoteDirectory` of
`sftp_workspace_controller.dart`, over the calls they make: to the SFTP service and to the local file
system.

The parameter `depth` bounds the depth of the recursion; nothing else depends on it.
-/

namespace Portix.SftpWorkspace

open Lib Domain

inductive DownloadCall where
  | localTargetExists (localPath : String)
  | resolve (path : String)
  | list (path : String)
  | createDirectory (localPath : String)
  | createParent (localPath : String)
  | download (remotePath localPath : String)

abbrev DownloadAnswer : DownloadCall → Type
  | .localTargetExists _ => Bool
  | .resolve _ => Except PortixError String
  | .list _ => Except PortixError (List Sftp.RemoteFileEntry)
  | .createDirectory _ => Except String Unit
  | .createParent _ => Except String Unit
  | .download _ _ => Except PortixError Unit

inductive DownloadError where
  | targetExists (localPath : String)
  | failure (error : PortixError)
  | fileSystem (message : String)

abbrev DownloadM := Prog DownloadCall DownloadAnswer DownloadError

def orFailure {α : Type} (answer : Except PortixError α) : DownloadM α :=
  Prog.lift (answer.mapError .failure)

def orFileSystem (answer : Except String Unit) : DownloadM Unit :=
  Prog.lift (answer.mapError .fileSystem)

@[simp] theorem orFailure_ok {α : Type} (a : α) : orFailure (.ok a) = Prog.done (.ok a) := rfl

@[simp] theorem orFailure_error {α : Type} (e : PortixError) :
    (orFailure (.error e) : DownloadM α) = Prog.done (.error (.failure e)) := rfl

@[simp] theorem orFileSystem_ok (u : Unit) : orFileSystem (.ok u) = Prog.done (.ok u) := rfl

@[simp] theorem orFileSystem_error (message : String) :
    orFileSystem (.error message) = Prog.done (.error (.fileSystem message)) := rfl

def pathSeparator (windows : Bool) : String := if windows then "\\" else "/"

def childPath (windows : Bool) (localPath name : String) : String :=
  localPath ++ pathSeparator windows ++ name

def downloadRemoteFile (remotePath localPath : String) : DownloadM Unit := do
  orFileSystem (← Prog.call (.createParent localPath))
  orFailure (← Prog.call (.download remotePath localPath))

/-- The loop of `_downloadRemoteDirectory` over the entries of a folder. -/
def downloadEntries (windows : Bool) (descend : String → String → List String → DownloadM (List String))
    (localPath : String) : List Sftp.RemoteFileEntry → List String → DownloadM (List String)
  | [], seen => pure seen
  | entry :: rest, seen => do
    let child := childPath windows localPath entry.name
    if entry.isDirectory then do
      let seen ← descend entry.path child seen
      downloadEntries windows descend localPath rest seen
    else do
      downloadRemoteFile entry.path child
      downloadEntries windows descend localPath rest seen

/-- `_downloadRemoteDirectory`; the result is the set of the canonical paths seen so far. -/
def downloadRemoteDirectory (windows : Bool) : Nat → String → String → List String → DownloadM (List String)
  | 0, _, _, _ => .more
  | depth + 1, remotePath, localPath, seen => do
    let canonical ← orFailure (← Prog.call (.resolve remotePath))
    if canonical ∈ seen then pure seen
    else do
      orFileSystem (← Prog.call (.createDirectory localPath))
      let entries ← orFailure (← Prog.call (.list remotePath))
      downloadEntries windows (downloadRemoteDirectory windows depth) localPath entries (canonical :: seen)

def downloadRemoteEntry (windows : Bool) (depth : Nat) (folder : Bool) (remotePath localPath : String)
    (overwrite : Bool) : DownloadM Unit := do
  let targetExists ← if overwrite then pure false else Prog.call (DownloadCall.localTargetExists localPath)
  if targetExists then Prog.fail (.targetExists localPath)
  else if folder then do
    let _ ← downloadRemoteDirectory windows depth remotePath localPath []
    pure ()
  else downloadRemoteFile remotePath localPath

/-- The calls are answered by the SFTP client, which talks to a server, and by the local file system. -/
def service {σ : Type} (platform : Sftp.Platform) (server : (q : Sftp.Request) → σ → Sftp.Response q × σ)
    (targetExists : String → σ → Bool) (create : DownloadCall → σ → Except String Unit × σ) :
    Prog.Environment DownloadCall DownloadAnswer σ
  | .localTargetExists localPath, s, answer, s' => answer = targetExists localPath s ∧ s' = s
  | .resolve path, s, answer, s' => (Sftp.resolve path).run server s = some (answer, s')
  | .list path, s, answer, s' => (Sftp.list platform path).run server s = some (answer, s')
  | .createDirectory localPath, s, answer, s' => create (.createDirectory localPath) s = (answer, s')
  | .createParent localPath, s, answer, s' => create (.createParent localPath) s = (answer, s')
  | .download remotePath localPath, s, answer, s' =>
    ∃ fuel, (Sftp.download fuel remotePath localPath).run server s = some (answer, s')

end Portix.SftpWorkspace
