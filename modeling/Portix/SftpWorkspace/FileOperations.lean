import Portix.SftpWorkspace.SftpWorkspaceController
import Portix.Lib.FileTree
import Portix.Lib.Trace
import Portix.Sftp.Client

/-!
# Renaming, duplicating and uploading

`renameRemotePath`, `duplicateRemotePath` and `uploadLocalPath` of `sftp_workspace_controller.dart`,
over the calls they make to the SFTP service. The remote paths of these calls are made from the texts
of paths.
-/

namespace Portix.SftpWorkspace

open Lib

def stripSlashes (path : String) : String := String.ofList (path.toList.rdropWhile (· == '/'))

def beforeLastSlash (path : String) : Option String :=
  if containsChar path '/' then some (String.ofList (path.toList.rdropWhile (· != '/')).dropLast) else none

def joinRemote (directory name : String) : String :=
  let base := if dartTrim directory = "" then "~" else dartTrim directory
  if base = "/" then "/" ++ name else stripSlashes base ++ "/" ++ name

def renameTargetPath (oldPath newName : String) : String :=
  let normalized := stripSlashes (replaceChar '\\' "/" oldPath)
  match beforeLastSlash normalized with
  | none => newName
  | some parent => if parent = "" then "/" ++ newName else parent ++ "/" ++ newName

def basename (path : String) : String :=
  let normalized := replaceChar '\\' "/" path
  let parts := (splitChar '/' normalized).filter fun part => part ≠ ""
  parts.getLast?.getD normalized

inductive RemoteCall where
  | rename (source target : String)
  | copy (source target : String)
  | createDir (path : String)
  | upload (localPath remotePath : String)
  deriving DecidableEq

abbrev OperationM := Prog RemoteCall (fun _ => Except String Unit) String

/-- `result.fold((failure) => throw StateError(failure.message), (_) {})`. -/
def orThrow (answer : Except String Unit) : OperationM Unit := Prog.lift answer

def RemoteCall.resolved : RemoteCall → RemoteCall
  | rename source target => rename (Sftp.remotePath source) (Sftp.remotePath target)
  | copy source target => copy (Sftp.remotePath source) (Sftp.remotePath target)
  | createDir path => createDir (Sftp.remotePath path)
  | upload localPath remotePath => upload localPath (Sftp.remotePath remotePath)

def asked {α : Type} : OperationM α → List RemoteCall
  | .ask call k => call :: asked (k (.ok ()))
  | _ => []

def isPath (name : String) : Bool := containsChar name '/' || containsChar name '\\'

def renameRemotePath (sessionId : Option String) (file : SftpFileEntry) (newName : String) : OperationM Unit :=
  let trimmed := dartTrim newName
  match sessionId, file.path with
  | none, _ => Prog.fail "Remote SFTP session is not connected yet."
  | some _, none => pure ()
  | some _, some remotePath =>
    if trimmed = "" then pure ()
    else if isPath trimmed then Prog.fail "Rename only supports a name, not a path."
    else do
      let targetPath := renameTargetPath remotePath trimmed
      orThrow (← Prog.call (RemoteCall.rename remotePath targetPath))

def duplicateRemotePath (sessionId : Option String) (file : SftpFileEntry) (newName : String) :
    OperationM Unit :=
  let trimmed := dartTrim newName
  match sessionId, file.path with
  | some _, some remotePath =>
    if trimmed = "" then pure ()
    else if isPath trimmed then Prog.fail "Duplicate only supports a name, not a path."
    else do
      let targetPath := renameTargetPath remotePath trimmed
      orThrow (← Prog.call (RemoteCall.copy remotePath targetPath))
  | _, _ => pure ()

/-- The operations that give an entry's content a new name in its folder. -/
inductive NamingOperation where
  | rename
  | duplicate

def NamingOperation.program : NamingOperation → Option String → SftpFileEntry → String → OperationM Unit
  | rename => renameRemotePath
  | duplicate => duplicateRemotePath

def NamingOperation.call : NamingOperation → String → String → RemoteCall
  | rename => .rename
  | duplicate => .copy

/-- What `Directory.list` finds in a folder without following links, each folder with what it finds in
there. -/
inductive Listing where
  | nil
  | file (name : Name) (rest : Listing)
  | link (name : Name) (rest : Listing)
  | dir (name : Name) (entries rest : Listing)

/-- What is under a local path once its links are followed (`FileSystemEntity.typeSync`). -/
inductive LocalEntity where
  | notFound
  | file
  | directory (entries : Listing)

variable (directory : String)

def entityPath (name : Name) : String := Sftp.join directory name.text

def uploadFile (path remoteDirectory : String) : OperationM Unit := do
  orThrow (← Prog.call (RemoteCall.upload path (joinRemote remoteDirectory (basename path))))

def uploadDirectoryWith (uploadEntries : String → String → OperationM Unit) (directory remoteDirectory : String) :
    OperationM Unit := do
  let remoteRoot := joinRemote remoteDirectory (basename directory)
  orThrow (← Prog.call (RemoteCall.createDir remoteRoot))
  uploadEntries directory remoteRoot

def uploadEntries : Listing → String → String → OperationM Unit
  | .nil, _, _ => pure ()
  | .file name rest, directory, remoteRoot => do
    uploadFile (entityPath directory name) remoteRoot
    uploadEntries rest directory remoteRoot
  | .link _ rest, directory, remoteRoot => uploadEntries rest directory remoteRoot
  | .dir name entries rest, directory, remoteRoot => do
    uploadDirectoryWith (uploadEntries entries) (entityPath directory name) remoteRoot
    uploadEntries rest directory remoteRoot

def uploadDirectory (entries : Listing) (remoteDirectory : String) : OperationM Unit :=
  uploadDirectoryWith (uploadEntries entries) directory remoteDirectory

def remoteUploadTargetPath (localPath remoteDirectory : String) : String :=
  joinRemote remoteDirectory (basename localPath)

def remoteTargetExistsForLocalPath (remoteRows : List SftpFileEntry) (localPath remoteDirectory : String) :
    Bool :=
  let targetPath := remoteUploadTargetPath localPath remoteDirectory
  remoteRows.any fun row =>
    row.name ≠ ".." && (row.path == some targetPath || row.name == basename localPath)

/-- `uploadLocalPath` to a folder, which is the shown one unless the caller names one. -/
def uploadLocalPath (disk : String → LocalEntity) (sessionId : Option String) (remoteRows : List SftpFileEntry)
    (localPath targetDirectory : String) (overwrite : Bool) : OperationM Unit :=
  match sessionId with
  | none => Prog.fail "Remote SFTP session is not connected yet."
  | some _ =>
    let normalized := dartTrim localPath
    let targetPath := remoteUploadTargetPath normalized targetDirectory
    match disk normalized with
    | .notFound => Prog.fail "Local path not found"
    | found =>
      if !overwrite && remoteTargetExistsForLocalPath remoteRows normalized targetDirectory then
        Prog.fail ("Remote target already exists: " ++ targetPath)
      else match found with
        | .directory entries => uploadDirectory normalized entries targetDirectory
        | _ => uploadFile normalized targetDirectory

namespace Listing

/-- The regular files below a folder: the names of the folders that lead to each, and its own. -/
def files : Listing → List (List Name × Name)
  | nil => []
  | file name rest => ([], name) :: rest.files
  | link _ rest => rest.files
  | dir name entries rest => entries.files.map (fun f => (name :: f.1, f.2)) ++ rest.files

end Listing

def localBelow (names : List Name) : String := names.foldl entityPath directory

/-- The path of what the names lead to from a remote folder; slashes at the end of the folder's path do
not count. -/
def remoteBelow (names : List Name) : String :=
  names.foldl (fun path name => path ++ "/" ++ name.text) (stripSlashes directory)

def lastName (path : String) : Option String := ((splitChar '/' path).filter fun part => part ≠ "").getLast?

def uploads (calls : List RemoteCall) : List (String × String) :=
  calls.filterMap fun
    | .upload localPath remotePath => some (localPath, remotePath)
    | _ => none

/-- What the upload of a folder called `name` should upload: each regular file below it, to the same place
below the remote folder. -/
def treeUploads (localPath : String) (name : Name) (entries : Listing) (remoteDirectory : String) :
    List (String × String) :=
  entries.files.map fun f =>
    (localBelow localPath (f.1 ++ [f.2]), remoteBelow remoteDirectory (name :: f.1 ++ [f.2]))

end Portix.SftpWorkspace
