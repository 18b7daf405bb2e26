import Portix.Lib.Loop
import Portix.SftpWorkspace.SftpWorkspaceController

/-!
# Remote search

`findRemoteEntries` of `sftp_client/remote_search.dart`: a breadth-first search below a folder, in batches whose
folders are listed side by side, bounded in its depth, in the folders it lists and in its results.
-/

namespace Portix.SftpWorkspace.Find

open Lib

structure TextPlatform where
  toLowerCase : String → String
  sort : (RemoteFileEntry → RemoteFileEntry → Ordering) → List RemoteFileEntry → List RemoteFileEntry
  toLowerCase_lines : ∀ a b, toLowerCase (a ++ "\n" ++ b) = toLowerCase a ++ "\n" ++ toLowerCase b
  sort_perm : ∀ compare entries, (sort compare entries).Perm entries

def containsText (text query : String) : Bool := decide (query.toList <:+: text.toList)

def startsWithText (text start : String) : Bool := decide (start.toList <+: text.toList)

def maxRemoteSearchDepth : Nat := 12

def maxRemoteSearchDirectories : Nat := 600

def batchSize : Nat := 6

def remoteSearchSkippedDirectories : List String :=
  [".cache", ".cargo", ".git", ".gradle", ".local", ".npm", ".rustup", ".venv", ".tox", ".m2", ".pub-cache",
    "__pycache__", "Library", "cache", "dev", "node_modules", "proc", "run", "sys", "tmp", "vendor", "target",
    "build", "dist", ".next"]

def shouldSkipRemoteSearchDirectory (entry : RemoteFileEntry) (basePath : String) : Bool :=
  if entry.path = "/" ∨ entry.path = basePath then false
  else if entry.name ∈ remoteSearchSkippedDirectories then true
  else
    entry.path = "/proc" || startsWithText entry.path "/proc/" ||
      entry.path = "/sys" || startsWithText entry.path "/sys/" ||
      entry.path = "/dev" || startsWithText entry.path "/dev/" ||
      entry.path = "/run" || startsWithText entry.path "/run/"

def isSearched (basePath : String) (entry : RemoteFileEntry) : Bool :=
  entry.isDirectory && !shouldSkipRemoteSearchDirectory entry basePath

def looksLikeMediaQuery (query : String) : Bool :=
  [".jpg", ".jpeg", ".png", ".gif", ".webp", ".heic", ".svg"].any fun ending =>
    decide (ending.toList <:+ query.toList)

def remoteSearchPriority (platform : TextPlatform) (entry : RemoteFileEntry) (query : String) : Int :=
  let name := platform.toLowerCase entry.name
  let path := platform.toLowerCase entry.path
  100 - (if containsText path query || containsText name query then 60 else 0)
    - (if looksLikeMediaQuery query &&
        ["picture", "photo", "image", "screenshot", "download"].any (containsText name) then 35 else 0)
    - (if startsWithText name "." then 0 else 10)

def normalizedPath (path : String) : String := if dartTrim path = "" then "/" else dartTrim path

structure RemoteSearchDirectory where
  path : String
  depth : Nat

/-- What was found, the folders seen, and those still to be searched. -/
structure Search where
  results : List RemoteFileEntry := []
  visited : List String := []
  queue : List RemoteSearchDirectory
  listed : List RemoteSearchDirectory := []

structure Found (ε : Type) where
  listed : List RemoteSearchDirectory
  result : Except ε (List RemoteFileEntry)

def takeBatch (batch : List RemoteSearchDirectory) (visited : List String) :
    List RemoteSearchDirectory → List RemoteSearchDirectory × List String × List RemoteSearchDirectory
  | [] => (batch, visited, [])
  | current :: queue =>
    if batch.length < batchSize then
      if maxRemoteSearchDepth < current.depth then takeBatch batch visited queue
      else if normalizedPath current.path ∈ visited then takeBatch batch visited queue
      else takeBatch (batch ++ [⟨normalizedPath current.path, current.depth⟩])
        (visited ++ [normalizedPath current.path]) queue
    else (batch, visited, current :: queue)

section

variable {ε : Type} (platform : TextPlatform) (list : String → Except ε (List RemoteFileEntry))
  (basePath query : String) (maxResults : Nat)

def listForFind (path : String) (isBasePath : Bool) : Except ε (List RemoteFileEntry) :=
  match list path with
  | .ok entries => .ok entries
  | .error error => if isBasePath then .error error else .ok []

def isHit (entry : RemoteFileEntry) : Bool :=
  containsText (platform.toLowerCase (entry.name ++ "\n" ++ entry.path)) query

/-- The entries of one folder: those that match, and the folders among them that are to be searched too. -/
def searchEntries (results children : List RemoteFileEntry) :
    List RemoteFileEntry → List RemoteFileEntry × List RemoteFileEntry
  | [] => (results, children)
  | entry :: entries =>
    if maxResults ≤ results.length then (results, children)
    else searchEntries
      (if isHit platform query entry then results ++ [entry] else results)
      (if isSearched basePath entry then children ++ [entry] else children) entries

def enqueue (visited : List String) (depth : Nat) (queue : List RemoteSearchDirectory) :
    List RemoteFileEntry → List RemoteSearchDirectory
  | [] => queue
  | directory :: directories =>
    if maxRemoteSearchDirectories ≤ visited.length + queue.length then queue
    else enqueue visited depth (queue ++ [⟨directory.path, depth + 1⟩]) directories

def searchDirectory (s : Search) (dir : RemoteSearchDirectory) (entries : List RemoteFileEntry) : Search :=
  let (results, children) := searchEntries platform basePath query maxResults s.results [] entries
  let sorted := platform.sort
    (fun a b => compare (remoteSearchPriority platform a query) (remoteSearchPriority platform b query)) children
  { s with results := results, queue := enqueue s.visited dir.depth s.queue sorted }

def searchBatch (s : Search) : List (RemoteSearchDirectory × List RemoteFileEntry) → Search
  | [] => s
  | (dir, entries) :: batchResults =>
    if maxResults ≤ s.results.length then s
    else searchBatch (searchDirectory platform basePath query maxResults s dir entries) batchResults

def turn (s : Search) : Turn Search (Found ε) :=
  if s.queue = [] ∨ maxResults ≤ s.results.length ∨ maxRemoteSearchDirectories ≤ s.visited.length then
    .done ⟨s.listed, .ok s.results⟩
  else
    let (batch, visited, queue) := takeBatch [] s.visited s.queue
    if batch = [] then .next { s with visited := visited, queue := queue }
    else
      let s := { s with visited := visited, queue := queue, listed := s.listed ++ batch }
      match batch.mapM fun dir => (listForFind list dir.path (dir.depth = 0)).map fun entries => (dir, entries) with
      | .error error => .done ⟨s.listed, .error error⟩
      | .ok batchResults => .next (searchBatch platform basePath query maxResults s batchResults)

/-- `findRemoteEntries` comes to this. -/
def Finds (found : Found ε) : Prop :=
  ∃ n, afterTurns (turn platform list basePath query maxResults) n { queue := [⟨basePath, 0⟩] } = .done found

def entriesOf (path : String) : List RemoteFileEntry :=
  match list path with
  | .ok entries => entries
  | .error _ => []

/-- The folders to be searched in a folder, with their paths read as `read` says. -/
def foldersIn (read : String → String) (path : String) : List String :=
  ((entriesOf list path).filter (isSearched basePath)).map fun entry => read entry.path

def folders : List String := within (foldersIn list basePath id) maxRemoteSearchDepth basePath

def matchesQuery (entry : RemoteFileEntry) : Bool :=
  containsText (platform.toLowerCase entry.name) query || containsText (platform.toLowerCase entry.path) query

def matchesIn (path : String) : List RemoteFileEntry := (entriesOf list path).filter (matchesQuery platform query)

/-- At most 600 folders are listed, none twice and none more than 12 levels deep, as their paths are read by the search,
and there are no more results than were asked for. -/
structure Bounded (found : Found ε) : Prop where
  listed_le : found.listed.length ≤ 600
  listed_nodup : (found.listed.map RemoteSearchDirectory.path).Nodup
  depth_le : ∀ dir ∈ found.listed, dir.depth ≤ 12
  listed_at : ∀ dir ∈ found.listed,
    AtLevel (foldersIn list basePath normalizedPath) (normalizedPath basePath) dir.depth dir.path
  results_le : ∀ entries, found.result = .ok entries → entries.length ≤ maxResults

/-- The folders listed are folders to be searched, as deep as they are, and the results are entries of such folders
that match. -/
structure Sound (found : Found ε) : Prop where
  listed_at : ∀ dir ∈ found.listed, AtLevel (foldersIn list basePath id) basePath dir.depth dir.path
  results_match : ∀ entries, found.result = .ok entries → ∀ entry ∈ entries,
    (∃ path ∈ folders list basePath, entry ∈ entriesOf list path) ∧ matchesQuery platform query entry = true

/-- With at most 600 folders to be searched, all with paths of their own, and fewer matching entries in them than were
asked for, the results are those entries. -/
def Complete (found : Found ε) : Prop :=
  (folders list basePath).Nodup → (folders list basePath).length ≤ 600 →
    ((folders list basePath).flatMap (matchesIn platform list query)).length < maxResults →
    ∃ entries, found.result = .ok entries ∧
      entries.Perm ((folders list basePath).flatMap (matchesIn platform list query))

/-- The paths of the folders to be searched are not changed by the search. -/
def Plain : Prop := ∀ path ∈ folders list basePath, normalizedPath path = path

end

end Portix.SftpWorkspace.Find

-- A search is shown as its query, its folder, its rows and its error; while it is running, that is shown too. What is
-- shown of one that is not running should be the outcome of a search that was made.

namespace Portix.SftpWorkspace

open Lib

def SftpWorkspaceController.remoteSearchActive (c : SftpWorkspaceController) : Bool :=
  dartTrim c.search.query ≠ ""

namespace SftpPane

variable (platform : Platform)

/-- What is to be shown of a search after the answers that it has got. -/
inductive Outcome (h : List PaneEvent) (i : Nat) (input : RemoteSearchInput) : RemoteSearch → Prop where
  | unresolved (hresolved : .searchResolved i none ∈ h) : Outcome h i input
      { query := input.query
        base := input.base
        error := some "Failed to resolve remote folder" }
  | notFound {path : String} (hresolved : .searchResolved i (some path) ∈ h) (hfound : .found i none ∈ h) :
      Outcome h i input
        { query := input.query
          base := input.base
          error := some "Failed to find remote entries" }
  | found {path : String} {entries : List RemoteFileEntry} (hresolved : .searchResolved i (some path) ∈ h)
      (hfound : .found i (some entries) ∈ h) : Outcome h i input
      { query := input.query
        base := path
        rows := entries.map (mapSearchResult platform)
        error := if SftpWorkspaceController.maxRemoteSearchResults ≤ entries.length then
          some s!"Showing first {SftpWorkspaceController.maxRemoteSearchResults} matches." else none }

/-- What is shown is the outcome of a search for it on the session that is attached. -/
def ShowsSearch (h : List PaneEvent) (s : SftpPane) : Prop :=
  s.controller.isDisposed = false → s.controller.remoteSearchActive = true →
    s.controller.search.searching = false →
    ∃ i search, s.searches[i]? = some search ∧ s.controller.remoteSessionId = some search.sessionId ∧
      Outcome platform h i search.input s.controller.search

/-- If a search is the current one and anything is shown of it, no other query and no other session is
waiting for the timer. -/
def Awaited (s : SftpPane) (i : Nat) : Prop :=
  ∀ search, s.searches[i]? = some search → s.controller.isCurrentRemoteSearch search.token = true →
    s.controller.remoteSearchActive = true → ∀ sessionId input,
    s.controller.remoteSearchDebounce = some (sessionId, input) →
    sessionId = search.sessionId ∧ input.query = search.input.query

/-- So is the folder that it was asked to search in. -/
def BaseShown (s : SftpPane) (i : Nat) : Prop :=
  ∀ search, s.searches[i]? = some search → s.controller.isCurrentRemoteSearch search.token = true →
    s.controller.remoteSearchActive = true → s.controller.search.base = search.input.base

/-- The last answer to the current search comes while no other search waits for the timer, and if it is a
failure, while its folder is shown. -/
def Undisturbed (s : SftpPane) : PaneEvent → Prop
  | .searchResolved i none => s.Awaited i ∧ s.BaseShown i
  | .found i none => s.Awaited i ∧ s.BaseShown i
  | .found i (some _) => s.Awaited i
  | _ => True

end SftpPane

end Portix.SftpWorkspace
