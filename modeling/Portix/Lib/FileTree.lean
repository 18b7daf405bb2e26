import Portix.Lib.Text
import Mathlib.Data.List.Nodup

/-!
# File trees with symbolic links

A tree is the list of its entries, each under its physical path: every parent is a directory of
the tree, and no path occurs twice. An operation that would break this is refused. Paths given as
text are resolved the way POSIX does, with a bound on the number of links followed.
-/

namespace Portix.Lib

def validName (text : String) : Bool :=
  text ≠ "" && text ≠ "." && text ≠ ".." && !containsChar text '/'

structure Name where
  text : String
  valid : validName text = true
  deriving DecidableEq

def Name.ofString? (text : String) : Option Name :=
  if h : validName text = true then some ⟨text, h⟩ else none

abbrev Path := List Name

def Path.render (p : Path) : String :=
  if p = [] then "/" else String.ofList (p.flatMap fun n => '/' :: n.text.toList)

/-- What stands at a path. -/
inductive Node where
  | file (content : List UInt8) (mode : Nat)
  | dir (mode : Nat)
  | link (target : String)
  deriving DecidableEq

def Node.isDir : Node → Bool
  | dir _ => true
  | _ => false

def Node.isLink : Node → Bool
  | link _ => true
  | _ => false

def lookup (entries : List (Path × Node)) (p : Path) : Option Node :=
  if p = [] then some (.dir 0o755) else (entries.find? fun e => e.1 = p).map Prod.snd

/-- Distinct paths below the root, each in a directory. -/
def WellFormed (entries : List (Path × Node)) : Prop :=
  (entries.map Prod.fst).Nodup ∧
    ∀ e ∈ entries, e.1 ≠ [] ∧ (lookup entries e.1.dropLast).any Node.isDir = true

instance (entries : List (Path × Node)) : Decidable (WellFormed entries) :=
  inferInstanceAs (Decidable (_ ∧ _))

/-- Files, folders and links, each in a folder that is there. -/
structure FileTree where
  entries : List (Path × Node)
  wellFormed : WellFormed entries

namespace FileTree

def ofEntries? (entries : List (Path × Node)) : Option FileTree :=
  if h : WellFormed entries then some ⟨entries, h⟩ else none

variable (t : FileTree) (p : Path)

def node : Option Node := lookup t.entries p

def isDir : Bool := (t.node p).any Node.isDir

def children : List Name :=
  t.entries.filterMap fun e => if e.1.dropLast = p then e.1.getLast? else none

def erase : Option FileTree :=
  ofEntries? (t.entries.filter fun e => e.1 ≠ p)

def unlink : Option FileTree :=
  if t.isDir p then none else t.erase p

def rmdir : Option FileTree :=
  if t.isDir p ∧ p ≠ [] then t.erase p else none

def put (n : Node) : Option FileTree :=
  ofEntries? ((t.entries.filter fun e => e.1 ≠ p) ++ [(p, n)])

def move (source target : Path) : Option FileTree :=
  ofEntries? (t.entries.map fun e =>
    if source.isPrefixOf e.1 then (target ++ e.1.drop source.length, e.2) else e)

/-- Walk down from the directory `cwd`, handing a link met on the way to `follow`. -/
def walkWith (t : FileTree) (follow : Path → List String → Option Path) :
    Path → List String → Option Path
  | cwd, [] => some cwd
  | cwd, c :: rest =>
    if c = "" ∨ c = "." then walkWith t follow cwd rest
    else if c = ".." then walkWith t follow cwd.dropLast rest
    else match Name.ofString? c with
      | none => none
      | some n =>
        match t.node (cwd ++ [n]) with
        | some (.dir _) => walkWith t follow (cwd ++ [n]) rest
        | some (.file _ _) => if rest = [] then some (cwd ++ [n]) else none
        | some (.link target) =>
          follow (if isAbsolute target then [] else cwd) (splitChar '/' target ++ rest)
        | none => none

def walk (t : FileTree) : Nat → Path → List String → Option Path
  | 0 => walkWith t fun _ _ => none
  | links + 1 => walkWith t (walk t links)

/-- The entry reached by following every link, from the directory `start`. -/
def resolve (links : Nat) (start : Path) (components : List String) : Option Path :=
  if t.isDir start then t.walk links start components else none

/-- The entry named by the components, a link in last place not being followed. -/
def locate (links : Nat) (start : Path) (components : List String) : Option Path :=
  match (components.getLast?).bind Name.ofString? with
  | none => t.resolve links start components
  | some n => (t.resolve links start components.dropLast).bind fun dir =>
    if (t.node (dir ++ [n])).isSome then some (dir ++ [n]) else none

def place (links : Nat) (start : Path) (components : List String) : Option Path :=
  ((components.getLast?).bind Name.ofString?).bind fun n =>
    (t.resolve links start components.dropLast).bind fun dir =>
      if t.isDir dir then some (dir ++ [n]) else none

end FileTree

def writeAt (content : List UInt8) (pos : Nat) (data : List UInt8) : List UInt8 :=
  content.take pos ++ List.replicate (pos - content.length) 0 ++ data ++
    content.drop (pos + data.length)

theorem writeAt_length (content data : List UInt8) :
    writeAt content content.length data = content ++ data := by
  simp [writeAt]

end Portix.Lib
