import Portix.Lib.Json

/-!
# Places in a JSON value

The value at a path, and values that agree at all paths but some.
-/

namespace Portix.Lib.Json

def erase (key : String) (entries : JsonMap) : JsonMap :=
  entries.filter fun entry => entry.1 ≠ key

inductive Step where
  | key (key : String)
  | index (index : Nat)

def child : Json → Step → Option Json
  | .map entries, .key key => entries.lookup key
  | .list items, .index index => items[index]?
  | _, _ => none

def at? (value : Json) : List Step → Option Json
  | [] => some value
  | step :: rest => (value.child step).bind fun part => part.at? rest

inductive Shape where
  | null
  | bool (value : Bool)
  | int (value : Int64)
  | double (text : String)
  | string (value : String)
  | list (length : Nat)
  | map
  deriving DecidableEq

def shape : Json → Shape
  | .null => .null
  | .bool value => .bool value
  | .int value => .int value
  | .double text => .double text
  | .string value => .string value
  | .list items => .list items.length
  | .map _ => .map

def shapeAt (value : Option Json) (path : List Step) : Option Shape :=
  (value.bind fun value => value.at? path).map shape

/-- A shape that says something: empty maps, lists, texts and `null` are like nothing at all. Of a map
the entries say something. -/
def Shape.said : Shape → Option Shape
  | .null => none
  | .string value => if value = "" then none else some (.string value)
  | .list length => if length = 0 then none else some (.list length)
  | .map => none
  | shape => some shape

/-- Two values that may be missing have the same shapes at all paths but some, as far as a view of the
shapes tells. -/
def Agree (view : Shape → Option Shape) (inside : List Step → Prop) (first second : Option Json) : Prop :=
  ∀ path, ¬inside path → (shapeAt first path).bind view = (shapeAt second path).bind view

/-- Nothing is left out. -/
def Nowhere (_ : List Step) : Prop := False

/-- Two values say the same: empty maps, lists and texts may be missing from either. -/
abbrev Alike (first second : Option Json) : Prop := Agree Shape.said Nowhere first second

/-- The value at a path of keys is changed in place; a path that ends early leads to nothing. -/
def modify (change : Json → Option Json) : List String → Json → Option Json
  | [], value => change value
  | key :: rest, .map entries => match entries.lookup key with
    | some value => (modify change rest value).map fun value => .map (set key value entries)
    | none => some (.map entries)
  | _ :: _, value => some value

def getPath (value : Json) (path : List String) : Json :=
  path.foldl (fun value key => match value with
    | .map entries => get entries key
    | _ => .null) value

/-- Below some keys. -/
def Under (keys : List String) (inside : List Step → Prop) (path : List Step) : Prop :=
  ∃ rest, path = keys.map .key ++ rest ∧ inside rest

end Portix.Lib.Json
