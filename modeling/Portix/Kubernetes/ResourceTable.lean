import Mathlib.Data.List.Lex
import Portix.Kubernetes.KubeResources
import Portix.Lib.Sorting

/-!
# The table of a resource page

The search and the sort of `_ResourcePageState._shown`. Decimals are a parameter, and so is the sort: of `List.sort` the
page only relies on a permutation.
-/

namespace Portix.Kubernetes

open Lib

/-- Decimals, as `double` reads, prints and orders them, and where the whole numbers are among them. -/
structure Doubles (D V : Type) [LinearOrder V] where
  tryParse : String → Option D
  text : D → String
  rank : D → V
  rankInt : Int64 → V
  rankInt_lt : ∀ m n, rankInt m < rankInt n ↔ m.toInt < n.toInt
  text_eq : ∀ x y, rank x = rank y → text x = text y

/-- A number in Dart, whole or not. -/
inductive DartNum (D : Type) where
  | int (n : Int64)
  | double (d : D)

namespace DartNum

variable {D V : Type} [LinearOrder V]

def isInt : DartNum D → Bool
  | .int _ => true
  | .double _ => false

def text (doubles : Doubles D V) : DartNum D → String
  | .int n => toString n.toInt
  | .double d => doubles.text d

def rank (doubles : Doubles D V) : DartNum D → V
  | .int n => doubles.rankInt n
  | .double d => doubles.rank d

def tryParse (doubles : Doubles D V) (cell : String) : Option (DartNum D) :=
  match intTryParse cell with
  | some n => some (.int n)
  | none => (doubles.tryParse cell).map .double

end DartNum

abbrev Item : Type := JsonMap

structure KubeColumn where
  header : String
  cell : Item → String

/-- What a cell is sorted by. -/
inductive SortKey (D : Type) where
  | number (n : DartNum D)
  | text (s : String)

section Compare

variable {D V : Type} [LinearOrder V] (doubles : Doubles D V) (toLowerCase : String → String)

def SortKey.shown : SortKey D → String
  | .number n => n.text doubles
  | .text s => s

def compareTexts (s t : String) : Ordering :=
  if units s < units t then .lt else if units t < units s then .gt else .eq

def SortKey.compareTo : SortKey D → SortKey D → Ordering
  | .number (.int m), .number (.int n) => cmp m.toInt n.toInt
  | .number (.double x), .number (.double y) => cmp (doubles.rank x) (doubles.rank y)
  | .text s, .text t => compareTexts s t
  | x, y => compareTexts (x.shown doubles) (y.shown doubles)

variable (column : KubeColumn)

def KubeColumn.isAge : Bool := column.header = "Age"

def KubeColumn.sortKey (item : Item) : SortKey D :=
  if column.isAge then .text (field item "metadata.creationTimestamp").toText
  else
    match DartNum.tryParse doubles (column.cell item) with
    | some n => .number n
    | none => .text (toLowerCase (column.cell item))

def KubeColumn.compareItems (a b : Item) : Ordering :=
  let result := (column.sortKey doubles toLowerCase a).compareTo doubles (column.sortKey doubles toLowerCase b)
  if column.isAge then result.swap else result

def KubeColumn.compareShown (ascending : Bool) (a b : Item) : Ordering :=
  if ascending then column.compareItems doubles toLowerCase a b else column.compareItems doubles toLowerCase b a

end Compare

/-- The rows of a table, how they are searched and how they are sorted. -/
structure ResourceTable where
  items : List Item
  search : String := ""
  grouped : Bool := false
  sortColumn : Option Nat := none
  ascending : Bool := true

namespace ResourceTable

variable {D V : Type} [LinearOrder V] (doubles : Doubles D V) (toLowerCase : String → String)

def query (page : ResourceTable) : String := toLowerCase (dartTrim page.search)

def contains (text query : String) : Bool := decide (query.toList <:+: text.toList)

/-- The test of the search; a namespace that is not a text is a `TypeError`. -/
def matchesSearch (page : ResourceTable) (columns : List KubeColumn) (item : Item) : Option Bool :=
  if page.query toLowerCase = "" ||
      columns.any fun c => contains (toLowerCase (c.cell item)) (page.query toLowerCase) then some true
  else if page.grouped then
    (namespaceOf item).map fun ns => contains (ns.getD "") (page.query toLowerCase)
  else some false

def matching (page : ResourceTable) (columns : List KubeColumn) : List Item → Option (List Item)
  | [] => some []
  | item :: items =>
    match page.matchesSearch toLowerCase columns item with
    | none => none
    | some matched => (page.matching columns items).map fun rest => if matched then item :: rest else rest

def shown (sort : (Item → Item → Ordering) → List Item → List Item) (page : ResourceTable)
    (columns : List KubeColumn) : Option (List Item) :=
  (page.matching toLowerCase columns page.items).map fun shown =>
    match page.sortColumn.bind fun i => columns[i]? with
    | some column => sort (column.compareShown doubles toLowerCase page.ascending) shown
    | none => shown

end ResourceTable

section Order

variable {D V : Type} [LinearOrder V] (doubles : Doubles D V) (toLowerCase : String → String)

/-- The comparison orders some items: weakly and strictly, numbers by their values, one way up and one way down. -/
structure RealOrder (column : KubeColumn) (items : List Item) : Prop where
  weak : ∀ ascending, StrictWeakOn (· ∈ items) fun a b => column.compareShown doubles toLowerCase ascending a b = .lt
  signs : ∀ ascending, ∀ a ∈ items, ∀ b ∈ items,
    (column.compareShown doubles toLowerCase ascending a b = .lt ↔
      column.compareShown doubles toLowerCase ascending b a = .gt)
  byValue : ∀ a ∈ items, ∀ b ∈ items, ∀ x y, column.sortKey doubles toLowerCase a = .number x →
    column.sortKey doubles toLowerCase b = .number y → x.rank doubles < y.rank doubles →
    column.compareShown doubles toLowerCase true a b = .lt
  converse : ∀ a ∈ items, ∀ b ∈ items,
    column.compareShown doubles toLowerCase false a b = column.compareShown doubles toLowerCase true b a

/-- A whole number and a decimal are in the order of their texts; and no text is between those of two numbers of one
type that are in the other order. -/
structure TextsAgree (column : KubeColumn) (items : List Item) : Prop where
  mixed : ∀ a ∈ items, ∀ b ∈ items, ∀ x y, column.sortKey doubles toLowerCase a = .number x →
    column.sortKey doubles toLowerCase b = .number y → x.isInt ≠ y.isInt → x.rank doubles < y.rank doubles →
    units (x.text doubles) < units (y.text doubles)
  between : ∀ a ∈ items, ∀ b ∈ items, ∀ c ∈ items, ∀ x y s, column.sortKey doubles toLowerCase a = .number x →
    column.sortKey doubles toLowerCase b = .number y → column.sortKey doubles toLowerCase c = .text s →
    x.isInt = y.isInt → x.rank doubles < y.rank doubles →
    ¬ (units (y.text doubles) ≤ units s ∧ units s ≤ units (x.text doubles))

end Order

end Portix.Kubernetes
