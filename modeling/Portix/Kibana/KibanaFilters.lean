import Portix.Kibana.KibanaPage
import Portix.Lib.Lucene

/-!
# What filters should select

The text of a search is read as a query of Lucene.
-/

namespace Portix.Kibana

open Lib Lucene

variable {ν δ : Type} (docs : Documents δ)

/-- The documents that a text selects: all, if it is blank. -/
def Selects (text : String) (d : δ) : Prop :=
  dartTrim text = "" ∨ ∃ items, read text = some items ∧ combine (meanings docs d items)

def HoldsValue (field : String) (d : δ) : ValueText → Prop
  | .one text => docs.holds field text d
  | .many texts => ∃ text ∈ texts, docs.holds field text d

variable (valueText : ν → ValueText) (filter : KibanaFilter ν)

/-- The field is the value of the filter; without a value it is missing. -/
def Matches (d : δ) : Prop :=
  match filter.value with
  | none => ¬docs.has filter.field d
  | some value => HoldsValue docs filter.field d (valueText value)

def Satisfies (d : δ) : Prop :=
  if filter.exclude then ¬Matches docs valueText filter d else Matches docs valueText filter d

def valueTokens : ValueText → List Token
  | .one text => [.atom (.phrase text)]
  | .many texts =>
    .lparen :: List.intercalate [.conj .or] (texts.map fun text => [.atom (.phrase text)]) ++ [.rparen]

def clauseTokens (letters : List Letter) : List Token :=
  match filter.value with
  | none =>
    (if filter.exclude then [] else [.sign .prohibited]) ++
      [.atom (.word (plain "_exists_")), .colon, .atom (.word letters)]
  | some value =>
    (if filter.exclude then [.sign .prohibited] else []) ++
      .atom (.word letters) :: .colon :: valueTokens (valueText value)

/-- The clause of a filter is one name of a field and phrases, which are the field and the values that are given.
`_exists_` is not the name of a field that has a value. -/
def Lexes : Prop :=
  (filter.value.isSome → filter.field ≠ "_exists_") ∧ ∃ letters, textOf letters = filter.field ∧
    lex (kibanaClause valueText filter) = some (clauseTokens valueText filter letters)

/-- The text of a query and filters selects what the query does, as far as it satisfies every filter. -/
structure Restricts (valueText : ν → ValueText) (query : String) (filters : List (KibanaFilter ν)) : Prop where
  parses : dartTrim (kibanaQueryWith valueText query filters) = "" ∨
    (read (kibanaQueryWith valueText query filters)).isSome
  selects : ∀ (δ : Type) (docs : Documents δ) (d : δ), Selects docs (kibanaQueryWith valueText query filters) d ↔
    Selects docs query d ∧ ∀ filter ∈ filters, Satisfies docs valueText filter d
  lexes : ∀ filter ∈ filters, Lexes valueText filter

/-- A query that selects the same without the white space around it. -/
def TrimKeeps (query : String) : Prop :=
  dartTrim query = "" ∨ ((read (dartTrim query)).isSome ∧
    ∀ (δ : Type) (docs : Documents δ) (d : δ), Selects docs (dartTrim query) d ↔ Selects docs query d)

/-- A filter that a query of Lucene can express: `luceneSpecial` has all that its field needs escaped, and a list has a
value. -/
structure Expressible (valueText : ν → ValueText) (filter : KibanaFilter ν) : Prop where
  nonempty : filter.field ≠ ""
  operator : filter.field ∉ ["AND", "OR", "NOT"]
  spaces : ∀ c ∈ filter.field.toList, isSpace c = true → c = ' '
  names : filter.value.isSome → filter.field ≠ "_exists_"
  values : ∀ value, filter.value = some value → ∀ texts, valueText value = .many texts → texts ≠ []

end Portix.Kibana
