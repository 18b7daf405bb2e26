import Portix.Lib.Regex

/-!
# Removing what an expression matches

`replaceAll` with nothing: the text is searched from its start for matches, each is removed, and the search goes on
after it. What this makes of a text and of its parts, where the expression does not look beyond its matches.
-/

namespace Portix.Lib.Regex

def firstMatch (r : Regex) (text : List Char) : Option (List Char) := (outcomes r text).head?.map Prod.fst

def found (r : Regex) (text : List Char) : Option (List Char) :=
  (firstMatch r text).filter fun rest => decide (rest.length < text.length)

theorem length_of_found {r : Regex} {text rest : List Char} (h : found r text = some rest) :
    rest.length < text.length := of_decide_eq_true (Option.filter_eq_some_iff.mp h).2

def removeAll (r : Regex) : List Char → List Char
  | [] => []
  | c :: cs => match _h : found r (c :: cs) with
    | some rest => removeAll r rest
    | none => c :: removeAll r cs
termination_by text => text.length
decreasing_by
  · exact length_of_found _h
  · exact Nat.lt_succ_self _

/-- The search for matches in a text comes to stand at the start of the rest. -/
inductive Scans (r : Regex) : List Char → List Char → Prop where
  | here (text : List Char) : Scans r text text
  | kept {c : Char} {cs rest : List Char} (hnone : found r (c :: cs) = none) (hrest : Scans r cs rest) :
      Scans r (c :: cs) rest
  | past {text after rest : List Char} (hfound : found r text = some after) (hrest : Scans r after rest) :
      Scans r text rest

/-- What is matched in the first part of a text does not depend on the second, as long as it is in the first. -/
structure Local (r : Regex) : Prop where
  of_some : ∀ s y rest, firstMatch r (s ++ y) = some (rest ++ y) → firstMatch r s = some rest
  of_none : ∀ s y, firstMatch r (s ++ y) = none → firstMatch r s = none

/-- The expression matches the text but for the rest. -/
def Takes (r : Regex) (text rest : List Char) : Prop := ∃ part captures, text = part ++ rest ∧ Matches r part captures

/-- No match is the start of another. -/
def Decides (r : Regex) : Prop := ∀ text rest rest', Takes r text rest → Takes r text rest' → rest = rest'

end Portix.Lib.Regex
