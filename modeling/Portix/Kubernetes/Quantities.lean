import Portix.Kubernetes.KubeLogs
import Portix.Lib.Decimals

/-!
# Quantities

`parseCpu`, `parseBytes` and `parseTopNodes` of `kube_resources.dart`, and the quantities of Kubernetes. Numbers are
rational here.
-/

namespace Portix.Kubernetes

open Lib

def hasEnd (ending text : String) : Bool := ending.toList.isSuffixOf text.toList

def dropEnd (count : Nat) (text : String) : String := String.ofList (text.toList.take (text.toList.length - count))

def parseCpu (quantity : String) : ℚ :=
  if hasEnd "m" quantity then (doubleTryParse (dropEnd 1 quantity)).getD 0 / 1000
  else (doubleTryParse quantity).getD 0

def byteUnits : List (String × Nat) :=
  [("Ki", 1024), ("Mi", 1024 * 1024), ("Gi", 1024 * 1024 * 1024), ("Ti", 1024 * 1024 * 1024 * 1024),
    ("K", 1000), ("M", 1000 * 1000), ("G", 1000 * 1000 * 1000), ("T", 1000 * 1000 * 1000 * 1000)]

def parseBytes (quantity : String) : ℚ :=
  match byteUnits.find? fun entry => hasEnd entry.1 quantity with
  | some (unit, factor) => (doubleTryParse (dropEnd unit.toList.length quantity)).getD 0 * factor
  | none => (doubleTryParse quantity).getD 0

/-- The sums, and the count of the rows, after a line of `parseTopNodes`. -/
def addLine (sums : ℚ × ℚ × Nat) (line : String) : ℚ × ℚ × Nat :=
  match columns line with
  | _ :: cpu :: _ :: memory :: _ :: _ => (sums.1 + parseCpu cpu, sums.2.1 + parseBytes memory, sums.2.2 + 1)
  | _ => sums

def parseTopNodes (output : String) : Option (ℚ × ℚ) :=
  let sums := (splitChar '\n' output).foldl addLine (0, 0, 0)
  if sums.2.2 = 0 then none else some (sums.1, sums.2.1)

def suffixes : List (String × Nat × ℤ) :=
  [("n", 10, -9), ("u", 10, -6), ("m", 10, -3), ("", 10, 0), ("k", 10, 3), ("M", 10, 6), ("G", 10, 9), ("T", 10, 12),
    ("P", 10, 15), ("E", 10, 18), ("Ki", 2, 10), ("Mi", 2, 20), ("Gi", 2, 30), ("Ti", 2, 40), ("Pi", 2, 50),
    ("Ei", 2, 60)]

inductive Suffix where
  | unit (text : String) (base : Nat) (power : ℤ) (h : (text, base, power) ∈ suffixes)
  | exponent (e : Exponent)

def Suffix.chars : Suffix → List Char
  | .unit text _ _ _ => text.toList
  | .exponent e => e.chars

def Suffix.factor : Suffix → ℚ
  | .unit _ base power _ => (base : ℚ) ^ power
  | .exponent e => 10 ^ e.value

structure Quantity where
  number : Decimal
  suffix : Suffix

namespace Quantity

variable (q : Quantity)

def text : String := String.ofList (q.number.chars ++ q.suffix.chars)

def value : ℚ := q.number.value * q.suffix.factor

/-- The suffix is one of some, or an exponent, or the quantity is zero. -/
def HasSuffix (known : List String) : Prop :=
  q.number.value = 0 ∨ match q.suffix with
    | .unit text _ _ _ => text ∈ known
    | .exponent _ => True

def CpuRead : Prop := q.HasSuffix ["", "m"]

def BytesRead : Prop := q.HasSuffix ["", "Ki", "Mi", "Gi", "Ti", "M", "G", "T"]

end Quantity

structure Word where
  chars : List Char
  nonempty : chars ≠ []
  unspaced : ∀ c ∈ chars, isDartWhitespace c = false

structure TopRow where
  name : Word
  cpu : Quantity
  cpuShare : Word
  memory : Quantity
  memoryShare : Word
  padding : Fin 5 → Nat

def gap (n : Nat) : List Char := List.replicate (n + 1) ' '

def TopRow.cells (row : TopRow) : List (List Char × Nat) :=
  [(row.name.chars, row.padding 0), (row.cpu.text.toList, row.padding 1), (row.cpuShare.chars, row.padding 2),
    (row.memory.text.toList, row.padding 3)]

def TopRow.chars (row : TopRow) : List Char :=
  row.cells.flatMap (fun cell => cell.1 ++ gap cell.2) ++ row.memoryShare.chars ++ List.replicate (row.padding 4) ' '

def topOutput (rows : List TopRow) : String := String.ofList (rows.flatMap fun row => row.chars ++ ['\n'])

end Portix.Kubernetes
