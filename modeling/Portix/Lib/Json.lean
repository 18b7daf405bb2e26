import Portix.Lib.Entries
import Portix.Lib.Integers

/-!
# JSON

Values, their text and the reading of a text, as `dart:convert` has them. A `double` is given by the
text that Dart prints for it; how a literal becomes that text is a parameter of the reader.
-/

namespace Portix.Lib

/-- A JSON value as Dart holds it. The keys of a map that was read are distinct. -/
inductive Json where
  | null
  | bool (value : Bool)
  | int (value : Int64)
  | double (text : String)
  | string (value : String)
  | list (items : List Json)
  | map (entries : List (String × Json))

abbrev JsonMap : Type := List (String × Json)

namespace Json

def get (entries : JsonMap) (key : String) : Json := (entries.lookup key).getD .null

def set (key : String) (value : Json) (entries : JsonMap) : JsonMap := putEntry key (fun _ => value) entries

mutual

def toText : Json → String
  | .null => "null"
  | .bool value => if value then "true" else "false"
  | .int value => intText value
  | .double text => text
  | .string value => value
  | .list items => "[" ++ textItems items ++ "]"
  | .map entries => "\x7b" ++ textEntries entries ++ "\x7d"

def textItems : List Json → String
  | [] => ""
  | [item] => item.toText
  | item :: rest => item.toText ++ ", " ++ textItems rest

def textEntries : JsonMap → String
  | [] => ""
  | [(key, value)] => key ++ ": " ++ value.toText
  | (key, value) :: rest => key ++ ": " ++ value.toText ++ ", " ++ textEntries rest

end

def toText? : Json → Option String
  | .null => none
  | value => some value.toText

def toTextOr (value : Json) (fallback : String) : String := value.toText?.getD fallback

def toIntOr (value : Json) (fallback : Int64) : Int64 :=
  (intTryParse (value.toTextOr "")).getD fallback

def isTrue : Json → Bool
  | .bool value => value
  | _ => false

def isString (text : String) : Json → Bool
  | .string value => value == text
  | _ => false

def enumValue {α : Type} (name : α → String) (values : List α) (value : Json) (fallback : α) : α :=
  (values.find? fun item => value.isString (name item)).getD fallback

def asList? : Json → Option (List Json)
  | .null => some []
  | .list items => some items
  | _ => none

def asString? : Json → Option (Option String)
  | .null => some none
  | .string value => some (some value)
  | _ => none

def asBool? : Json → Option (Option Bool)
  | .null => some none
  | .bool value => some (some value)
  | _ => none

def asMap? : Json → Option JsonMap
  | .map entries => some entries
  | _ => none

def ofString? : Option String → Json
  | none => .null
  | some value => .string value

def hexDigit (n : Nat) : Char := if n < 10 then Char.ofNat (48 + n) else Char.ofNat (87 + n)

def escape (c : Char) : List Char :=
  if c = '"' then ['\\', '"']
  else if c = '\\' then ['\\', '\\']
  else if c.toNat < 32 then
    if c.toNat = 8 then ['\\', 'b']
    else if c.toNat = 9 then ['\\', 't']
    else if c.toNat = 10 then ['\\', 'n']
    else if c.toNat = 12 then ['\\', 'f']
    else if c.toNat = 13 then ['\\', 'r']
    else ['\\', 'u', '0', '0', hexDigit (c.toNat / 16), hexDigit (c.toNat % 16)]
  else [c]

def quote (s : String) : List Char := '"' :: s.toList.flatMap escape ++ ['"']

def isSpace (c : Char) : Bool := c == ' ' || c == '\t' || c == '\n' || c == '\r'

/-- White space between the parts of a text: before an item at a depth, and after a colon. -/
structure Layout where
  lineBreak : Nat → List Char
  afterColon : List Char
  lineBreak_blank : ∀ depth, ∀ c ∈ lineBreak depth, isSpace c = true
  afterColon_blank : ∀ c ∈ afterColon, isSpace c = true

def compact : Layout where
  lineBreak := fun _ => []
  afterColon := []
  lineBreak_blank := by simp
  afterColon_blank := by simp

def indented : Layout where
  lineBreak := fun depth => '\n' :: List.replicate (2 * depth) ' '
  afterColon := [' ']
  lineBreak_blank := by simp [isSpace]
  afterColon_blank := by simp [isSpace]

mutual

def plain : Json → Bool
  | .double _ => false
  | .list items => plainItems items
  | .map entries => plainEntries entries && decide (entries.map Prod.fst).Nodup
  | _ => true

def plainItems : List Json → Bool
  | [] => true
  | item :: rest => item.plain && plainItems rest

def plainEntries : JsonMap → Bool
  | [] => true
  | (_, value) :: rest => value.plain && plainEntries rest

end

variable (layout : Layout)

mutual

def print (depth : Nat) : Json → List Char
  | .null => ['n', 'u', 'l', 'l']
  | .bool value => if value then ['t', 'r', 'u', 'e'] else ['f', 'a', 'l', 's', 'e']
  | .int value => intChars value
  | .double text => text.toList
  | .string value => quote value
  | .list items => match items with
    | [] => ['[', ']']
    | item :: rest => '[' :: layout.lineBreak (depth + 1) ++ print (depth + 1) item ++
      printItems (depth + 1) rest ++ layout.lineBreak depth ++ [']']
  | .map entries => match entries with
    | [] => ['\x7b', '\x7d']
    | (key, value) :: rest => '\x7b' :: layout.lineBreak (depth + 1) ++ quote key ++ ':' ::
      layout.afterColon ++ print (depth + 1) value ++ printEntries (depth + 1) rest ++
      layout.lineBreak depth ++ ['\x7d']

def printItems (depth : Nat) : List Json → List Char
  | [] => []
  | item :: rest => ',' :: layout.lineBreak depth ++ print depth item ++ printItems depth rest

def printEntries (depth : Nat) : JsonMap → List Char
  | [] => []
  | (key, value) :: rest => ',' :: layout.lineBreak depth ++ quote key ++ ':' ::
      layout.afterColon ++ print depth value ++ printEntries depth rest

end

def encode (value : Json) : String := String.ofList (print layout 0 value)

def skipSpace (cs : List Char) : List Char := cs.dropWhile isSpace

def expect (c : Char) : List Char → Option (List Char)
  | [] => none
  | d :: rest => if d = c then some rest else none

def expectAll : List Char → List Char → Option (List Char)
  | [], cs => some cs
  | c :: word, cs => (expect c cs).bind (expectAll word)

def unescape (c : Char) : Option Char :=
  if c = '"' ∨ c = '\\' ∨ c = '/' then some c
  else if c = 'b' then some (Char.ofNat 8)
  else if c = 'f' then some (Char.ofNat 12)
  else if c = 'n' then some '\n'
  else if c = 'r' then some '\r'
  else if c = 't' then some '\t'
  else none

def readUnit (cs : List Char) : Option (Nat × List Char) :=
  if cs.length < 4 then none else (hexText (cs.take 4) 0).map fun unit => (unit, cs.drop 4)

def readLow (cs : List Char) : Option (Nat × List Char) :=
  (expectAll ['\\', 'u'] cs).bind fun rest => (readUnit rest).bind fun r =>
    if 0xDC00 ≤ r.1 ∧ r.1 ≤ 0xDFFF then some r else none

/-- The character after a backslash. Half a character becomes a replacement character. -/
def readEscape : List Char → Option (Char × List Char)
  | [] => none
  | c :: rest =>
    if c = 'u' then (readUnit rest).map fun r =>
      if 0xD800 ≤ r.1 ∧ r.1 ≤ 0xDBFF then match readLow r.2 with
        | some low => (Char.ofNat (0x10000 + (r.1 - 0xD800) * 0x400 + (low.1 - 0xDC00)), low.2)
        | none => (replacement, r.2)
      else if 0xDC00 ≤ r.1 ∧ r.1 ≤ 0xDFFF then (replacement, r.2)
      else (Char.ofNat r.1, r.2)
    else (unescape c).map fun d => (d, rest)

def readChars : Nat → List Char → Option (List Char × List Char)
  | 0, _ => none
  | _ + 1, [] => none
  | fuel + 1, c :: rest =>
    if c = '"' then some ([], rest)
    else if c = '\\' then (readEscape rest).bind fun r =>
      (readChars fuel r.2).map fun r' => (r.1 :: r'.1, r'.2)
    else if c.toNat < 32 then none
    else (readChars fuel rest).map fun r => (c :: r.1, r.2)

def readString (cs : List Char) : Option (String × List Char) :=
  (readChars (cs.length + 1) cs).map fun r => (String.ofList r.1, r.2)

def skipDigits (cs : List Char) : Option (List Char) :=
  if cs.takeWhile Char.isDigit = [] then none else some (cs.dropWhile Char.isDigit)

def skipFraction (cs : List Char) : Option (List Char) :=
  match expect '.' cs with
  | some rest => skipDigits rest
  | none => some cs

def skipExponent (cs : List Char) : Option (List Char) :=
  match (expect 'e' cs).or (expect 'E' cs) with
  | some rest => skipDigits (((expect '-' rest).or (expect '+' rest)).getD rest)
  | none => some cs

variable (readDouble : String → String)

def readNumber (cs : List Char) : Option (Json × List Char) :=
  let unsigned := (expect '-' cs).getD cs
  let digits := unsigned.takeWhile Char.isDigit
  let rest := unsigned.dropWhile Char.isDigit
  if digits = [] ∨ (digits.head? = some '0' ∧ digits.length ≠ 1) then none
  else ((skipFraction rest).bind skipExponent).map fun rest' =>
    let double := Json.double (readDouble (String.ofList (cs.take (cs.length - rest'.length))))
    if rest'.length = rest.length then
      (((signedValue (expect '-' cs).isSome digits).map Json.int).getD double, rest')
    else (double, rest')

def readScalar (cs : List Char) : Option (Json × List Char) :=
  match expectAll ['n', 'u', 'l', 'l'] cs with
  | some rest => some (.null, rest)
  | none => match expectAll ['t', 'r', 'u', 'e'] cs with
    | some rest => some (.bool true, rest)
    | none => match expectAll ['f', 'a', 'l', 's', 'e'] cs with
      | some rest => some (.bool false, rest)
      | none => readNumber readDouble cs

mutual

def readValue : Nat → List Char → Option (Json × List Char)
  | 0, _ => none
  | fuel + 1, cs => match expect '"' cs with
    | some rest => (readString rest).map fun r => (.string r.1, r.2)
    | none => match expect '[' cs with
      | some rest => match expect ']' (skipSpace rest) with
        | some rest' => some (.list [], rest')
        | none => (readItems fuel (skipSpace rest)).map fun r => (.list r.1, r.2)
      | none => match expect '\x7b' cs with
        | some rest => match expect '\x7d' (skipSpace rest) with
          | some rest' => some (.map [], rest')
          | none => (readEntries fuel [] (skipSpace rest)).map fun r => (.map r.1, r.2)
        | none => readScalar readDouble cs

def readItems : Nat → List Char → Option (List Json × List Char)
  | 0, _ => none
  | fuel + 1, cs => (readValue fuel cs).bind fun r => match expect ',' (skipSpace r.2) with
    | some rest => (readItems fuel (skipSpace rest)).map fun r' => (r.1 :: r'.1, r'.2)
    | none => (expect ']' (skipSpace r.2)).map fun rest => ([r.1], rest)

/-- The entries of a map, from the first one on to the closing brace. A key that comes again gets the
later value. -/
def readEntries : Nat → JsonMap → List Char → Option (JsonMap × List Char)
  | 0, _, _ => none
  | fuel + 1, entries, cs => (expect '"' cs).bind fun rest => (readString rest).bind fun key =>
    (expect ':' (skipSpace key.2)).bind fun rest' => (readValue fuel (skipSpace rest')).bind fun r =>
      match expect ',' (skipSpace r.2) with
      | some rest'' => readEntries fuel (set key.1 r.1 entries) (skipSpace rest'')
      | none => (expect '\x7d' (skipSpace r.2)).map fun rest'' => (set key.1 r.1 entries, rest'')

end

def decode (source : String) : Option Json :=
  (readValue readDouble (source.toList.length + 1) (skipSpace source.toList)).bind fun r =>
    if skipSpace r.2 = [] then some r.1 else none

end Json

end Portix.Lib

-- `jsonEncode` throws at a double that has no decimal text: JSON has no infinity.

namespace Portix.Lib.Json

def isNumeralChar (c : Char) : Bool := c.isDigit || c == '-' || c == '+' || c == '.' || c == 'e'

/-- The text of a finite double (`double.toString`): a number with a point or an exponent. -/
def isDoubleText (text : String) : Bool :=
  text.toList.all isNumeralChar && text.toList.any (fun c => c == '.' || c == 'e') &&
    text.toList.head?.any fun c => c == '-' || c.isDigit

mutual

def encodable : Json → Bool
  | .double text => isDoubleText text
  | .list items => encodableItems items
  | .map entries => encodableEntries entries
  | _ => true

def encodableItems : List Json → Bool
  | [] => true
  | item :: rest => item.encodable && encodableItems rest

def encodableEntries : JsonMap → Bool
  | [] => true
  | (_, value) :: rest => value.encodable && encodableEntries rest

end

def jsonEncode (value : Json) : Option String := if value.encodable then some (encode compact value) else none

end Portix.Lib.Json
