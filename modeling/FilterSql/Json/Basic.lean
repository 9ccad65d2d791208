import FilterSql.Binary64.Round
import FilterSql.Json.Source

/-!
# JSON values

The value a JSON text stands for. Integers are kept apart from floating-point numbers: a literal
without fraction and exponent is an integer if it fits 64 bits, signed when it has a minus sign and
unsigned when it has none, and the nearest binary64 number otherwise, `-0` included. Objects keep
the order of their members; a repeated name keeps its first place and takes its last value.
`Json.read?` refuses texts that nest more than 127 arrays and objects, unpaired surrogates and
numbers beyond the range of binary64.
-/

namespace FilterSql

/-- A JSON value. -/
inductive Json where
  | null
  | bool (value : Bool)
  | int (value : Int)
  | float (value : Binary64)
  | string (value : String)
  | array (items : List Json)
  | object (members : List (String × Json))

namespace Json

instance : Inhabited Json := ⟨.null⟩

/-- The number that a list of decimal digits writes. -/
def decimalValue (digits : List Char) : Nat :=
  digits.foldl (fun n c => 10 * n + (c.toNat - '0'.toNat)) 0

/-- The value of a hexadecimal digit. -/
def hexValue (c : Char) : Nat :=
  if c.isDigit then c.toNat - '0'.toNat
  else if 'a' ≤ c then c.toNat - 'a'.toNat + 10
  else c.toNat - 'A'.toNat + 10

/-- The number that a list of hexadecimal digits writes. -/
def hexNumber (digits : List Char) : Nat :=
  digits.foldl (fun n c => 16 * n + hexValue c) 0

namespace NumberText

/-- The digits of a number without its point. -/
def significant (n : NumberText) : Nat :=
  decimalValue (n.whole ++ n.fraction.getD [])

/-- The power of ten that goes with the digits. -/
def scale (n : NumberText) : Int :=
  let written : Int :=
    match n.exponent with
    | none => 0
    | some (true, digits) => -(decimalValue digits : Int)
    | some (false, digits) => decimalValue digits
  written - ((n.fraction.getD []).length : Int)

/-- Whether a number is written without fraction and exponent. -/
def isInteger (n : NumberText) : Bool :=
  n.fraction.isNone && n.exponent.isNone

/-- The value of a number as the nearest binary64 number, if it does not overflow. -/
def toFloat? (n : NumberText) : Option Json :=
  let x := Binary64.ofDecimal n.negative n.significant n.scale
  if x.isFinite then some (.float x) else none

/-- The value of a number. -/
def toJson? (n : NumberText) : Option Json :=
  let digits := n.significant
  if !n.isInteger then n.toFloat?
  else if n.negative then
    if digits = 0 || -(digits : Int) < Int64.minValue.toInt then n.toFloat?
    else some (.int (-(digits : Int)))
  else if digits < UInt64.size then some (.int digits)
  else n.toFloat?

end NumberText

/-- The character that a one-letter escape stands for. -/
def escapedChar (c : Char) : Char :=
  if c = 'b' then Char.ofNat 8
  else if c = 'f' then Char.ofNat 12
  else if c = 'n' then '\n'
  else if c = 'r' then '\r'
  else if c = 't' then '\t'
  else c

/-- Whether a 16-bit unit is the first of a surrogate pair. -/
def isHighSurrogate (n : Nat) : Bool :=
  0xD800 ≤ n && n < 0xDC00

/-- Whether a 16-bit unit is the second of a surrogate pair. -/
def isLowSurrogate (n : Nat) : Bool :=
  0xDC00 ≤ n && n < 0xE000

/-- The characters that the escaped characters of a string stand for, if every surrogate is
paired. -/
def unescape? : List Char → Option (List Char)
  | [] => some []
  | '\\' :: 'u' :: a :: b :: c :: d :: s =>
    let unit := hexNumber [a, b, c, d]
    if isHighSurrogate unit then
      match s with
      | '\\' :: 'u' :: a' :: b' :: c' :: d' :: rest =>
        let low := hexNumber [a', b', c', d']
        if isLowSurrogate low then
          (unescape? rest).map (Char.ofNat (0x10000 + (unit - 0xD800) * 0x400 + (low - 0xDC00)) :: ·)
        else none
      | _ => none
    else if isLowSurrogate unit then none
    else (unescape? s).map (Char.ofNat unit :: ·)
  | '\\' :: c :: s => (unescape? s).map (escapedChar c :: ·)
  | c :: s => (unescape? s).map (c :: ·)

/-- The string that the escaped characters of a string stand for. -/
def stringOf? (escaped : List Char) : Option String :=
  (unescape? escaped).map String.ofList

/-- The members with a name bound to a value: in its old place, or at the end. -/
def put (name : String) (value : Json) : List (String × Json) → List (String × Json)
  | [] => [(name, value)]
  | member :: rest =>
    if member.1 = name then (name, value) :: rest else member :: put name value rest

mutual

/-- The value of a text as written, if it nests at most `depth` arrays and objects. -/
def ofSource? (depth : Nat) : Source → Option Json
  | .null => some .null
  | .bool b => some (.bool b)
  | .number n => n.toJson?
  | .string escaped => (stringOf? escaped).map .string
  | .array items =>
    match depth with
    | 0 => none
    | depth + 1 => (ofItems? depth items).map .array
  | .object members =>
    match depth with
    | 0 => none
    | depth + 1 => (ofMembers? depth [] members).map .object

/-- The values of the items of an array. -/
def ofItems? (depth : Nat) : List Source → Option (List Json)
  | [] => some []
  | item :: rest => do return (← ofSource? depth item) :: (← ofItems? depth rest)

/-- The members of an object, put one by one to those read before. -/
def ofMembers? (depth : Nat) (read : List (String × Json)) :
    List (List Char × Source) → Option (List (String × Json))
  | [] => some read
  | (name, value) :: rest => do
    let name ← stringOf? name
    ofMembers? depth (put name (← ofSource? depth value) read) rest

end

/-- The nesting that a text may have. -/
def maxDepth : Nat := 127

/-- The value of a JSON text. -/
def read? (text : String) : Option Json := do
  ofSource? maxDepth (← Source.read? text.toList)

/-- The value of a member of an object. -/
def member? (name : String) (members : List (String × Json)) : Option Json :=
  (members.find? (·.1 = name)).map (·.2)

end Json

end FilterSql
