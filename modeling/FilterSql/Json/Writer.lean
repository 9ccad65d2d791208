import FilterSql.Binary64.Shortest
import FilterSql.Json.Basic
import FilterSql.Text.Blank

/-!
# Writing JSON

Compact JSON text. A string escapes the quote, the backslash and the characters below the space; a
number is written with the fewest digits that read back to it, always with a point or an exponent,
in plain notation from 1e-5 up to below 1e16. What is not finite is written as `null`.
-/

namespace FilterSql.Json

/-- A hexadecimal digit, in lower case. -/
def hexDigit (n : Nat) : Char :=
  Char.ofNat (if n < 10 then '0'.toNat + n else 'a'.toNat + (n - 10))

/-- A character inside a string. -/
def escapeChar (c : Char) : List Char :=
  if c = '"' then ['\\', '"']
  else if c = '\\' then ['\\', '\\']
  else if c = '\n' then ['\\', 'n']
  else if c = '\r' then ['\\', 'r']
  else if c = '\t' then ['\\', 't']
  else if c.toNat = 8 then ['\\', 'b']
  else if c.toNat = 12 then ['\\', 'f']
  else if c.toNat < 0x20 then
    ['\\', 'u', '0', '0', hexDigit (c.toNat / 16), hexDigit (c.toNat % 16)]
  else [c]

/-- The characters of a string with its escapes. -/
def escape (s : List Char) : List Char :=
  s.flatMap escapeChar

/-- A string in quotes. -/
def quoted (s : String) : String :=
  "\"" ++ String.ofList (escape s.toList) ++ "\""

/-- The digits of a count. -/
def natText (n : Nat) : String :=
  String.ofList (Nat.toDigits 10 n)

/-- An integer. -/
def intText (n : Int) : String :=
  if n < 0 then "-" ++ natText n.natAbs else natText n.natAbs

/-- A run of zeros. -/
def zeros (n : Nat) : String :=
  String.ofList (List.replicate n '0')

/-- The layout of a positive decimal. Its point stands behind the digit with number
`point`. -/
def decimalText (d : Binary64.Decimal) : String :=
  let digits := Nat.toDigits 10 d.digits
  let point : Int := digits.length + d.scale
  if 0 ≤ d.scale ∧ point ≤ 16 then String.ofList digits ++ zeros d.scale.toNat ++ ".0"
  else if 0 < point ∧ point ≤ 16 then
    String.ofList (digits.take point.toNat) ++ "." ++ String.ofList (digits.drop point.toNat)
  else if -5 < point ∧ point ≤ 0 then "0." ++ zeros (-point).toNat ++ String.ofList digits
  else
    let exponent := point - 1
    let exponentText := (if exponent < 0 then "e-" else "e+") ++ natText exponent.natAbs
    match digits with
    | [] => ""
    | [d] => String.ofList [d] ++ exponentText
    | d :: rest => String.ofList [d] ++ "." ++ String.ofList rest ++ exponentText

/-- A floating-point number. -/
def floatText (x : Binary64) : String :=
  if !x.isFinite then "null"
  else
    (if x.negative then "-" else "") ++
      (if x.isZero then "0.0" else decimalText x.shortest)

mutual

/-- The compact text of a value. -/
def text : Json → String
  | .null => "null"
  | .bool b => if b then "true" else "false"
  | .int n => intText n
  | .float x => floatText x
  | .string s => quoted s
  | .array items => "[" ++ Text.join "," (itemTexts items) ++ "]"
  | .object members => "\x7b" ++ Text.join "," (memberTexts members) ++ "\x7d"

/-- The texts of the items of an array. -/
def itemTexts : List Json → List String
  | [] => []
  | item :: rest => item.text :: itemTexts rest

/-- The texts of the members of an object. -/
def memberTexts : List (String × Json) → List String
  | [] => []
  | (name, value) :: rest => (quoted name ++ ":" ++ value.text) :: memberTexts rest

end

/-- The escape of a 16-bit unit. -/
def unitText (n : Nat) : String :=
  let digits := Nat.toDigits 16 n
  "\\u" ++ zeros (4 - digits.length) ++ String.ofList digits

/-- A character of a JSON text in ASCII: others than those stand in strings only, where they can be
escaped as one or two 16-bit units. -/
def asciiChar (c : Char) : String :=
  let n := c.toNat - 0x10000
  if c.toNat < 0x80 then c.toString
  else if c.toNat < 0x10000 then unitText c.toNat
  else unitText (0xD800 + n / 0x400) ++ unitText (0xDC00 + n % 0x400)

/-- The compact text of a value in ASCII. -/
def asciiText (value : Json) : String :=
  value.text.foldl (fun s c => s ++ asciiChar c) ""

end FilterSql.Json
