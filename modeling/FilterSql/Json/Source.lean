/-!
# JSON as written

The first of two steps in reading JSON: a text becomes the tree of its productions, in which
numbers keep their digits, strings their escapes and objects every member, repeated or not. What
the tree stands for is settled by `Json.ofSource?`; readers that pass over parts of a text need no
more than the tree. The reader works on what is left of the text and never reads a character twice,
so the length of the text bounds its steps.
-/

namespace FilterSql.Json

/-- A number as written: sign, digits before the point, digits after it, and the exponent with its
sign. -/
structure NumberText where
  negative : Bool
  whole : List Char
  fraction : Option (List Char)
  exponent : Option (Bool × List Char)
  deriving DecidableEq

/-- A JSON text as written. The characters of strings and member names still hold their
escapes. -/
inductive Source where
  | null
  | bool (value : Bool)
  | number (text : NumberText)
  | string (escaped : List Char)
  | array (items : List Source)
  | object (members : List (List Char × Source))

namespace Source

/-- Whether a character may stand between tokens. -/
def isSpace (c : Char) : Bool :=
  c = ' ' || c = '\n' || c = '\r' || c = '\t'

/-- A text without the white space it starts with. -/
def skip (s : List Char) : List Char :=
  s.dropWhile isSpace

/-- Whether a character is a hexadecimal digit. -/
def isHex (c : Char) : Bool :=
  c.isDigit || ('a' ≤ c && c ≤ 'f') || ('A' ≤ c && c ≤ 'F')

/-- The text behind an expected head. -/
def literal? : List Char → List Char → Option (List Char)
  | [], s => some s
  | c :: cs, d :: s => if c = d then literal? cs s else none
  | _ :: _, [] => none

/-- At least one digit. -/
def digits? (s : List Char) : Option (List Char × List Char) :=
  match s.takeWhile Char.isDigit with
  | [] => none
  | run => some (run, s.dropWhile Char.isDigit)

/-- The digits before the point: a single zero, or digits that start with another one. -/
def whole? : List Char → Option (List Char × List Char)
  | '0' :: s => some (['0'], s)
  | s => digits? s

/-- The digits after the point, if there is one. -/
def fraction? : List Char → Option (Option (List Char) × List Char)
  | '.' :: s => (digits? s).map fun (run, rest) => (some run, rest)
  | s => some (none, s)

/-- The exponent, if there is one: whether it is negative, and its digits. -/
def exponent? : List Char → Option (Option (Bool × List Char) × List Char)
  | c :: s =>
    if c = 'e' || c = 'E' then
      let (negative, s) :=
        match s with
        | '+' :: s => (false, s)
        | '-' :: s => (true, s)
        | s => (false, s)
      (digits? s).map fun (run, rest) => (some (negative, run), rest)
    else some (none, c :: s)
  | [] => some (none, [])

/-- A number. -/
def number? (s : List Char) : Option (NumberText × List Char) := do
  let (negative, s) :=
    match s with
    | '-' :: s => (true, s)
    | s => (false, s)
  let (whole, s) ← whole? s
  let (fraction, s) ← fraction? s
  let (exponent, s) ← exponent? s
  return (⟨negative, whole, fraction, exponent⟩, s)

/-- The escaped characters of a string up to its closing quote, with the text behind it. -/
def string? : List Char → Option (List Char × List Char)
  | '"' :: s => some ([], s)
  | '\\' :: 'u' :: a :: b :: c :: d :: s =>
    if isHex a && isHex b && isHex c && isHex d then
      (string? s).map fun (run, rest) => ('\\' :: 'u' :: a :: b :: c :: d :: run, rest)
    else none
  | '\\' :: c :: s =>
    if ['"', '\\', '/', 'b', 'f', 'n', 'r', 't'].contains c then
      (string? s).map fun (run, rest) => ('\\' :: c :: run, rest)
    else none
  | c :: s =>
    if c = '\\' || c.toNat < 0x20 then none
    else (string? s).map fun (run, rest) => (c :: run, rest)
  | [] => none

mutual

/-- A value at the head of the text, in at most `fuel` nested steps. -/
def value? : Nat → List Char → Option (Source × List Char)
  | 0, _ => none
  | fuel + 1, s =>
    match s with
    | '"' :: s => (string? s).map fun (run, rest) => (.string run, rest)
    | '[' :: s =>
      match skip s with
      | ']' :: rest => some (.array [], rest)
      | s => (items? fuel s).map fun (items, rest) => (.array items, rest)
    | '{' :: s =>
      match skip s with
      | '}' :: rest => some (.object [], rest)
      | s => (members? fuel s).map fun (members, rest) => (.object members, rest)
    | 'n' :: s => (literal? ['u', 'l', 'l'] s).map fun rest => (.null, rest)
    | 't' :: s => (literal? ['r', 'u', 'e'] s).map fun rest => (.bool true, rest)
    | 'f' :: s => (literal? ['a', 'l', 's', 'e'] s).map fun rest => (.bool false, rest)
    | s => (number? s).map fun (n, rest) => (.number n, rest)

/-- The items of an array from the first one to the closing bracket. -/
def items? : Nat → List Char → Option (List Source × List Char)
  | 0, _ => none
  | fuel + 1, s => do
    let (item, s) ← value? fuel s
    match skip s with
    | ']' :: rest => return ([item], rest)
    | ',' :: s =>
      let (items, rest) ← items? fuel (skip s)
      return (item :: items, rest)
    | _ => none

/-- The members of an object from the first name to the closing brace. -/
def members? : Nat → List Char → Option (List (List Char × Source) × List Char)
  | 0, _ => none
  | fuel + 1, s => do
    let (name, s) ← string? (← literal? ['"'] s)
    let (value, s) ← value? fuel (skip (← literal? [':'] (skip s)))
    match skip s with
    | '}' :: rest => return ([(name, value)], rest)
    | ',' :: s =>
      let (members, rest) ← members? fuel (skip s)
      return ((name, value) :: members, rest)
    | _ => none

end

/-- The tree of a text that holds one value and white space around it. -/
def read? (text : List Char) : Option Source := do
  let (value, rest) ← value? (text.length + 1) (skip text)
  if (skip rest).isEmpty then some value else none

end Source

end FilterSql.Json
