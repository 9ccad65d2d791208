import FilterSql.Json.Basic

/-!
# The tokens of TOML

White space, comments, strings, keys and the bare scalars of TOML 1.1. Each reader takes the text
from where it stands and gives what it has read together with the text behind it.
-/

namespace FilterSql.Toml

/-- Whether a character may stand between the tokens of a line. -/
def isSpace (c : Char) : Bool :=
  c = ' ' || c = '\t'

/-- A text without the white space it starts with. -/
def skipSpace (s : List Char) : List Char :=
  s.dropWhile isSpace

/-- Whether a character may stand in comments and strings: none of the control characters but the
tab. -/
def isPlain (c : Char) : Bool :=
  c = '\t' || (0x20 ≤ c.toNat && c.toNat != 0x7F)

/-- The text behind the end of a line. -/
def newline? : List Char → Option (List Char)
  | '\n' :: s => some s
  | '\r' :: '\n' :: s => some s
  | _ => none

/-- A text without the comment it starts with. -/
def skipComment : List Char → List Char
  | '#' :: s => s.dropWhile isPlain
  | s => s

/-- The text behind the rest of a line that holds no more than white space and a comment. -/
def endOfLine? (s : List Char) : Option (List Char) :=
  match skipComment (skipSpace s) with
  | [] => some []
  | s => newline? s

/-- A text without white space, comments and line ends in front, at most `fuel` of them. -/
def skipLines : Nat → List Char → List Char
  | 0, s => s
  | fuel + 1, s =>
    let s := skipSpace s
    match skipComment s, newline? (skipComment s) with
    | _, some rest => skipLines fuel rest
    | [], none => []
    | _, none => s

/-- A text without white space, comments and line ends in front. -/
def skipBlank (s : List Char) : List Char :=
  skipLines s.length s

/-! ## Strings -/

/-- The character with a number in hexadecimal digits, if there is one. -/
def scalar? (digits : List Char) : Option Char :=
  let n := Json.hexNumber digits
  if digits.all Json.Source.isHex && (n < 0xD800 || (0xDFFF < n && n < 0x110000)) then
    some (Char.ofNat n)
  else none

/-- The character of an escape behind the backslash. -/
def escaped? : List Char → Option (Char × List Char)
  | 'b' :: s => some ('\x08', s)
  | 't' :: s => some ('\t', s)
  | 'n' :: s => some ('\n', s)
  | 'f' :: s => some ('\x0c', s)
  | 'r' :: s => some ('\r', s)
  | 'e' :: s => some ('\x1b', s)
  | '"' :: s => some ('"', s)
  | '\\' :: s => some ('\\', s)
  | 'x' :: a :: b :: s => (scalar? [a, b]).map (·, s)
  | 'u' :: a :: b :: c :: d :: s => (scalar? [a, b, c, d]).map (·, s)
  | 'U' :: a :: b :: c :: d :: e :: f :: g :: h :: s =>
    (scalar? [a, b, c, d, e, f, g, h]).map (·, s)
  | _ => none

/-- A string of one line with escapes, from behind the opening quote, in at most `fuel`
characters. -/
def basic? : Nat → List Char → Option (List Char × List Char)
  | 0, _ => none
  | fuel + 1, s =>
    match s with
    | '"' :: rest => some ([], rest)
    | '\\' :: rest => do
      let (c, rest) ← escaped? rest
      let (run, rest) ← basic? fuel rest
      return (c :: run, rest)
    | c :: rest =>
      if isPlain c then (basic? fuel rest).map fun (run, rest) => (c :: run, rest) else none
    | [] => none

/-- A string of one line without escapes, from behind the opening quote. -/
def literal? (s : List Char) : Option (List Char × List Char) :=
  let isText := fun c => isPlain c && c != '\''
  match s.dropWhile isText with
  | '\'' :: rest => some (s.takeWhile isText, rest)
  | _ => none

/-- The end of a string of several lines: three quotes, before which up to two more belong to the
string. -/
def closing? (quote : Char) (s : List Char) : Option (List Char × List Char) :=
  let quotes := s.takeWhile (· = quote)
  if quotes.length < 3 then none
  else
    let inside := min (quotes.length - 3) 2
    some (List.replicate inside quote, s.drop (inside + 3))

/-- The text behind a line end that is escaped, and behind all white space that follows. -/
def continued? (s : List Char) : Option (List Char) :=
  (newline? (skipSpace s)).map fun rest =>
    rest.dropWhile fun c => isSpace c || c = '\n' || c = '\r'

/-- A string of several lines up to its closing quotes, with or without escapes, in at most `fuel`
characters. -/
def lines? (quote : Char) (escapes : Bool) : Nat → List Char → Option (List Char × List Char)
  | 0, _ => none
  | fuel + 1, s =>
    match closing? quote s with
    | some closed => some closed
    | none =>
      match s with
      | '\r' :: '\n' :: rest =>
        (lines? quote escapes fuel rest).map fun (run, rest) => ('\r' :: '\n' :: run, rest)
      | '\n' :: rest => (lines? quote escapes fuel rest).map fun (run, rest) => ('\n' :: run, rest)
      | c :: rest =>
        if c = '\\' && escapes then
          match continued? rest with
          | some rest => lines? quote escapes fuel rest
          | none => do
            let (c, rest) ← escaped? rest
            let (run, rest) ← lines? quote escapes fuel rest
            return (c :: run, rest)
        else if isPlain c then
          (lines? quote escapes fuel rest).map fun (run, rest) => (c :: run, rest)
        else none
      | [] => none

/-- A string of several lines from behind its opening quotes. A line end that follows them is no
part of it. -/
def manyLines? (quote : Char) (escapes : Bool) (s : List Char) :
    Option (List Char × List Char) :=
  let s := (newline? s).getD s
  lines? quote escapes (s.length + 1) s

/-- A string of one line, from its opening quote. -/
def oneLine? : List Char → Option (List Char × List Char)
  | '"' :: s => basic? (s.length + 1) s
  | '\'' :: s => literal? s
  | _ => none

/-- A string, from its opening quote. -/
def string? : List Char → Option (List Char × List Char)
  | '"' :: '"' :: '"' :: s => manyLines? '"' true s
  | '\'' :: '\'' :: '\'' :: s => manyLines? '\'' false s
  | s => oneLine? s

/-! ## Keys -/

/-- Whether a character may stand in a key without quotes. -/
def isKeyChar (c : Char) : Bool :=
  c.isAlphanum || c = '_' || c = '-'

/-- One part of a key. -/
def keyPart? (s : List Char) : Option (List Char × List Char) :=
  match s.takeWhile isKeyChar with
  | [] => oneLine? s
  | run => some (run, s.dropWhile isKeyChar)

/-- The parts of a key between points, in at most `fuel` parts. -/
def keyParts? : Nat → List Char → Option (List String × List Char)
  | 0, _ => none
  | fuel + 1, s => do
    let (part, s) ← keyPart? s
    match skipSpace s with
    | '.' :: rest =>
      let (parts, rest) ← keyParts? fuel (skipSpace rest)
      return (String.ofList part :: parts, rest)
    | s => return ([String.ofList part], s)

/-- A key and the text behind it and the white space that follows. -/
def key? (s : List Char) : Option (List String × List Char) :=
  keyParts? (s.length + 1) s

end FilterSql.Toml
