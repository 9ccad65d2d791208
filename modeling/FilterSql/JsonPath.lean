import FilterSql.Name
import FilterSql.Text.Blank

/-!
# Paths into JSON documents

A fixed path is part of the SQL text, in quotes; `FixedPath` carries the proof that it has the form
of a path and so holds nothing that could end the quotes. The path of a member whose name comes
with a filter is built by `JsonPath.forKey` and always sent as a parameter.
-/

namespace FilterSql

namespace FixedPath

/-- Whether a character may stand in a quoted label. -/
def isLabelChar (c : Char) : Bool :=
  c != '\'' && c != '\\' && !Text.isControl c

/-- Whether a text is made of the steps of a path: an identifier behind a point, a label in quotes
behind a point, or digits in brackets. Each step takes at least one of the `fuel` characters. -/
def areSteps : Nat → List Char → Bool
  | _, [] => true
  | 0, _ :: _ => false
  | fuel + 1, '.' :: '"' :: s =>
    let label := s.takeWhile (· != '"')
    match s.dropWhile (· != '"') with
    | _ :: rest => !label.isEmpty && label.all isLabelChar && areSteps fuel rest
    | [] => false
  | fuel + 1, '.' :: s =>
    let inName := fun c => c != '.' && c != '['
    Identifier.isValid (s.takeWhile inName) && areSteps fuel (s.dropWhile inName)
  | fuel + 1, '[' :: s =>
    let index := s.takeWhile (· != ']')
    match s.dropWhile (· != ']') with
    | _ :: rest => !index.isEmpty && index.all Char.isDigit && areSteps fuel rest
    | [] => false
  | _ + 1, _ => false

/-- Whether a text is a fixed path: 256 octets at most, a dollar sign, then steps. -/
def isValid (text : String) : Bool :=
  text.utf8ByteSize ≤ 256 &&
    match text.toList with
    | '$' :: steps => areSteps steps.length steps
    | _ => false

end FixedPath

/-- A path that may be written into SQL text in quotes. -/
structure FixedPath where
  text : String
  valid : FixedPath.isValid text = true
  deriving DecidableEq

/-- The fixed path with a given text, or the fault that it is none. -/
def FixedPath.check (text : String) : Except NameError FixedPath :=
  if h : isValid text = true then .ok ⟨text, h⟩ else .error (.jsonPath text)

/-- A path into a JSON document. -/
inductive JsonPath where
  /-- A path of the statement, written in quotes. -/
  | fixed (path : FixedPath)
  /-- A path that is sent as a parameter. -/
  | bound (text : String)
  deriving DecidableEq

namespace JsonPath

/-- A label with a backslash before every quote and backslash. -/
def escapeLabel (s : List Char) : List Char :=
  s.flatMap fun c => if c = '"' || c = '\\' then ['\\', c] else [c]

/-- The text of the path to the member `key` of an object. -/
def keyText (key : String) : String :=
  if Identifier.isValid key.toList then "$." ++ key
  else "$.\"" ++ String.ofList (escapeLabel key.toList) ++ "\""

/-- The path to the member `key` of an object. -/
def forKey (key : String) : JsonPath :=
  .bound (keyText key)

/-- The text of a path. -/
def text : JsonPath → String
  | .fixed path => path.text
  | .bound text => text

end JsonPath

end FilterSql
