/-!
# Names in SQL text

Table, column and alias names are written into SQL text as they are, so only names of one plain
form are admitted, and `Identifier` carries the proof that a name has it. A name that is not
admitted is a fault of the code that states it and stops the construction; `NameError` is that
fault.
-/

namespace FilterSql

/-- A name, a path or a registration that the library refuses when a statement or a schema is
put together. -/
inductive NameError where
  /-- A name that is no identifier, with the role it was meant for. -/
  | identifier (role : String) (name : String)
  /-- A text that is no fixed JSON path. -/
  | jsonPath (path : String)
  /-- A filter field without a name. -/
  | emptyField
  /-- A filter field that is there already. -/
  | fieldTwice (name : String)
  /-- A sort key that is there already. -/
  | sortKeyTwice (key : String)
  deriving DecidableEq

/-- What the fault is. -/
def NameError.message : NameError → String
  | .identifier role name =>
    "Invalid SQL " ++ role ++ " name '" ++ name ++ "': must start with letter/underscore, " ++
      "contain only ASCII alphanumeric/underscore, and be 1-63 chars"
  | .jsonPath path =>
    "Invalid fixed JSON path '" ++ path ++ "': expected \x60$\x60 followed by \x60.key\x60, " ++
      "\x60.\"label\"\x60 or \x60[n]\x60 steps"
  | .emptyField => "Invalid filter field name: empty"
  | .fieldTwice name => "Filter field '" ++ name ++ "' is registered twice"
  | .sortKeyTwice key => "Sort key '" ++ key ++ "' is registered twice"

namespace Identifier

/-- Whether a character may start an identifier. -/
def isHead (c : Char) : Bool :=
  ('a' ≤ c && c ≤ 'z') || ('A' ≤ c && c ≤ 'Z') || c = '_'

/-- Whether a character may stand in an identifier. -/
def isTail (c : Char) : Bool :=
  isHead c || ('0' ≤ c && c ≤ '9')

/-- Whether a list of characters is an identifier: a letter or an underscore, then letters, digits
and underscores, 63 in all at most. -/
def isValid : List Char → Bool
  | [] => false
  | c :: rest => isHead c && rest.all isTail && rest.length < 63

end Identifier

/-- A name that may be written into SQL text. -/
structure Identifier where
  text : String
  valid : Identifier.isValid text.toList = true
  deriving DecidableEq

namespace Identifier

/-- The identifier with a given text, if it is one. -/
def ofString? (text : String) : Option Identifier :=
  if h : isValid text.toList = true then some ⟨text, h⟩ else none

/-- The identifier with a given text, or the fault that names the role it was meant for. -/
def check (role text : String) : Except NameError Identifier :=
  match ofString? text with
  | some name => .ok name
  | none => .error (.identifier role text)

end Identifier

end FilterSql
