import FilterSql.Json.Basic

/-!
# Records in JSON

A record is an object with a member for each field, or an array of the fields in order. It is read
from the text as written, since here, other than in a JSON value, a repeated member is a fault, and
what stands in a member that is passed over does not matter.
-/

namespace FilterSql

/-- How a record is written. -/
structure RecordForm where
  /-- The fields in order. -/
  names : List String
  /-- Whether members that are no fields are passed over. -/
  passesUnknown : Bool
  /-- Whether an array may end before all fields are there. -/
  mayEndEarly : Bool

/-- A record as written: with the names of its fields, or without. -/
inductive RecordText (α : Type) where
  | named (members : List (String × α))
  | listed (items : List α)

namespace RecordText

variable {α : Type}

/-- The fields of a record in the order of its form, as far as they are there. -/
def fields? (form : RecordForm) : RecordText α → Option (List (Option α))
  | named members =>
    let names := members.map (·.1)
    if !form.passesUnknown && names.any (!form.names.contains ·) then none
    else if form.names.any fun name => 1 < names.count name then none
    else some (form.names.map fun name => (members.find? (·.1 = name)).map (·.2))
  | listed items =>
    let missing := form.names.length - items.length
    if form.names.length < items.length then none
    else if 0 < missing && !form.mayEndEarly then none
    else some (items.map some ++ List.replicate missing none)

end RecordText

namespace Json.Source

/-- The members of an object with their names unescaped. -/
def named? : List (List Char × Source) → Option (List (String × Source))
  | [] => some []
  | (name, value) :: rest => do
    let name ← stringOf? name
    return (name, value) :: (← named? rest)

/-- A JSON text as a record. -/
def record? : Source → Option (RecordText Source)
  | .object members => (named? members).map .named
  | .array items => some (.listed items)
  | _ => none

/-- The fields of a record in a JSON text. -/
def fields? (form : RecordForm) (s : Source) : Option (List (Option Source)) := do
  (← s.record?).fields? form

/-- The truth value that a JSON text stands for. -/
def boolValue? : Source → Option Bool
  | .bool b => some b
  | _ => none

/-- The string that a JSON text stands for. -/
def stringValue? : Source → Option String
  | .string escaped => stringOf? escaped
  | _ => none

/-- The unsigned 64-bit integer that a JSON text stands for. -/
def countValue? : Source → Option Nat
  | .number text =>
    match text.toJson? with
    | some (.int n) => if 0 ≤ n then some n.toNat else none
    | _ => none
  | _ => none

/-- The name that stands for one of several choices: a string, or the one member `null` of an
object. -/
def choice? : Source → Option String
  | .string name => stringOf? name
  | .object [(name, .null)] => stringOf? name
  | _ => none

end Json.Source

end FilterSql
