import FilterSql.Filter.Error
import FilterSql.Time.Timestamp

/-!
# Reading filters

The JSON grammar of filters. An object is the conjunction of its members, where a member is a field
or an operator, and an array is the conjunction of its items; everything else is a value that the
column equals. An object with a member `$` is a value that JSON has no form for. Nesting beyond a
limit is refused at the field where it is exceeded, before what stands there is looked at.
-/

namespace FilterSql

namespace Filter

/-- What a member of an object means, by its name. -/
inductive MemberKind where
  | field
  | compare (op : CompareOp)
  | and
  | or
  | not
  | oneOf
  | contains
  | elemMatch
  | unknown

/-- The meaning of a member with a given name. -/
def MemberKind.ofName (name : String) : MemberKind :=
  match CompareOp.ofKeyword? name with
  | some op => .compare op
  | none =>
    if name.toList.head? != some '$' then .field
    else if name = "$and" then .and
    else if name = "$or" then .or
    else if name = "$not" then .not
    else if name = "$in" then .oneOf
    else if name = "$contains" then .contains
    else if name = "$elemMatch" then .elemMatch
    else .unknown

/-- Whether an object stands for a value that JSON has no form for. -/
def isMagic (members : List (String × Json)) : Bool :=
  members.any (·.1 = "$")

/-- The instant of a `$date`, given in milliseconds or as a timestamp. -/
def date? : Option Json → Option Instant
  | some (.int millis) =>
    if millis ≤ Int64.maxValue.toInt then Instant.ofMillis? millis else none
  | some (.string text) => Instant.ofRfc3339? text
  | _ => none

/-- The operand that an object with a member `$` stands for. -/
def magicOperand (members : List (String × Json)) : Except FilterFault Operand :=
  let name :=
    match Json.member? "$" members with
    | some (.string name) => name
    | _ => ""
  if name = "$now" then .ok .now
  else if name = "$date" then
    match date? (Json.member? "value" members) with
    | some t => .ok (.instant t)
    | none => .error (.invalidShape "$date" "a millisecond timestamp or an RFC 3339 string")
  else .error (.unsupportedMagicValue name)

/-- The operand of an operator. Integers have to fit 64 bits with a sign. -/
def operand (operator : String) : Json → Except FilterFault Operand
  | .null => .ok .null
  | .bool b => .ok (.bool b)
  | .int n =>
    if Int64.minValue.toInt ≤ n ∧ n ≤ Int64.maxValue.toInt then .ok (.int (Int64.ofInt n))
    else .error (.invalidShape operator "an integer within the signed 64-bit range")
  | .float x => .ok (.float x)
  | .string s => .ok (.string s)
  | .object members =>
    if isMagic members then magicOperand members
    else .error (.invalidShape operator "a scalar value")
  | .array _ => .error (.invalidShape operator "a scalar value")

/-- The operands of a list. -/
def operands (operator : String) : List Json → Except FilterFault (List Operand)
  | [] => .ok []
  | item :: rest => do return (← operand operator item) :: (← operands operator rest)

/-- A result at a field. -/
def located (path : FieldPath) {α : Type} : Except FilterFault α → Except FilterError α
  | .ok a => .ok a
  | .error fault => .error ⟨fault, path⟩

mutual

/-- The filter of a JSON value that stands `depth` levels deep at a field. -/
def ofJson (max : Nat) (path : FieldPath) (depth : Nat) : Json → Except FilterError Filter
  | .object members =>
    if max < depth then .error ⟨.tooDeep max, path⟩
    else if isMagic members then
      (located path (magicOperand members)).map (.compare .eq)
    else (ofMembers max path depth members).map conjunction
  | .array items =>
    if max < depth then .error ⟨.tooDeep max, path⟩
    else (ofItems max path (depth + 1) items).map .all
  | scalar =>
    if max < depth then .error ⟨.tooDeep max, path⟩
    else (located path (operand "$eq" scalar)).map (.compare .eq)

/-- The filters of the items of an array. -/
def ofItems (max : Nat) (path : FieldPath) (depth : Nat) :
    List Json → Except FilterError (List Filter)
  | [] => .ok []
  | item :: rest => do
    let filter ← ofJson max path depth item
    return filter :: (← ofItems max path depth rest)

/-- The filters of the members of an object that stands `depth` levels deep. -/
def ofMembers (max : Nat) (path : FieldPath) (depth : Nat) :
    List (String × Json) → Except FilterError (List Filter)
  | [] => .ok []
  | (name, value) :: rest => do
    let shape (expected : String) : FilterError := ⟨.invalidShape name expected, path⟩
    let filter : Filter ←
      match MemberKind.ofName name with
      | .field => (ofJson max (path.child name) (depth + 1) value).map (.field name)
      | .compare op => (located path (operand name value)).map (.compare op)
      | .and =>
        match value with
        | .array items => (ofItems max path (depth + 1) items).map .all
        | .object members => (ofJson max path (depth + 1) (.object members)).map (.all [·])
        | _ => .error (shape "a list of filters")
      | .or =>
        match value with
        | .array items => (ofItems max path (depth + 1) items).map .any
        | .object members => (ofJson max path (depth + 1) (.object members)).map (.any [·])
        | _ => .error (shape "a list of filters")
      | .not => (ofJson max path (depth + 1) value).map .not
      | .oneOf =>
        match value with
        | .array items => (located path (operands name items)).map .oneOf
        | _ => .error (shape "an array of values")
      | .contains =>
        match value with
        | .string needle => .ok (.contains needle)
        | _ => .error (shape "a string")
      | .elemMatch =>
        match value with
        | .object members => (ofJson max path (depth + 1) (.object members)).map .elemMatch
        | .array items => (ofJson max path (depth + 1) (.array items)).map .elemMatch
        | _ => .error (shape "a filter object")
      | .unknown => .error ⟨.unknownOperator name, path⟩
    return filter :: (← ofMembers max path depth rest)

end

/-- The filter of a JSON value, nested at most `max` deep. -/
def read (max : Nat) (value : Json) : Except FilterError Filter :=
  ofJson max .root 1 value

/-- The nesting that a filter may have where nothing else is said. -/
def defaultMaxDepth : Nat := 32

/-- The filter of a JSON text. -/
def readText (text : String) : Except FilterError Filter :=
  match Json.read? text with
  | some value => read defaultMaxDepth value
  | none => .error ⟨.invalidJson, .root⟩

end Filter

end FilterSql
