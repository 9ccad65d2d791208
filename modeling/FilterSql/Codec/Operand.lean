import FilterSql.Codec.Record
import FilterSql.Filter.Operand
import FilterSql.Json.Writer
import FilterSql.Time.Timestamp

/-!
# Operands in JSON

An operand is written as an object with its kind as the member `t` and its value as the member `v`,
so that integers, floats and instants come back as what they were. Where it is read, the two may
also stand in an array, the kind may be an object with one member `null`, an integer is taken for a
float, and the members of `null` and `now` need no value.
-/

namespace FilterSql.Operand

/-- The kind of an operand in JSON. -/
def tag : Operand → String
  | .null => "null"
  | .bool _ => "bool"
  | .int _ => "int"
  | .float _ => "float"
  | .string _ => "string"
  | .instant _ => "datetime"
  | .now => "now"

/-- The value of an operand in JSON, if its kind has one. -/
def content? : Operand → Option Json
  | .null => none
  | .bool b => some (.bool b)
  | .int n => some (.int n.toInt)
  | .float x => some (.float x)
  | .string s => some (.string s)
  | .instant t => some (.string (t.text "Z"))
  | .now => none

/-- An operand in JSON. -/
def toJson (operand : Operand) : Json :=
  .object (("t", .string operand.tag) ::
    match operand.content? with
    | some content => [("v", content)]
    | none => [])

/-- The operand of a kind with a value. -/
def ofContent? (tag : String) (content : Option Json) : Option Operand :=
  match tag, content with
  | "null", none => some .null
  | "null", some .null => some .null
  | "now", none => some .now
  | "now", some .null => some .now
  | "bool", some (.bool b) => some (.bool b)
  | "int", some (.int n) =>
    if Int64.minValue.toInt ≤ n ∧ n ≤ Int64.maxValue.toInt then some (.int (Int64.ofInt n))
    else none
  | "float", some (.float x) => some (.float x)
  | "float", some (.int n) => some (.float (Binary64.ofInt n))
  | "string", some (.string s) => some (.string s)
  | "datetime", some (.string s) => (Instant.ofLenient? s).map .instant
  | _, _ => none

/-- The name that stands for one of several choices: a string, or the one member `null` of an
object. -/
def choice? : Json → Option String
  | .string name => some name
  | .object [(name, .null)] => some name
  | _ => none

/-- The operand that a JSON value stands for. -/
def ofJson? : Json → Option Operand
  | .object members => do
    ofContent? (← choice? (← Json.member? "t" members)) (Json.member? "v" members)
  | .array [tag, content] => do ofContent? (← choice? tag) (some content)
  | _ => none

/-- How an operand is written in a text that stands for nothing else. -/
def form : RecordForm :=
  ⟨["t", "v"], true, false⟩

/-- The operand that a JSON text stands for. -/
def ofSource? (s : Json.Source) : Option Operand := do
  match ← s.fields? form with
  | [some tag, none] => ofContent? (← tag.choice?) none
  | [some tag, some content] =>
    ofContent? (← tag.choice?) (some (← Json.ofSource? Json.maxDepth content))
  | _ => none

end FilterSql.Operand
