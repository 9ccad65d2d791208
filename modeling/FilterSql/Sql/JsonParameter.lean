import FilterSql.Json.Writer
import FilterSql.Time.Timestamp
import FilterSql.Value

/-!
# JSON parameters

Values that are compared with parts of a JSON document are sent as JSON text: a scalar as itself,
an instant as its text, an array as an array, and what JSON cannot write as `null`.
-/

namespace FilterSql.Value

mutual

/-- The JSON text of a value. -/
def jsonText : Value → String
  | .null => "null"
  | .bool b => if b then "true" else "false"
  | .int n => Json.intText n.toInt
  | .float x => Json.floatText x
  | .string s => Json.quoted s
  | .instant t => Json.quoted (t.text "+00:00")
  | .array items => "[" ++ Text.join "," (jsonTexts items) ++ "]"

/-- The JSON texts of a list of values. -/
def jsonTexts : List Value → List String
  | [] => []
  | v :: rest => v.jsonText :: jsonTexts rest

end

/-- A list of values as one parameter that holds a JSON array. -/
def jsonArray (values : List Value) : Value :=
  .string (Value.array values).jsonText

end FilterSql.Value
