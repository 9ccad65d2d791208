import FilterSql.Binary64.Basic
import FilterSql.Time.Instant

/-!
# Bound values

The values that are sent beside a statement. `Value.same` is the equality of values: that of
binary64 numbers where a number is a float, so a value that holds a NaN is not the same as
itself.
-/

namespace FilterSql

/-- A value bound to a placeholder. -/
inductive Value where
  | null
  | bool (value : Bool)
  | int (value : Int64)
  | float (value : Binary64)
  | string (value : String)
  | instant (value : Instant)
  | array (items : List Value)

instance : Inhabited Value := ⟨.null⟩

namespace Value

/-- Whether a value is the SQL `NULL`. -/
def isNull : Value → Bool
  | .null => true
  | _ => false

/-- The name of a value's kind. -/
def kindName : Value → String
  | .null => "null"
  | .bool _ => "boolean"
  | .int _ => "number"
  | .float _ => "number"
  | .string _ => "string"
  | .instant _ => "datetime"
  | .array _ => "array"

mutual

/-- Whether two values are equal. -/
def same : Value → Value → Bool
  | .null, .null => true
  | .bool a, .bool b => a == b
  | .int a, .int b => a == b
  | .float a, .float b => a.same b
  | .string a, .string b => a == b
  | .instant a, .instant b => a == b
  | .array a, .array b => sameAll a b
  | _, _ => false

/-- Whether two lists hold equal values in turn. -/
def sameAll : List Value → List Value → Bool
  | [], [] => true
  | a :: as, b :: bs => same a b && sameAll as bs
  | _, _ => false

end

instance : BEq Value := ⟨same⟩

end Value

end FilterSql
