import FilterSql.Binary64.Round
import FilterSql.Time.Instant

/-!
# Operands

The scalar values of filters, sort keys and cursors. `Operand.order` is the order by which rows are
sorted in memory: `null` first, then truth values, numbers, strings and instants. `now` is the
instant at which a filter is compiled; as a sort value it is of no use and ties with every instant.
-/

namespace FilterSql

/-- A scalar value of a filter. -/
inductive Operand where
  | null
  | bool (value : Bool)
  | int (value : Int64)
  | float (value : Binary64)
  | string (value : String)
  | instant (value : Instant)
  /-- The instant at which the filter is compiled. -/
  | now

namespace Operand

instance : Inhabited Operand := ⟨.null⟩

/-- Whether an operand is `null`. -/
def isNull : Operand → Bool
  | .null => true
  | _ => false

/-- The name of an operand's kind. -/
def kindName : Operand → String
  | .null => "null"
  | .bool _ => "boolean"
  | .int _ => "number"
  | .float _ => "number"
  | .string _ => "string"
  | .instant _ => "datetime"
  | .now => "datetime"

/-- The place of an operand's kind in the order. -/
def rank : Operand → Nat
  | .null => 0
  | .bool _ => 1
  | .int _ => 2
  | .float _ => 2
  | .string _ => 3
  | .instant _ => 4
  | .now => 4

/-- The order of operands. An integer is compared with a float as the float nearest to it. -/
def order : Operand → Operand → Ordering
  | .bool a, .bool b => compare a b
  | .int a, .int b => compare a.toInt b.toInt
  | .int a, .float b => (Binary64.ofInt a.toInt).totalCompare b
  | .float a, .int b => a.totalCompare (Binary64.ofInt b.toInt)
  | .float a, .float b => a.totalCompare b
  | .string a, .string b => compare a b
  | .instant a, .instant b => a.order b
  | a, b => compare a.rank b.rank

/-- Whether two operands are equal; a NaN differs from itself, and the two zeros are equal. -/
def same : Operand → Operand → Bool
  | .null, .null => true
  | .bool a, .bool b => a == b
  | .int a, .int b => a == b
  | .float a, .float b => a.same b
  | .string a, .string b => a == b
  | .instant a, .instant b => a == b
  | .now, .now => true
  | _, _ => false

instance : BEq Operand := ⟨same⟩

end Operand

end FilterSql
