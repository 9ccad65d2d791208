import FilterSql.ColumnKind
import FilterSql.Filter.Error
import FilterSql.Text.Lower
import FilterSql.Value

/-!
# Operands as bound values

The value that is bound for an operand depends on the kind of the column it is compared with.
Nothing is converted from one kind to another; a column of another kind is refused.
-/

namespace FilterSql.Operand

/-- The value that is bound for an operand on a column of a kind, for a filter that is compiled at
the instant `now`. Strings are bound in lower case and truth values as 0 and 1. -/
def toValue (now : Instant) (kind : ColumnKind) (operand : Operand) : Except FilterFault Value :=
  let mismatch : Except FilterFault Value := .error (.typeMismatch operand.kindName kind)
  match operand, kind with
  | .null, _ => .ok .null
  | .bool b, .boolean => .ok (.int (if b then 1 else 0))
  | .bool b, .number => .ok (.int (if b then 1 else 0))
  | .bool b, .jsonArray => .ok (.bool b)
  | .int n, .number => .ok (.int n)
  | .int n, .jsonArray => .ok (.int n)
  | .int n, .boolean => if n = 0 ∨ n = 1 then .ok (.int n) else mismatch
  | .float x, .number => .ok (.float x)
  | .float x, .jsonArray => .ok (.float x)
  | .string s, .string => .ok (.string (Text.lower s))
  | .string s, .jsonString => .ok (.string (Text.lower s))
  | .string s, .jsonArray => .ok (.string (Text.lower s))
  | .instant t, .datetime => .ok (.instant t)
  | .now, .datetime => .ok (.instant now)
  | _, _ => mismatch

/-- The values that are bound for a list of operands. -/
def toValues (now : Instant) (kind : ColumnKind) : List Operand → Except FilterFault (List Value)
  | [] => .ok []
  | operand :: rest => do
    let value ← operand.toValue now kind
    return value :: (← toValues now kind rest)

end FilterSql.Operand
