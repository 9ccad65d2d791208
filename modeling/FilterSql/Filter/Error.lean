import FilterSql.ColumnKind
import FilterSql.Filter.Basic
import FilterSql.Json.Writer

/-!
# Rejected filters

Why a filter is rejected and where in it.
-/

namespace FilterSql

/-- Why a filter is rejected. -/
inductive FilterFault where
  | unknownField (name : String)
  | unknownOperator (name : String)
  /-- An operator with an operand of the wrong form. -/
  | invalidShape (operator expected : String)
  | tooManyValues (max actual : Nat)
  /-- An operand that the kind of the column does not go with. -/
  | typeMismatch (operand : String) (column : ColumnKind)
  /-- A test where no field has been entered. -/
  | operatorNotAllowed (operator : String)
  | unexpectedElemMatch
  | unresolvedMarker
  | missingScope
  | tooDeep (max : Nat)
  /-- The text of the filter is no JSON. -/
  | invalidJson
  | unsupportedMagicValue (name : String)
  deriving DecidableEq

/-- What the fault is. -/
def FilterFault.message : FilterFault → String
  | .unknownField name => "unknown field `" ++ name ++ "`"
  | .unknownOperator name => "unknown operator `" ++ name ++ "`"
  | .invalidShape operator expected => "operator `" ++ operator ++ "` expects " ++ expected
  | .tooManyValues max actual =>
    "too many values in $in filter: " ++ Json.natText actual ++ " (maximum is " ++
      Json.natText max ++ ")"
  | .typeMismatch operand column =>
    "cannot compare a " ++ operand ++ " with a " ++ column.name ++ " column"
  | .operatorNotAllowed operator => "operator `" ++ operator ++ "` is not allowed at root level"
  | .unexpectedElemMatch => "$elemMatch is only allowed on relations"
  | .unresolvedMarker => "filter contains an unresolved marker"
  | .missingScope => "filter does not contain the required scope"
  | .tooDeep max => "filter nesting exceeds maximum depth of " ++ Json.natText max
  | .invalidJson => "invalid JSON"
  | .unsupportedMagicValue name => "unsupported magic value `" ++ name ++ "`"

/-- The name of the kind of fault. -/
def FilterFault.name : FilterFault → String
  | .unknownField _ => "UnknownField"
  | .unknownOperator _ => "UnknownOperator"
  | .invalidShape _ _ => "InvalidShape"
  | .tooManyValues _ _ => "TooManyValues"
  | .typeMismatch _ _ => "TypeMismatch"
  | .operatorNotAllowed _ => "OperatorNotAllowed"
  | .unexpectedElemMatch => "UnexpectedElemMatch"
  | .unresolvedMarker => "UnresolvedMarker"
  | .missingScope => "MissingScope"
  | .tooDeep _ => "TooDeep"
  | .invalidJson => "InvalidJson"
  | .unsupportedMagicValue _ => "UnsupportedMagicValue"

/-- A rejected filter: why, and at which field. -/
structure FilterError where
  fault : FilterFault
  path : FieldPath
  deriving DecidableEq

namespace FilterError

/-- The error in words. -/
def message (e : FilterError) : String :=
  "invalid filter at `" ++ e.path.text ++ "`: " ++ e.fault.message

/-- The code that callers tell errors apart by. -/
def code (_ : FilterError) : String :=
  "invalid_filter"

end FilterError

end FilterSql
