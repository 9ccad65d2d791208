import FilterSql.Filter.Operand
import FilterSql.Sql.Syntax

/-!
# Filters

The tree of a filter: connectives, fields, and tests on the column that the fields lead to. A
filter comes from a caller's JSON or is built by the program itself; only the latter can hold the
marker of a template.
-/

namespace FilterSql

/-- A filter. -/
inductive Filter where
  /-- All of the filters match; none at all match everything. -/
  | all (filters : List Filter)
  /-- At least one of the filters matches. -/
  | any (filters : List Filter)
  | not (filter : Filter)
  /-- The filter on a field; points in the name lead to fields of fields. -/
  | field (name : String) (filter : Filter)
  | compare (op : CompareOp) (operand : Operand)
  /-- The column equals one of the operands. -/
  | oneOf (operands : List Operand)
  /-- The text of the column contains a text. -/
  | contains (needle : String)
  /-- A related row matches the filter. -/
  | elemMatch (filter : Filter)
  /-- The place in a template where a caller's filter stands. -/
  | marker

namespace Filter

/-- The filter that every row matches. -/
def everything : Filter := .all []

instance : Inhabited Filter := ⟨everything⟩

/-- Whether a filter is the empty conjunction. -/
def isEmpty : Filter → Bool
  | .all filters => filters.isEmpty
  | _ => false

/-- The conjunction of a list of filters; a single one stands for itself. -/
def conjunction : List Filter → Filter
  | [filter] => filter
  | filters => .all filters

/-- The disjunction of a list of filters; a single one stands for itself. -/
def disjunction : List Filter → Filter
  | [filter] => filter
  | filters => .any filters

/-- Both filters, the trusted one first; an empty filter adds nothing. -/
def merge (trusted user : Filter) : Filter :=
  if user.isEmpty then trusted
  else if trusted.isEmpty then user
  else .all [trusted, user]

end Filter

/-- The names that lead to a field. -/
structure FieldPath where
  names : List String
  deriving DecidableEq

namespace FieldPath

/-- The path to the row itself. -/
def root : FieldPath := ⟨[]⟩

/-- The path to a field below. -/
def child (p : FieldPath) (name : String) : FieldPath :=
  ⟨p.names ++ [name]⟩

/-- The path in a message. -/
def text (p : FieldPath) : String :=
  if p.names.isEmpty then "$root" else Text.join "." p.names

end FieldPath

end FilterSql
