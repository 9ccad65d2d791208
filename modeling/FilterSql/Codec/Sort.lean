import FilterSql.Codec.Record
import FilterSql.Sort.Basic

/-!
# Sort orders and operators in JSON

A direction is `"ASC"` or `"DESC"`, an operator its keyword, and a term of an order a record of its
key and its direction.
-/

namespace FilterSql

namespace Direction

/-- A direction in JSON. -/
def toJson (d : Direction) : Json :=
  .string d.keyword

/-- The direction that a JSON text stands for. -/
def ofSource? (s : Json.Source) : Option Direction := do
  match ← s.choice? with
  | "ASC" => some asc
  | "DESC" => some desc
  | _ => none

end Direction

namespace CompareOp

/-- An operator in JSON. -/
def toJson (op : CompareOp) : Json :=
  .string op.keyword

/-- The operator that a JSON text stands for. -/
def ofSource? (s : Json.Source) : Option CompareOp := do
  ofKeyword? (← s.choice?)

end CompareOp

namespace SortTerm

/-- How a term is written. -/
def form : RecordForm :=
  ⟨["key", "dir"], true, false⟩

/-- A term in JSON. -/
def toJson (term : SortTerm) : Json :=
  .object [("key", .string term.key), ("dir", term.direction.toJson)]

/-- The term that a JSON text stands for. -/
def ofSource? (s : Json.Source) : Option SortTerm := do
  match ← s.fields? form with
  | [some key, some direction] =>
    return ⟨← key.stringValue?, ← Direction.ofSource? direction⟩
  | _ => none

end SortTerm

end FilterSql
