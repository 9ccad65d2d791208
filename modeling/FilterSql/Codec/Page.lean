import FilterSql.Codec.Record
import FilterSql.Json.Writer
import FilterSql.Sort.Page

/-!
# Page information in JSON
-/

namespace FilterSql.PageInfo

/-- How page information is written. -/
def form : RecordForm :=
  ⟨["has_next", "next_cursor"], true, false⟩

/-- Page information in JSON. -/
def toJson (info : PageInfo) : Json :=
  .object [
    ("has_next", .bool info.hasNext),
    ("next_cursor", match info.nextCursor with | some token => .string token | none => .null)]

/-- The token of a member that may be `null` or missing. -/
def token? : Option Json.Source → Option (Option String)
  | none => some none
  | some .null => some none
  | some s => s.stringValue?.map some

/-- The page information that a JSON text stands for. -/
def ofSource? (s : Json.Source) : Option PageInfo := do
  match ← s.fields? form with
  | [some hasNext, nextCursor] => return ⟨← hasNext.boolValue?, ← token? nextCursor⟩
  | _ => none

end FilterSql.PageInfo
