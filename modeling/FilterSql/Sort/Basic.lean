import FilterSql.Json.Writer
import FilterSql.Sql.Syntax
import FilterSql.Text.Blank

/-!
# Sort orders

A sort order is a list of keys with directions. It is written with commas between the keys and a
minus in front of those that go down; white space around keys and empty parts do not matter.
-/

namespace FilterSql

/-- A key that rows are sorted by, with its direction. -/
structure SortTerm where
  key : String
  direction : Direction
  deriving DecidableEq

/-- What is wrong with a sort order or a page size. -/
inductive SortError where
  | unknownKey (key : String)
  | emptySort
  | invalidLimit (limit max : Nat)
  deriving DecidableEq

namespace SortError

/-- The error in words. -/
def message : SortError → String
  | unknownKey key => "unknown sort key `" ++ key ++ "`"
  | emptySort => "sort specification is empty"
  | invalidLimit limit max =>
    "limit must be between 1 and " ++ Json.natText max ++ ", got " ++ Json.natText limit

/-- The name of the kind of error. -/
def name : SortError → String
  | unknownKey _ => "UnknownSortKey"
  | emptySort => "EmptySort"
  | invalidLimit _ _ => "InvalidLimit"

/-- The code that callers tell errors apart by. -/
def code : SortError → String
  | invalidLimit _ _ => "invalid_limit"
  | _ => "invalid_sort"

end SortError

namespace SortTerm

/-- The term of a part that holds more than white space, trimmed. -/
def ofPart : List Char → Except SortError SortTerm
  | '-' :: key =>
    match Text.trim key with
    | [] => .error (.unknownKey (String.ofList ('-' :: key)))
    | key => .ok ⟨String.ofList key, .desc⟩
  | key => .ok ⟨String.ofList key, .asc⟩

/-- The terms of the parts between commas; those of white space are passed over. -/
def ofParts : List (List Char) → Except SortError (List SortTerm)
  | [] => .ok []
  | part :: rest =>
    match Text.trim part with
    | [] => ofParts rest
    | part => do
      let term ← ofPart part
      return term :: (← ofParts rest)

/-- The sort order that a text writes, which has at least one key. -/
def parse (text : String) : Except SortError (List SortTerm) := do
  match ← ofParts (Text.splitOn ',' text.toList) with
  | [] => .error .emptySort
  | terms => .ok terms

/-- A term as it is written. -/
def text (term : SortTerm) : String :=
  match term.direction with
  | .asc => term.key
  | .desc => "-" ++ term.key

end SortTerm

end FilterSql
