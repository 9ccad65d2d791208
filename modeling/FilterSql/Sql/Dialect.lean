import FilterSql.Sql.JsonParameter
import FilterSql.Sql.Syntax

/-!
# The three dialects

What MySQL, Postgres and SQLite write differently, fragment by fragment. Every function takes
fragments that are rendered already, and placeholders; none of them writes a caller's value into
the text.
-/

namespace FilterSql

/-- A database's language. -/
inductive Dialect where
  | mysql
  | postgres
  | sqlite
  deriving DecidableEq, Inhabited

namespace Dialect

/-- All dialects. -/
def every : List Dialect := [mysql, postgres, sqlite]

/-- The name of the dialect. -/
def name : Dialect → String
  | mysql => "mysql"
  | postgres => "postgres"
  | sqlite => "sqlite"

/-- The dialect with a given name. -/
def ofName? (name : String) : Option Dialect :=
  every.find? (·.name = name)

/-- The placeholder with a number, counted from one. -/
def placeholder : Dialect → Nat → String
  | mysql, _ => "?"
  | postgres, n => "$" ++ Json.natText n
  | sqlite, n => "?" ++ Json.natText n

/-- A truth value. -/
def boolText : Dialect → Bool → String
  | sqlite, b => if b then "1" else "0"
  | _, b => if b then "TRUE" else "FALSE"

/-- The placeholders of some values in turn, the first one with the number `first`. -/
def placeholders (d : Dialect) (first : Nat) : List Value → List String
  | [] => []
  | _ :: rest => d.placeholder first :: d.placeholders (first + 1) rest

/-- A test for membership in a list and the values it binds, the first one with the number
`first`. Postgres binds the list as one array. -/
def isIn (d : Dialect) (field : String) (values : List Value) (first : Nat) :
    String × List Value :=
  match d with
  | postgres => (field ++ " = ANY($" ++ Json.natText first ++ ")", [.array values])
  | _ => (field ++ " IN (" ++ Text.join ", " (d.placeholders first values) ++ ")", values)

/-- A test that nothing in a list is equal, and the values it binds. -/
def isNotIn (d : Dialect) (field : String) (values : List Value) (first : Nat) :
    String × List Value :=
  match d with
  | postgres => (field ++ " != ALL($" ++ Json.natText first ++ ")", [.array values])
  | _ => (field ++ " NOT IN (" ++ Text.join ", " (d.placeholders first values) ++ ")", values)

/-- Equality under which two `NULL`s are equal. -/
def nullSafeEq : Dialect → String → String → String
  | mysql, left, right => left ++ " <=> " ++ right
  | postgres, left, right => left ++ " IS NOT DISTINCT FROM " ++ right
  | sqlite, left, right => left ++ " IS " ++ right

/-- The document at a path, the path being a placeholder or in quotes. -/
def jsonExtract : Dialect → String → String → String
  | mysql, target, path => "JSON_EXTRACT(" ++ target ++ ", " ++ path ++ ")"
  | postgres, target, path =>
    "jsonb_path_query_first(" ++ target ++ ", " ++ path ++ "::jsonpath)"
  | sqlite, target, path => "json_extract(" ++ target ++ ", " ++ path ++ ")"

/-- An extracted scalar as SQL text. SQLite extracts scalars as such. -/
def jsonUnquote : Dialect → String → String
  | mysql, expr => "JSON_UNQUOTE(" ++ expr ++ ")"
  | postgres, expr => "(" ++ expr ++ " #>> '\x7b\x7d')"
  | sqlite, expr => expr

/-- A test for a stored JSON `null`, unless it is extracted as the SQL `NULL`. -/
def jsonNullTest? : Dialect → String → Option String
  | mysql, expr => some (expr ++ " = CAST('null' AS JSON)")
  | postgres, expr => some (expr ++ " = 'null'::jsonb")
  | sqlite, _ => none

/-- The JSON string at a path, `NULL` for every other JSON type. Both fragments are repeated. -/
def jsonString (d : Dialect) (target path : String) : String :=
  let value := d.jsonExtract target path
  match d with
  | mysql =>
    "CASE WHEN JSON_TYPE(" ++ value ++ ") = 'STRING' THEN " ++ d.jsonUnquote value ++ " END"
  | postgres =>
    "CASE WHEN jsonb_typeof(" ++ value ++ ") = 'string' THEN " ++ d.jsonUnquote value ++ " END"
  | sqlite =>
    "CASE WHEN json_type(" ++ target ++ ", " ++ path ++ ") = 'text' THEN " ++ value ++ " END"

/-- A test for an element of a JSON array. With `foldCase` the elements are compared in lower
case with a lower-case string. -/
def arrayContains : Dialect → String → String → Bool → String
  | mysql, column, value, true =>
    "JSON_SEARCH(LOWER(" ++ column ++ "), 'one', " ++ value ++ ") IS NOT NULL"
  | mysql, column, value, false => "JSON_CONTAINS(" ++ column ++ ", " ++ value ++ ")"
  | postgres, column, value, true =>
    "EXISTS (SELECT 1 FROM jsonb_array_elements_text(" ++ column ++
      ") AS e(v) WHERE LOWER(e.v) = " ++ value ++ ")"
  | postgres, column, value, false => column ++ " @> " ++ value ++ "::jsonb"
  | sqlite, column, value, true =>
    "EXISTS (SELECT 1 FROM json_each(" ++ column ++ ") WHERE LOWER(json_each.value) = " ++
      value ++ ")"
  | sqlite, column, value, false =>
    "EXISTS (SELECT 1 FROM json_each(" ++ column ++ ") WHERE json_each.value IS " ++ value ++ ")"

/-- The value that `arrayContains` binds. SQLite shows the elements `true` and `false` as 1
and 0. -/
def arrayParameter : Dialect → Value → Bool → Value
  | mysql, value, false => .string value.jsonText
  | postgres, value, false => .jsonArray [value]
  | sqlite, .bool b, _ => .int (if b then 1 else 0)
  | _, value, _ => value

/-- A test for a common element of a JSON array and a parameter that holds one. -/
def overlaps : Dialect → String → String → String
  | mysql, column, values => "JSON_OVERLAPS(" ++ column ++ ", " ++ values ++ ")"
  | postgres, column, values =>
    "EXISTS (SELECT 1 FROM jsonb_array_elements(" ++ column ++
      ") AS a(v) JOIN jsonb_array_elements(" ++ values ++ "::jsonb) AS b(v) ON a.v = b.v)"
  | sqlite, column, values =>
    "EXISTS (SELECT 1 FROM json_each(" ++ column ++ ") AS a JOIN json_each(" ++ values ++
      ") AS b ON a.value IS b.value)"

/-- A test against a pattern in which the backslash escapes. -/
def like (d : Dialect) (field pattern : String) (negated : Bool) : String :=
  field ++ (if negated then " NOT LIKE " else " LIKE ") ++ pattern ++
    (match d with
      | sqlite => " ESCAPE '\\'"
      | _ => "")

/-- The hint that bounds the time of a statement, where the language has one. -/
def timeoutHint? : Dialect → Nat → Option String
  | mysql, ms => some ("/*+ MAX_EXECUTION_TIME(" ++ Json.natText ms ++ ") */")
  | _, _ => none

/-- What an order adds so that `NULL` is the smallest value. -/
def nullsOrder : Dialect → Direction → String
  | postgres, .asc => " NULLS FIRST"
  | postgres, .desc => " NULLS LAST"
  | _, _ => ""

/-- The end of an `INSERT` that updates the rows that are there already. MySQL finds the conflict
by the unique keys of the table. -/
def upsertTail (d : Dialect) (conflict update : List String) : String :=
  let assignments (before after : String) : String :=
    Text.join ", " (update.map fun c => c ++ " = " ++ before ++ c ++ after)
  let target := "ON CONFLICT (" ++ Text.join ", " conflict ++ ") DO UPDATE SET "
  match d with
  | mysql => "ON DUPLICATE KEY UPDATE " ++ assignments "VALUES(" ")"
  | postgres => target ++ assignments "EXCLUDED." ""
  | sqlite => target ++ assignments "excluded." ""

/-- What turns a statement into a request for its plan. -/
def planHead : Dialect → String
  | sqlite => "EXPLAIN QUERY PLAN "
  | _ => "EXPLAIN "

end Dialect

end FilterSql
