/-!
# Kinds of columns

What a column holds, as far as filters are concerned: it decides which operands the column is
compared with and how they are prepared.
-/

namespace FilterSql

/-- What a column holds. -/
inductive ColumnKind where
  /-- Text, compared in lower case. -/
  | string
  /-- Integers and floating-point numbers. -/
  | number
  /-- Instants. -/
  | datetime
  /-- Truth values, stored as 0 and 1. -/
  | boolean
  /-- A string inside a JSON document. -/
  | jsonString
  /-- A JSON array that holds a set of scalars. -/
  | jsonArray
  /-- A JSON object, which is compared with `null` only. -/
  | jsonObject
  deriving DecidableEq, Inhabited

namespace ColumnKind

/-- Whether the column is part of a JSON document. -/
def isJson : ColumnKind → Bool
  | jsonString => true
  | jsonArray => true
  | jsonObject => true
  | _ => false

/-- Whether the column is compared as text in lower case. -/
def isText : ColumnKind → Bool
  | string => true
  | jsonString => true
  | _ => false

/-- The name of the kind. -/
def name : ColumnKind → String
  | string => "String"
  | number => "Number"
  | datetime => "Datetime"
  | boolean => "Boolean"
  | jsonString => "JSONString"
  | jsonArray => "JSONArray"
  | jsonObject => "JSONObject"

/-- All kinds. -/
def every : List ColumnKind :=
  [string, number, datetime, boolean, jsonString, jsonArray, jsonObject]

/-- The kind with a given name. -/
def ofName? (name : String) : Option ColumnKind :=
  every.find? (·.name = name)

end ColumnKind

end FilterSql
