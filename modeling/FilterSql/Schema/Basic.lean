import FilterSql.Filter.Error
import FilterSql.Schema.Column
import FilterSql.Sql.Statement

/-!
# Schemas

A schema says which fields a filter may name and what each of them stands for. Its names are
distinct, not empty, and kept in order, so that a list of them does not tell in which order they
were defined.
-/

namespace FilterSql

mutual

/-- What a field of a filter stands for. -/
inductive FieldDefinition where
  /-- A column, perhaps with fields of its own. -/
  | column (column : FilterColumn) (below : Option Schema)
  /-- A group of fields of the same row. -/
  | nested (schema : Schema)
  /-- The related rows that a subquery selects, of which one has to match. -/
  | related (base : Select) (schema : Schema)
  /-- The row that a join adds, which may be known to be there for every row. -/
  | joined (join : Join) (schema : Schema) (always : Bool)
  /-- A map with keys that only the filter names. -/
  | wildcard (column : String → FilterColumn) (below : Option (String → Schema))
  /-- A field with a compiler of its own, which is given the filter and the path of the field. -/
  | custom (compile : Filter → FieldPath → Except FilterError Predicate)

/-- The fields that a filter may name. -/
inductive Schema where
  | ofFields (fields : List (String × FieldDefinition))

end

namespace Schema

/-- The schema without fields. -/
def empty : Schema := .ofFields []

instance : Inhabited Schema := ⟨empty⟩

/-- The fields in the order of their names. -/
def fields : Schema → List (String × FieldDefinition)
  | .ofFields fields => fields

/-- The definition of a field. -/
def get? (s : Schema) (name : String) : Option FieldDefinition :=
  (s.fields.find? (·.1 = name)).map (·.2)

/-- The names of the fields, in order. -/
def names (s : Schema) : List String :=
  s.fields.map (·.1)

/-- The number of fields. -/
def size (s : Schema) : Nat :=
  s.fields.length

/-- Whether there are no fields. -/
def isEmpty (s : Schema) : Bool :=
  s.fields.isEmpty

/-- The fields with one more, put where its name belongs. -/
def insert (name : String) (definition : FieldDefinition) :
    List (String × FieldDefinition) → List (String × FieldDefinition)
  | [] => [(name, definition)]
  | field :: rest =>
    if name < field.1 then (name, definition) :: field :: rest
    else field :: insert name definition rest

/-- The schema with one more field. -/
def define (s : Schema) (name : String) (definition : FieldDefinition) :
    Except NameError Schema :=
  if name.isEmpty then .error .emptyField
  else if s.names.contains name then .error (.fieldTwice name)
  else .ok (.ofFields (insert name definition s.fields))

end Schema

end FilterSql
