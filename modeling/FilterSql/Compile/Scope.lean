import FilterSql.Schema.Basic

/-!
# Where a field leads

A field name with points leads through the definitions of a schema to the place where the filter
behind it is compiled. `Scope.resolve` follows a name from segment to segment and gives that place,
the relations passed on the way, and the number of definitions passed. A field that is registered
under the whole rest of a name is preferred to one under its first segment.
-/

namespace FilterSql

/-- The fields that are visible at a place. -/
inductive Fields where
  | none
  | schema (schema : Schema)
  | wildcard (column : String → FilterColumn) (below : Option (String → Schema))

/-- A place in a filter: the fields that it may name, the column that it tests and the path that
led there. -/
structure Scope where
  fields : Fields
  column : Option FilterColumn
  path : FieldPath

/-- How a place is entered. -/
inductive Entry where
  /-- The same row. -/
  | row
  /-- The related rows that a subquery selects. -/
  | related (base : Select)
  /-- The row that a join adds. -/
  | joined (join : Join) (always : Bool)

/-- What a predicate on the far side of an entry asks of the row on this side. -/
def Entry.enclose : Entry → Predicate → Predicate
  | .row, p => p
  | _, .never => .never
  | .related base, .always => .condition (.exists base false)
  | .related base, .condition c => .condition (.exists (base.restrictBy c) false)
  | .joined join always, .always => if always then .always else .condition (.requires join)
  | .joined join _, .condition c => .condition (.joined join c)

/-- The place that a name leads to. -/
inductive Landing where
  | scope (entry : Entry) (scope : Scope)
  /-- A field with a compiler of its own, and the rest of the name. -/
  | custom (compile : Filter → FieldPath → Except FilterError Predicate) (path : FieldPath)
      (rest : Option String)

/-- Where a name leads. -/
structure Target where
  /-- The entries passed on the way, from the outside in. -/
  passed : List Entry
  landing : Landing
  /-- The number of definitions on the way. -/
  steps : Nat

namespace Fields

/-- The fields of a schema, if there is one. -/
def ofOption : Option Schema → Fields
  | .none => .none
  | some s => .schema s

/-- The definition of a name among the fields; every name is one of the keys of a wildcard only as
a first segment, so it is not looked up here. -/
def get? : Fields → String → Option FieldDefinition
  | .schema s, name => s.get? name
  | _, _ => .none

end Fields

/-- One step of a name: how the next place is entered, or the compiler that takes over. -/
inductive Step where
  | into (entry : Entry) (scope : Scope)
  | custom (compile : Filter → FieldPath → Except FilterError Predicate) (path : FieldPath)

/-- The step that a definition makes from a place at a path. -/
def FieldDefinition.step (path : FieldPath) : FieldDefinition → Step
  | .column tested below => .into .row ⟨.ofOption below, some tested, path⟩
  | .nested schema => .into .row ⟨.schema schema, none, path⟩
  | .related base schema => .into (.related base) ⟨.schema schema, none, path⟩
  | .joined join schema always => .into (.joined join always) ⟨.schema schema, none, path⟩
  | .wildcard value below => .into .row ⟨.wildcard value below, none, path⟩
  | .custom compile => .custom compile path

/-- The end of a name at a step. -/
def Step.land : Step → Target
  | .into entry scope => ⟨[], .scope entry scope, 1⟩
  | .custom compile path => ⟨[], .custom compile path none, 1⟩

namespace Scope

/-- The place of a schema's own fields. -/
def ofSchema (schema : Schema) : Scope :=
  ⟨.schema schema, none, .root⟩

/-- An error at a place. -/
def error (s : Scope) (fault : FilterFault) : FilterError :=
  ⟨fault, s.path⟩

/-- The error that a name is not known at a place. -/
def unknown (s : Scope) (name : String) : FilterError :=
  ⟨.unknownField name, s.path.child name⟩

/-- The column that is tested at a place, which an operator needs. -/
def tested (s : Scope) (operator : String) : Except FilterError FilterColumn :=
  match s.column with
  | some column => .ok column
  | none => .error (s.error (.operatorNotAllowed operator))

/-- The step that the first segment of a name makes, if it is known. -/
def first (s : Scope) (head : String) : Option Step :=
  match s.fields with
  | .none => none
  | .schema schema => (schema.get? head).map (·.step (s.path.child head))
  | .wildcard column below =>
    some (.into .row ⟨.ofOption (below.map (· head)), some (column head), s.path.child head⟩)

/-- The error that a name with a given first segment is not known at a place. Where there are no
fields at all the whole name is unknown. -/
def unresolved (s : Scope) (head : String) (rest : List String) : FilterError :=
  match s.fields with
  | .none => s.unknown (Text.join "." (head :: rest))
  | _ => s.unknown head

/-- Where the name with the segments `head :: rest` leads from a place. -/
def resolve (s : Scope) (head : String) : List String → Except FilterError Target
  | [] =>
    match s.first head with
    | some step => .ok step.land
    | none => .error (s.unresolved head [])
  | next :: rest =>
    let whole := Text.join "." (head :: next :: rest)
    match s.fields.get? whole with
    | some definition => .ok (definition.step (s.path.child whole)).land
    | none =>
      match s.first head with
      | none => .error (s.unresolved head (next :: rest))
      | some (.custom compile path) =>
        .ok ⟨[], .custom compile path (some (Text.join "." (next :: rest))), 1⟩
      | some (.into entry inner) =>
        (inner.resolve next rest).map fun target =>
          { target with passed := entry :: target.passed, steps := target.steps + 1 }

/-- Where a name leads from a place. -/
def follow (s : Scope) (name : String) : Except FilterError Target :=
  match Text.splitOn '.' name.toList with
  | [] => s.resolve name []
  | head :: rest => s.resolve (String.ofList head) (rest.map String.ofList)

end Scope

end FilterSql
