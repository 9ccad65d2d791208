import FilterSql.Compile.Filter
import FilterSql.Proofs.Sql.Conditions

/-!
# What a filter asks of a row

The two-valued reading of filters. `NULL` equals `NULL` and is smaller than every value, texts are
read in lower case, and a relation asks for one related row. `Filter.Holds` goes by the filter and
the fields, with no regard to how either of them is compiled. It covers the schemas of columns,
groups of fields and relations (`Schema.IsRelational`).
-/

namespace FilterSql

/-- The value that an operand stands for in a filter that is compiled at the instant `now`. -/
def Operand.meaning (now : Instant) : Operand → Value
  | .null => .null
  | .bool b => .int (if b then 1 else 0)
  | .int n => .int n
  | .float x => .float x
  | .string s => .string (Text.lower s)
  | .instant t => .instant t
  | .now => .instant now

/-- The value of a column as filters read it: text in lower case. -/
def FilterColumn.reading (db : Database) (row : Env) (c : FilterColumn) : Value :=
  let value := c.expr.value db row
  if c.kind = .string then
    if value.isNull then .null else .string (Text.lower (db.textOf value))
  else value

/-! ## Where the fields of a filter lead -/

namespace FieldDefinition

/-- The rows that a field leads to from a row. -/
def rows (db : Database) (row : Env) : FieldDefinition → List Env
  | .related base _ => base.matched db row
  | _ => [row]

/-- The field as one of the rows that it leads to has it. -/
def inside : FieldDefinition → FieldDefinition
  | .related _ schema => .nested schema
  | definition => definition

/-- The fields of a field. -/
def fields : FieldDefinition → Option Schema
  | .column _ schema => schema
  | .nested schema => some schema
  | .related _ schema => some schema
  | _ => none

/-- The relation that a field crosses, if it is one. -/
def crossed : FieldDefinition → List Select
  | .related base _ => [base]
  | _ => []

end FieldDefinition

/-- The field that a name leads to, given by its segments, and the relations before it. A field with
the whole rest of the name is preferred to one with its first segment. -/
def Schema.target? (s : Schema) : List String → Option (List Select × FieldDefinition)
  | [] => none
  | head :: rest =>
    match s.get? (Text.join "." (head :: rest)) with
    | some definition => some ([], definition)
    | none => do
      let definition ← s.get? head
      let fields ← definition.fields
      let (crossed, target) ← fields.target? rest
      return (definition.crossed ++ crossed, target)

/-- The rows that a chain of relations leads to. -/
def Database.through (db : Database) (row : Env) : List Select → List Env
  | [] => [row]
  | base :: rest => (base.matched db row).flatMap fun related => db.through related rest

namespace Filter

/-- The segments of a name. -/
def segments (name : String) : List String :=
  (Text.splitOn '.' name.toList).map String.ofList

/-! ## The meaning of a filter -/

mutual

/-- A row matches a filter on a field. A relation matches with one of the related rows, and a
negation on it asks that none of them matches. -/
def Holds (db : Database) (now : Instant) (row : Env) (field : FieldDefinition) : Filter → Prop
  | .all filters => ∃ inner ∈ field.rows db row, AllHold db now inner field.inside filters
  | .any filters => ∃ inner ∈ field.rows db row, AnyHolds db now inner field.inside filters
  | .not filter => ¬filter.Holds db now row field
  | .field name filter =>
    ∃ inner ∈ field.rows db row, ∃ fields crossed target,
      field.fields = some fields ∧ fields.target? (segments name) = some (crossed, target) ∧
        ∃ last ∈ db.through inner crossed, filter.Holds db now last target
  | .compare op operand =>
    match field with
    | .column c _ => op.accepts (db.order (c.reading db row) (operand.meaning now)) = true
    | _ => False
  | .oneOf operands =>
    match field with
    | .column c _ =>
      ∃ operand ∈ operands, db.order (c.reading db row) (operand.meaning now) = .eq
    | _ => False
  | .contains needle =>
    match field with
    | .column c _ =>
      ∃ text, c.reading db row = .string text ∧ (Text.lower needle).toList <:+: text.toList
    | _ => False
  | .elemMatch filter =>
    match field with
    | .related base schema =>
      ∃ inner ∈ base.matched db row, filter.Holds db now inner (.nested schema)
    | _ => False
  | .marker => False

/-- A row matches all filters of a list. -/
def AllHold (db : Database) (now : Instant) (row : Env) (field : FieldDefinition) :
    List Filter → Prop
  | [] => True
  | filter :: rest => filter.Holds db now row field ∧ AllHold db now row field rest

/-- A row matches one of the filters of a list. -/
def AnyHolds (db : Database) (now : Instant) (row : Env) (field : FieldDefinition) :
    List Filter → Prop
  | [] => False
  | filter :: rest => filter.Holds db now row field ∨ AnyHolds db now row field rest

end

/-! ## Where the meaning is two-valued -/

mutual

/-- Tests without a case for `NULL` stand only on columns that cannot be `NULL`: the search for a
text, and a list of values without `null`. -/
def Guarded (field : FieldDefinition) : Filter → Prop
  | .all filters => AllGuarded field.inside filters
  | .any filters => AllGuarded field.inside filters
  | .not filter => filter.Guarded field
  | .field name filter =>
    ∀ fields crossed target, field.fields = some fields →
      fields.target? (segments name) = some (crossed, target) → filter.Guarded target
  | .oneOf operands =>
    operands.any Operand.isNull = true ∨ ∀ c below, field = .column c below → c.nullable = false
  | .contains _ => ∀ c below, field = .column c below → c.nullable = false
  | .elemMatch filter => filter.Guarded field.inside
  | _ => True

/-- Every filter of a list is guarded. -/
def AllGuarded (field : FieldDefinition) : List Filter → Prop
  | [] => True
  | filter :: rest => filter.Guarded field ∧ AllGuarded field rest

end

end Filter

mutual

/-- A field is a plain column, a group of fields, or a relation without groups and cuts, and so are
the fields below it. -/
inductive FieldDefinition.IsRelational : FieldDefinition → Prop where
  | column {c : FilterColumn} {below : Option Schema} (kind : c.kind.isJson = false)
      (fields : ∀ schema, below = some schema → schema.IsRelational) :
      FieldDefinition.IsRelational (.column c below)
  | nested {schema : Schema} (fields : schema.IsRelational) :
      FieldDefinition.IsRelational (.nested schema)
  | related {base : Select} {schema : Schema} (plain : base.IsPlain)
      (fields : schema.IsRelational) : FieldDefinition.IsRelational (.related base schema)

/-- The fields of a schema are plain columns, groups of fields, and relations. -/
inductive Schema.IsRelational : Schema → Prop where
  | intro {schema : Schema}
      (each : ∀ name field, schema.get? name = some field → field.IsRelational) :
      Schema.IsRelational schema

end

mutual

/-- The columns that are declared never to be `NULL` are not `NULL` on a row and on the rows related
to it. -/
inductive FieldDefinition.KeepsNotNull (db : Database) : FieldDefinition → Env → Prop where
  | column {c : FilterColumn} {below : Option Schema} {row : Env}
      (value : c.nullable = false → (c.expr.value db row).isNull = false)
      (fields : ∀ schema, below = some schema → schema.KeepsNotNull db row) :
      FieldDefinition.KeepsNotNull db (.column c below) row
  | nested {schema : Schema} {row : Env} (fields : schema.KeepsNotNull db row) :
      FieldDefinition.KeepsNotNull db (.nested schema) row
  | related {base : Select} {schema : Schema} {row : Env}
      (fields : ∀ inner ∈ base.matched db row, schema.KeepsNotNull db inner) :
      FieldDefinition.KeepsNotNull db (.related base schema) row

/-- The fields of a schema that are declared never to be `NULL` are not `NULL`. -/
inductive Schema.KeepsNotNull (db : Database) : Schema → Env → Prop where
  | intro {schema : Schema} {row : Env}
      (each : ∀ name field, schema.get? name = some field → field.KeepsNotNull db row) :
      Schema.KeepsNotNull db schema row

end

end FilterSql
