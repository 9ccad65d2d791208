import FilterSql.Compile.Operand
import FilterSql.Schema.Column
import FilterSql.Sql.Condition

/-!
# Tests on one column

What the operators of a filter ask of a column. `NULL` equals `NULL` and is smaller than every
value, as in the order of rows; on a nullable column each comparison says so, which keeps its
negation right where the column is `NULL`.
-/

namespace FilterSql.FilterColumn

/-- The text of a column in lower case. -/
def lowerText (c : FilterColumn) : Expr :=
  match c.kind with
  | .jsonString => .lower (.jsonUnquote c.expr)
  | _ => .lower c.expr

/-- The expression that a value is compared with: strings are compared with the text in lower
case. -/
def target (c : FilterColumn) : Value → Expr
  | .string _ => if c.kind.isText then c.lowerText else c.expr
  | _ => c.expr

/-- The column is `NULL`, or a stored JSON `null`. -/
def isNothing (c : FilterColumn) : Condition :=
  if c.kind.isJson then (Condition.isJsonNull c.expr).or (.null c.expr) else .null c.expr

/-- The JSON array of the column holds a value. Strings are found in lower case, and `null` is
found in a column that is `NULL`. -/
def holds (c : FilterColumn) : Value → Condition
  | .string s => .arrayContains c.expr (.string s) true
  | .null => (Condition.arrayContains c.expr .null false).or (.null c.expr)
  | value => .arrayContains c.expr value false

/-- The column equals a value. -/
def equals (c : FilterColumn) (value : Value) : Condition :=
  match c.kind with
  | .jsonArray => c.holds value
  | _ =>
    if value.isNull then c.isNothing
    else if c.nullable then .nullSafeEq (c.target value) (.param value)
    else .eq (c.target value) (.param value)

/-- The column is greater than a value. -/
def above (c : FilterColumn) (value : Value) : Predicate :=
  if value.isNull then
    if c.nullable then .condition (.notNull c.expr) else .always
  else
    let greater := Condition.compare (c.target value) .gt (.param value)
    .condition (if c.nullable then (Condition.notNull c.expr).and greater else greater)

/-- The column is less than a value. -/
def below (c : FilterColumn) (value : Value) : Predicate :=
  if value.isNull then .never
  else
    let less := Condition.compare (c.target value) .lt (.param value)
    .condition (if c.nullable then (Condition.null c.expr).or less else less)

/-- The column compares with an operand as an operator says. -/
def compare (now : Instant) (c : FilterColumn) (op : CompareOp) (operand : Operand) :
    Except FilterFault Predicate :=
  (operand.toValue now c.kind).map fun value =>
    match op with
    | .eq => .condition (c.equals value)
    | .neq => (Predicate.condition (c.equals value)).negate
    | .gt => c.above value
    | .lte => (c.above value).negate
    | .lt => c.below value
    | .gte => (c.below value).negate

/-- The column equals one of some values, none of which is `NULL`. The first value tells how the
column is compared. -/
def isAmong (c : FilterColumn) (values : List Value) : Condition :=
  match c.kind, values with
  | .jsonArray, values => .overlaps c.expr values
  | _, [value] => .eq (c.target value) (.param value)
  | _, [] => .oneOf c.expr [] false
  | _, first :: rest => .oneOf (c.target first) (first :: rest) false

/-- The column equals one of a list of operands. -/
def oneOf (now : Instant) (maxValues : Nat) (c : FilterColumn) (operands : List Operand) :
    Except FilterFault Predicate :=
  if maxValues < operands.length then .error (.tooManyValues maxValues operands.length)
  else if operands.isEmpty then .ok .never
  else
    (Operand.toValues now c.kind (operands.filter (!·.isNull))).map fun values =>
      if !operands.any (·.isNull) then .condition (c.isAmong values)
      else if values.isEmpty then .condition (c.equals .null)
      else .condition ((c.equals .null).or (c.isAmong values))

/-- A text in which the characters with a meaning in patterns stand for themselves. -/
def escapePattern (s : List Char) : List Char :=
  s.flatMap fun c => if c = '\\' ∨ c = '%' ∨ c = '_' then ['\\', c] else [c]

/-- The pattern of the texts that contain a given one. -/
def containsPattern (needle : String) : String :=
  "%" ++ String.ofList (escapePattern (Text.lower needle).toList) ++ "%"

/-- The text of the column contains a text, letter case aside. -/
def contains (c : FilterColumn) (needle : String) : Except FilterFault Predicate :=
  if c.kind.isText then
    .ok (.condition (.like c.lowerText (.string (containsPattern needle)) false))
  else .error (.typeMismatch "string" c.kind)

end FilterSql.FilterColumn
