import FilterSql.Proofs.Sql.Like
import FilterSql.Proofs.Sql.Truth

/-!
# Databases

What the meaning of a statement depends on: the rows of the tables, and how the database orders
values, folds case and reads JSON. All rules about `NULL` are fixed here. A comparison with `NULL`
is unknown (`Database.test`), null-safe equality is not (`Database.nullSafeEq`), and for sorting
`NULL` is the smallest value (`Database.order`).
-/

namespace FilterSql

/-- A row of a table: the values of its columns by name. -/
abbrev TableRow := String → Option Value

/-- What a statement is run on. -/
structure Database where
  /-- The rows of a table. -/
  rows : String → List TableRow
  /-- The order of the values that are not `NULL`. -/
  compare : Value → Value → Ordering
  /-- The text that a value other than a text is turned into where a text is needed. -/
  text : Value → String
  /-- What `LOWER` makes of a text. -/
  lower : String → String
  /-- The value of a token of the statement's author. -/
  keyword : String → Value
  cast : String → Value → Value
  jsonExtract : Value → String → Value
  jsonUnquote : Value → Value
  jsonString : Value → String → Value
  isJsonNull : Value → Truth
  /-- Whether a JSON array holds a value, perhaps with its strings in lower case. -/
  arrayHolds : Value → Value → Bool → Bool
  /-- Whether a JSON array holds one of some values. -/
  arrayOverlaps : Value → List Value → Bool
  /-- The sum of values that are not `NULL`. -/
  sum : List Value → Value

/-- Whether an operator accepts the outcome of a comparison. -/
def CompareOp.accepts : CompareOp → Ordering → Bool
  | .eq, o => o == .eq
  | .neq, o => o != .eq
  | .gt, o => o == .gt
  | .gte, o => o != .lt
  | .lt, o => o == .lt
  | .lte, o => o != .gt

/-- The inverse of an operator accepts what the operator does not. -/
@[simp] theorem CompareOp.accepts_inverse (op : CompareOp) (o : Ordering) :
    op.inverse.accepts o = !op.accepts o := by
  cases op <;> cases o <;> rfl

/-- `NULL` is null. -/
@[simp] theorem Value.isNull_null : Value.isNull .null = true := rfl

/-- Only `NULL` is null. -/
theorem Value.isNull_iff {v : Value} : v.isNull = true ↔ v = .null := by
  cases v <;> simp [Value.isNull]

namespace Database

variable (db : Database)

/-! ## Comparisons -/

/-- A comparison of two values. -/
def test (op : CompareOp) (v w : Value) : Truth :=
  if v.isNull || w.isNull then .unknown else .ofBool (op.accepts (db.compare v w))

/-- Equality under which two `NULL`s are equal. -/
def nullSafeEq (v w : Value) : Bool :=
  if v.isNull || w.isNull then v.isNull && w.isNull else db.compare v w == .eq

/-- Membership in a list. -/
def isIn (v : Value) (values : List Value) : Truth :=
  .any (values.map (db.test .eq v))

/-- The order of values with `NULL` as the smallest. -/
def order (v w : Value) : Ordering :=
  match v.isNull, w.isNull with
  | true, true => .eq
  | true, false => .lt
  | false, true => .gt
  | false, false => db.compare v w

/-- Where no side is `NULL`, a comparison asks for the order of the values. -/
theorem test_of_not_null {op : CompareOp} {v w : Value} (hv : v.isNull = false)
    (hw : w.isNull = false) : db.test op v w = .ofBool (op.accepts (db.compare v w)) := by
  simp [test, hv, hw]

/-- Turning the operator round turns the outcome round. -/
theorem test_inverse (op : CompareOp) (v w : Value) :
    db.test op.inverse v w = (db.test op v w).not := by
  unfold test
  split
  · rfl
  · simp

/-- Null-safe equality is equality in the order. -/
theorem nullSafeEq_iff {v w : Value} : db.nullSafeEq v w = true ↔ db.order v w = .eq := by
  unfold nullSafeEq order
  cases v.isNull <;> cases w.isNull <;> simp

/-- `NULL` comes before everything else. -/
theorem order_null_left {v : Value} (hv : v.isNull = false) : db.order .null v = .lt := by
  simp only [order, Value.isNull_null, hv]

/-- Everything else comes after `NULL`. -/
theorem order_null_right {v : Value} (hv : v.isNull = false) : db.order v .null = .gt := by
  simp only [order, Value.isNull_null, hv]

/-- Values that are not `NULL` are in the order of the database. -/
theorem order_of_not_null {v w : Value} (hv : v.isNull = false) (hw : w.isNull = false) :
    db.order v w = db.compare v w := by
  simp [order, hv, hw]

/-- Where no side is `NULL`, a comparison is known. -/
theorem test_outcome (op : CompareOp) {v w : Value} (hv : v.isNull = false)
    (hw : w.isNull = false) : (db.test op v w).Says (op.accepts (db.order v w) = true) := by
  rw [test_of_not_null db hv hw, order_of_not_null db hv hw]
  exact Truth.says_ofBool

/-- A comparison with a value that is not `NULL` holds where the other side is not `NULL` either. -/
theorem test_holds_iff {op : CompareOp} {v w : Value} (hw : w.isNull = false) :
    db.test op v w = .holds ↔ v.isNull = false ∧ op.accepts (db.order v w) = true := by
  by_cases hv : v.isNull = true
  · simp [test, hv]
  · rw [Bool.not_eq_true] at hv
    rw [test_of_not_null db hv hw, order_of_not_null db hv hw, Truth.ofBool_eq_holds,
      and_iff_right hv]

/-- An operator that does not accept smaller values needs no guard against `NULL`. -/
theorem test_holds_iff_accepts {op : CompareOp} {v w : Value} (hop : op.accepts .lt = false)
    (hw : w.isNull = false) : db.test op v w = .holds ↔ op.accepts (db.order v w) = true := by
  rw [test_holds_iff db hw, and_iff_right_iff_imp]
  intro haccepts
  by_contra hv
  rw [Bool.not_eq_false] at hv
  rw [Value.isNull_iff.1 hv, order_null_left db hw, hop] at haccepts
  cases haccepts

/-! ## Texts -/

/-- A value as a text. -/
def textOf : Value → String
  | .string s => s
  | v => db.text v

/-- The text of a value in lower case, `NULL` for `NULL`. -/
def lowered (v : Value) : Value :=
  if v.isNull then .null else .string (db.lower (db.textOf v))

/-- A test with a pattern. -/
def isLike (v pattern : Value) : Truth :=
  if v.isNull || pattern.isNull then .unknown
  else .ofBool (Like.Matches (db.textOf pattern) (db.textOf v))

/-- A text is tested against a pattern with a known result. -/
theorem isLike_string (pattern text : String) :
    db.isLike (.string text) (.string pattern) = .ofBool (Like.Matches pattern text) :=
  rfl

/-- The order of values of one kind. -/
def plainOrder : Value → Value → Ordering
  | .bool a, .bool b => Ord.compare a b
  | .int a, .int b => Ord.compare a.toInt b.toInt
  | .string a, .string b => Ord.compare a b
  | .instant a, .instant b => a.order b
  | _, _ => .eq

/-- The database with given tables that does no more than order values of one kind. -/
def plain (rows : String → List TableRow) : Database where
  rows := rows
  compare := plainOrder
  text _ := ""
  lower := Text.lower
  keyword _ := .null
  cast _ v := v
  jsonExtract _ _ := .null
  jsonUnquote v := v
  jsonString _ _ := .null
  isJsonNull _ := .fails
  arrayHolds _ _ _ := false
  arrayOverlaps _ _ := false
  sum _ := .null

end Database

/-! ## Names in a statement -/

/-- What the names in a statement stand for: its own table and that of the enclosing statement, and
the rows of the tables in sight, those of inner statements first. -/
structure Env where
  own : Option String
  enclosing : Option String
  tables : List (String × TableRow)

namespace Env

/-- Outside all statements. -/
def top : Env := ⟨none, none, []⟩

/-- A column of a table that is named. -/
def qualified (env : Env) (table name : String) : Value :=
  ((env.tables.find? (·.1 = table)).bind (·.2 name)).getD .null

/-- A column without a table: that of the first table that has it. -/
def bare (env : Env) (name : String) : Value :=
  (env.tables.findSome? (·.2 name)).getD .null

/-- The value of a column. -/
def column (env : Env) (c : Column) : Value :=
  match c.qualifier with
  | .own =>
    match env.own with
    | some table => env.qualified table c.name.text
    | none => env.bare c.name.text
  | .enclosing =>
    match env.enclosing with
    | some table => env.qualified table c.name.text
    | none => .null
  | .named table => env.qualified table.text c.name.text

/-- Within a statement that stands in another one and has no table. -/
def inside (env : Env) : Env :=
  { env with own := none, enclosing := env.own }

/-- Within a statement that stands in another one, at a row of its own table. -/
def onRow (env : Env) (table : String) (row : TableRow) : Env :=
  ⟨some table, env.own, (table, row) :: env.tables⟩

/-- With the row of one more table in sight. -/
def joined (env : Env) (table : String) (row : TableRow) : Env :=
  { env with tables := (table, row) :: env.tables }

/-- As the condition of a join sees it, where the joined table is the own one. -/
def atJoin (env : Env) (table : String) : Env :=
  { env with own := some table, enclosing := env.own }

end Env

/-- What expressions are evaluated on: a row, or a group of rows and one that stands for them. -/
structure RowGroup where
  env : Env
  rows : List Env

/-- A row by itself. -/
def RowGroup.single (env : Env) : RowGroup := ⟨env, [env]⟩

end FilterSql
