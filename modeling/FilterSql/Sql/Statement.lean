import FilterSql.Sql.Condition

/-!
# Building statements

`SELECT` statements are put together part by part; the aggregates `Select.toCount`, `Select.toSum`
and `Select.toExists` keep what chooses the rows and drop order and paging. `INSERT` and `UPDATE`
statements have a table of their own and no subtypes.
-/

namespace FilterSql

namespace Select

/-- The statement with no parts. -/
def empty : Select :=
  ⟨[], none, [], .always, [], none, [], none, none, none⟩

instance : Inhabited Select := ⟨empty⟩

/-- The statement on a table. -/
def fromTable (s : Select) (table : Table) : Select :=
  { s with source := some table }

/-- The statement with one more item. -/
def select (s : Select) (expr : Expr) (asName : Option Identifier) : Select :=
  { s with items := s.items ++ [⟨expr, asName⟩] }

/-- The statement with one more column of its own table. -/
def column (s : Select) (name : String) : Except NameError Select := do
  return s.select (.column (← Column.ofName name)) none

/-- The statement with more columns of its own table. -/
def columns (s : Select) : List String → Except NameError Select
  | [] => .ok s
  | name :: rest => do (← s.column name).columns rest

/-- The statement with a join, unless an equal one is there. -/
def join (s : Select) (join : Join) : Select :=
  if s.joins.contains join then s else { s with joins := s.joins ++ [join] }

/-- The statement on the rows that meet a predicate as well. -/
def restrict (s : Select) (predicate : Predicate) : Select :=
  { s with filter := s.filter.and predicate }

/-- The statement on the rows that meet a condition as well. -/
def restrictBy (s : Select) (condition : Condition) : Select :=
  s.restrict (.condition condition)

/-- The statement grouped by one more expression. -/
def groupedBy (s : Select) (expr : Expr) : Select :=
  { s with groupBy := s.groupBy ++ [expr] }

/-- The statement on the groups that meet a condition. -/
def havingOnly (s : Select) (condition : Condition) : Select :=
  { s with having := some condition }

/-- The statement with one more term in its order. -/
def ordered (s : Select) (term : OrderTerm) : Select :=
  { s with orderBy := s.orderBy ++ [term] }

/-- The statement on at most some rows. -/
def limited (s : Select) (limit : Nat) : Select :=
  { s with limit := some limit }

/-- The statement on the rows after the first ones. -/
def skipping (s : Select) (offset : Nat) : Select :=
  { s with offset := some offset }

/-- The statement with a bound on its time. -/
def within (s : Select) (milliseconds : Nat) : Select :=
  { s with timeout := some milliseconds }

/-- Whether the statement matches every row or none, if that is known without a row. -/
def decided? (s : Select) : Option Bool :=
  s.filter.decided?

/-- The name of the one column of an aggregate. -/
def aggregateAlias : Identifier := ⟨"c", by decide⟩

/-- The statement that computes one value over the rows. -/
def aggregate (s : Select) (expr : Expr) : Select :=
  { s with
    items := [⟨expr, some aggregateAlias⟩], orderBy := [], limit := none, offset := none }

/-- The statement that counts the rows, or the rows on which an expression is not `NULL`. -/
def toCount (s : Select) (expr : Option Expr) : Select :=
  s.aggregate (match expr with | some e => .count e | none => .countRows)

/-- The statement that adds up an expression over the rows. -/
def toSum (s : Select) (expr : Expr) : Select :=
  s.aggregate (.sum expr)

/-- The statement that says whether there is a row. The bound on the time moves outwards. -/
def toExists (s : Select) : Select :=
  let inner : Select :=
    { s with
      items := [⟨.keyword "1", none⟩], orderBy := [], limit := none, offset := none,
      timeout := none }
  { empty with items := [⟨.exists inner, some aggregateAlias⟩], timeout := s.timeout }

end Select

/-- What an `INSERT` does with a row whose conflict columns are there already. -/
structure Upsert where
  conflict : List Identifier
  update : List Identifier

/-- An `INSERT` statement. -/
structure Insert where
  table : Table
  columns : List Identifier
  rows : List (List Expr)
  upsert : Option Upsert

namespace Insert

/-- The statement on a table, without columns and rows. -/
def into (table : Table) : Insert :=
  ⟨table, [], [], none⟩

/-- The statement with its columns set. -/
def withColumns (s : Insert) (names : List String) : Except NameError Insert := do
  return { s with columns := ← names.mapM (Identifier.check "column") }

/-- The statement with one more row of expressions. -/
def row (s : Insert) (exprs : List Expr) : Insert :=
  { s with rows := s.rows ++ [exprs] }

/-- The statement with one more row of bound values. -/
def values (s : Insert) (row : List Value) : Insert :=
  s.row (row.map .param)

/-- The statement with more rows of bound values. -/
def valuesMany (s : Insert) (rows : List (List Value)) : Insert :=
  rows.foldl values s

/-- The statement that updates some columns of a row that is there already. -/
def onConflict (s : Insert) (conflict update : List String) : Except NameError Insert := do
  let conflict ← conflict.mapM (Identifier.check "upsert column")
  return { s with upsert := some ⟨conflict, ← update.mapM (Identifier.check "upsert column")⟩ }

end Insert

/-- An `UPDATE` statement. -/
structure Update where
  table : Table
  assignments : List (Identifier × Expr)
  filter : Predicate

namespace Update

/-- The statement on a table, without assignments. -/
def on (table : Table) : Update :=
  ⟨table, [], .always⟩

/-- The statement with one more assignment. -/
def set (s : Update) (column : String) (value : Expr) : Except NameError Update := do
  return { s with assignments := s.assignments ++ [(← Identifier.check "column" column, value)] }

/-- The statement with more assignments of bound values. -/
def setMany (s : Update) : List (String × Value) → Except NameError Update
  | [] => .ok s
  | (column, value) :: rest => do (← s.set column (.param value)).setMany rest

/-- The statement on the rows that meet a predicate as well. -/
def restrict (s : Update) (predicate : Predicate) : Update :=
  { s with filter := s.filter.and predicate }

/-- Whether the statement matches every row or none, if that is known without a row. -/
def decided? (s : Update) : Option Bool :=
  s.filter.decided?

end Update

end FilterSql
