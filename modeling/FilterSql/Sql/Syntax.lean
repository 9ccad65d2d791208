import FilterSql.JsonPath
import FilterSql.Value

/-!
# The syntax of queries

Value expressions, conditions, joins and `SELECT` statements as one family of types, since a
subquery can stand in an expression and in a condition. Names are identifiers and fixed paths, so a
statement can hold text from a caller only as a bound value. `same` is the equality of the family,
which compares bound values as `Value.same` does; joins are told apart by it.
-/

namespace FilterSql

/-- The six comparison operators. -/
inductive CompareOp where
  | eq
  | neq
  | gt
  | gte
  | lt
  | lte
  deriving DecidableEq

namespace CompareOp

/-- The operator in SQL. -/
def symbol : CompareOp → String
  | eq => "="
  | neq => "!="
  | gt => ">"
  | gte => ">="
  | lt => "<"
  | lte => "<="

/-- The operator in a filter. -/
def keyword : CompareOp → String
  | eq => "$eq"
  | neq => "$neq"
  | gt => "$gt"
  | gte => "$gte"
  | lt => "$lt"
  | lte => "$lte"

/-- The operator with a given keyword. -/
def ofKeyword? (keyword : String) : Option CompareOp :=
  if keyword = "$eq" then some eq
  else if keyword = "$neq" then some neq
  else if keyword = "$gt" then some gt
  else if keyword = "$gte" then some gte
  else if keyword = "$lt" then some lt
  else if keyword = "$lte" then some lte
  else none

/-- The operator that holds exactly where this one fails. -/
def inverse : CompareOp → CompareOp
  | eq => neq
  | neq => eq
  | gt => lte
  | lte => gt
  | lt => gte
  | gte => lt

end CompareOp

/-- The direction of an order. -/
inductive Direction where
  /-- Smallest first, `NULL` before all values. -/
  | asc
  /-- Largest first, `NULL` after all values. -/
  | desc
  deriving DecidableEq, Inhabited

namespace Direction

/-- The direction in SQL. -/
def keyword : Direction → String
  | asc => "ASC"
  | desc => "DESC"

/-- The opposite direction. -/
def reverse : Direction → Direction
  | asc => desc
  | desc => asc

end Direction

/-- The table that a column belongs to. -/
inductive Qualifier where
  /-- The table of the statement that the column stands in. -/
  | own
  /-- The table of the enclosing statement. -/
  | enclosing
  /-- A table or alias by name. -/
  | named (table : Identifier)
  deriving DecidableEq

/-- A column. -/
structure Column where
  qualifier : Qualifier
  name : Identifier
  deriving DecidableEq

/-- A table, perhaps under an alias. -/
structure Table where
  name : Identifier
  asName : Option Identifier
  deriving DecidableEq

namespace Column

/-- A column of the statement's own table. -/
def ofName (name : String) : Except NameError Column :=
  (Identifier.check "column" name).map (⟨.own, ·⟩)

/-- A column of the enclosing statement's table. -/
def enclosing (name : String) : Except NameError Column :=
  (Identifier.check "column" name).map (⟨.enclosing, ·⟩)

/-- A column of a table that is named; the table is looked at first. -/
def qualified (table name : String) : Except NameError Column := do
  let table ← Identifier.check "table" table
  return ⟨.named table, ← Identifier.check "column" name⟩

end Column

namespace Table

/-- A table without an alias. -/
def ofName (name : String) : Except NameError Table :=
  (Identifier.check "table" name).map (⟨·, none⟩)

/-- A table under an alias; the alias is looked at first. -/
def aliased (name asName : String) : Except NameError Table := do
  let asName ← Identifier.check "alias" asName
  return ⟨← Identifier.check "table" name, some asName⟩

/-- The name that the table's columns are qualified with. -/
def namespaceText (t : Table) : String :=
  (t.asName.getD t.name).text

/-- The table as it stands in `FROM` and in a join. -/
def text (t : Table) : String :=
  match t.asName with
  | some asName => t.name.text ++ " " ++ asName.text
  | none => t.name.text

end Table

/-- The two kinds of join. -/
inductive JoinKind where
  /-- Keeps the rows that have no partner. -/
  | left
  /-- Drops the rows that have no partner. -/
  | inner
  deriving DecidableEq

mutual

/-- A value expression. -/
inductive Expr where
  | column (column : Column)
  | param (value : Value)
  | null
  /-- A token of the statement's author, such as `1` or `NOW()`. -/
  | keyword (text : String)
  | lower (expr : Expr)
  | cast (expr : Expr) (type : String)
  /-- The document at a path of a JSON document. -/
  | jsonExtract (target : Expr) (path : JsonPath)
  /-- An extracted JSON scalar as SQL text. -/
  | jsonUnquote (expr : Expr)
  /-- The JSON string at a fixed path of a column, `NULL` for every other JSON type. -/
  | jsonString (column : Column) (path : FixedPath)
  | countRows
  | count (expr : Expr)
  | sum (expr : Expr)
  | coalesce (exprs : List Expr)
  | subquery (query : Select)
  | exists (query : Select)

/-- A condition on a row. -/
inductive Condition where
  | compare (left : Expr) (op : CompareOp) (right : Expr)
  /-- Equality under which two `NULL`s are equal. -/
  | nullSafeEq (left right : Expr)
  | isNull (expr : Expr) (negated : Bool)
  /-- The expression is a stored JSON `null`. -/
  | isJsonNull (expr : Expr)
  | oneOf (expr : Expr) (values : List Value) (negated : Bool)
  | like (expr : Expr) (pattern : Value) (negated : Bool)
  /-- A JSON array holds an element; with `foldCase` its strings are compared in lower case. -/
  | arrayContains (column : Expr) (value : Value) (foldCase : Bool)
  /-- A JSON array holds at least one of the values. -/
  | overlaps (column : Expr) (values : List Value)
  | exists (query : Select) (negated : Bool)
  /-- The statement needs a join; nothing is asked of the row. -/
  | requires (join : Join)
  /-- A condition on the row that a join adds; the statement needs the join. -/
  | joined (join : Join) (inner : Condition)
  /-- All of the conditions hold. -/
  | all (conditions : List Condition)
  /-- At least one of the conditions holds. -/
  | any (conditions : List Condition)
  | not (condition : Condition)

/-- What a filter asks of a row, with the two outcomes that need no database kept apart. -/
inductive Predicate where
  /-- Every row matches. -/
  | always
  /-- No row matches. -/
  | never
  | condition (condition : Condition)

/-- A join. Its condition is read with the joined table as the own table and the table of the
statement as the enclosing one. -/
structure Join where
  kind : JoinKind
  table : Table
  on : Condition

/-- A selected expression, perhaps under an alias. -/
structure SelectItem where
  expr : Expr
  asName : Option Identifier

/-- A term of an order. -/
structure OrderTerm where
  expr : Expr
  direction : Direction

/-- A `SELECT` statement. -/
structure Select where
  items : List SelectItem
  source : Option Table
  joins : List Join
  filter : Predicate
  groupBy : List Expr
  having : Option Condition
  orderBy : List OrderTerm
  limit : Option Nat
  offset : Option Nat
  /-- The milliseconds that the statement may take. -/
  timeout : Option Nat

end

instance : Inhabited Expr := ⟨.null⟩
instance : Inhabited Condition := ⟨.all []⟩
instance : Inhabited Predicate := ⟨.always⟩

/-! ## Equality -/

mutual

/-- Whether two expressions are equal. -/
def Expr.same : Expr → Expr → Bool
  | .column a, .column b => a == b
  | .param a, .param b => a.same b
  | .null, .null => true
  | .keyword a, .keyword b => a == b
  | .lower a, .lower b => a.same b
  | .cast a s, .cast b t => a.same b && s == t
  | .jsonExtract a p, .jsonExtract b q => a.same b && p == q
  | .jsonUnquote a, .jsonUnquote b => a.same b
  | .jsonString a p, .jsonString b q => a == b && p == q
  | .countRows, .countRows => true
  | .count a, .count b => a.same b
  | .sum a, .sum b => a.same b
  | .coalesce as, .coalesce bs => Expr.sameAll as bs
  | .subquery a, .subquery b => a.same b
  | .exists a, .exists b => a.same b
  | _, _ => false
termination_by structural x => x

/-- Whether two lists hold equal expressions in turn. -/
def Expr.sameAll : List Expr → List Expr → Bool
  | [], [] => true
  | a :: as, b :: bs => a.same b && Expr.sameAll as bs
  | _, _ => false
termination_by structural x => x

/-- Whether two conditions are equal. -/
def Condition.same : Condition → Condition → Bool
  | .compare a o b, .compare c p d => a.same c && o == p && b.same d
  | .nullSafeEq a b, .nullSafeEq c d => a.same c && b.same d
  | .isNull a m, .isNull b n => a.same b && m == n
  | .isJsonNull a, .isJsonNull b => a.same b
  | .oneOf a vs m, .oneOf b ws n => a.same b && Value.sameAll vs ws && m == n
  | .like a v m, .like b w n => a.same b && v.same w && m == n
  | .arrayContains a v f, .arrayContains b w g => a.same b && v.same w && f == g
  | .overlaps a vs, .overlaps b ws => a.same b && Value.sameAll vs ws
  | .exists a m, .exists b n => a.same b && m == n
  | .requires a, .requires b => a.same b
  | .joined a c, .joined b d => a.same b && c.same d
  | .all as, .all bs => Condition.sameAll as bs
  | .any as, .any bs => Condition.sameAll as bs
  | .not a, .not b => a.same b
  | _, _ => false
termination_by structural x => x

/-- Whether two lists hold equal conditions in turn. -/
def Condition.sameAll : List Condition → List Condition → Bool
  | [], [] => true
  | a :: as, b :: bs => a.same b && Condition.sameAll as bs
  | _, _ => false
termination_by structural x => x

/-- Whether two predicates are equal. -/
def Predicate.same : Predicate → Predicate → Bool
  | .always, .always => true
  | .never, .never => true
  | .condition a, .condition b => a.same b
  | _, _ => false
termination_by structural x => x

/-- Whether two joins are equal. -/
def Join.same : Join → Join → Bool
  | ⟨k, t, a⟩, ⟨l, u, b⟩ => k == l && t == u && a.same b
termination_by structural x => x

/-- Whether two lists hold equal joins in turn. -/
def Join.sameAll : List Join → List Join → Bool
  | [], [] => true
  | a :: as, b :: bs => a.same b && Join.sameAll as bs
  | _, _ => false
termination_by structural x => x

/-- Whether two lists hold equal items in turn. -/
def SelectItem.sameAll : List SelectItem → List SelectItem → Bool
  | [], [] => true
  | ⟨a, s⟩ :: as, ⟨b, t⟩ :: bs => a.same b && s == t && SelectItem.sameAll as bs
  | _, _ => false
termination_by structural x => x

/-- Whether two lists hold equal terms in turn. -/
def OrderTerm.sameAll : List OrderTerm → List OrderTerm → Bool
  | [], [] => true
  | ⟨a, s⟩ :: as, ⟨b, t⟩ :: bs => a.same b && s == t && OrderTerm.sameAll as bs
  | _, _ => false
termination_by structural x => x

/-- Whether two statements are equal. -/
def Select.same : Select → Select → Bool
  | ⟨items, source, joins, filter, groupBy, having, orderBy, limit, offset, timeout⟩, other =>
    SelectItem.sameAll items other.items && source == other.source &&
      Join.sameAll joins other.joins && filter.same other.filter &&
      Expr.sameAll groupBy other.groupBy &&
      (match having, other.having with
        | none, none => true
        | some a, some b => a.same b
        | _, _ => false) &&
      OrderTerm.sameAll orderBy other.orderBy && limit == other.limit &&
      offset == other.offset && timeout == other.timeout
termination_by structural x => x

end

instance : BEq Join := ⟨Join.same⟩

end FilterSql
