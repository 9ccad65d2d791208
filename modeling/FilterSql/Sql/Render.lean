import FilterSql.Sql.Dialect
import FilterSql.Sql.Statement

/-!
# Rendering

A statement becomes SQL text with placeholders and the list of values they stand for. Rendering
threads the values bound so far, from left to right through the text, so a placeholder's number is
the place of its value. Columns are qualified through `Namespaces`: a statement inside another one
has its own table as the own namespace and that of the outer statement as the enclosing one.
-/

namespace FilterSql

/-- What keeps a statement from being rendered. -/
inductive RenderError where
  /-- A column of the enclosing statement where there is none. -/
  | missingNamespace (column : String)
  /-- Conditions or joins without a table. -/
  | missingFrom
  /-- An `INSERT` without columns or without rows. -/
  | emptyInsert
  /-- A row of an `INSERT` with too few or too many values. -/
  | rowWidth (expected actual : Nat)
  /-- An `UPDATE` without assignments. -/
  | emptyUpdate
  deriving DecidableEq

/-- What the fault is. -/
def RenderError.message : RenderError → String
  | .missingNamespace column =>
    "column `" ++ column ++ "` references the parent namespace, but none is set"
  | .missingFrom => "SELECT has filters or joins but no FROM table"
  | .emptyInsert => "INSERT requires at least one column and one row"
  | .rowWidth expected actual =>
    "INSERT row has " ++ Json.natText actual ++ " values, expected " ++ Json.natText expected
  | .emptyUpdate => "UPDATE requires at least one assignment"

/-- The name of the kind of fault. -/
def RenderError.name : RenderError → String
  | .missingNamespace _ => "MissingNamespace"
  | .missingFrom => "MissingFrom"
  | .emptyInsert => "EmptyInsert"
  | .rowWidth _ _ => "RowWidthMismatch"
  | .emptyUpdate => "EmptyUpdate"

/-- The tables that columns are qualified with. -/
structure Namespaces where
  own : Option String
  enclosing : Option String
  deriving DecidableEq, Inhabited

namespace Namespaces

/-- No tables: columns stand unqualified. -/
def none : Namespaces := ⟨.none, .none⟩

/-- The namespaces of a statement or join inside this one. -/
def inside (n : Namespaces) (own : Option String) : Namespaces :=
  ⟨own, n.own⟩

end Namespaces

/-- SQL text with placeholders, and the values they stand for. -/
structure Statement where
  text : String
  values : List Value

/-- The request for the plan of a statement. -/
def Statement.explain (s : Statement) (d : Dialect) : Statement :=
  { s with text := d.planHead ++ s.text }

/-- A step of rendering: from the values bound so far to a result and the values bound then. -/
abbrev Render := StateT (Array Value) (Except RenderError)

namespace Render

/-- Binds a value and gives its placeholder. -/
def bind (d : Dialect) (value : Value) : Render String := fun bound =>
  .ok (d.placeholder (bound.size + 1), bound.push value)

/-- Binds the values of a text that numbers its placeholders itself, from the number it is
given. -/
def bindAll (fragment : Nat → String × List Value) : Render String := fun bound =>
  let (text, values) := fragment (bound.size + 1)
  .ok (text, bound ++ values.toArray)

/-- Runs a rendering from no values. -/
def run (render : Render String) : Except RenderError Statement :=
  match StateT.run render #[] with
  | .ok (text, bound) => .ok ⟨text, bound.toList⟩
  | .error e => .error e

end Render

/-- A column with its table. -/
def Column.render (n : Namespaces) (c : Column) : Except RenderError String :=
  match c.qualifier with
  | .own =>
    match n.own with
    | some table => .ok (table ++ "." ++ c.name.text)
    | none => .ok c.name.text
  | .enclosing =>
    match n.enclosing with
    | some table => .ok (table ++ "." ++ c.name.text)
    | none => .error (.missingNamespace c.name.text)
  | .named table => .ok (table.text ++ "." ++ c.name.text)

/-- A path: in quotes, or as a placeholder. -/
def JsonPath.render (d : Dialect) : JsonPath → Render String
  | .fixed path => return "'" ++ path.text ++ "'"
  | .bound text => Render.bind d (.string text)

/-- A text in parentheses, unless it needs none. -/
def Condition.enclosed (condition : Condition) (text : String) : String :=
  if condition.isSingle then text else "(" ++ text ++ ")"

/-- Whether a predicate is met by every row without asking the database. -/
def Predicate.isAlways : Predicate → Bool
  | .always => true
  | _ => false

mutual

/-- The text of an expression. -/
def Expr.render (d : Dialect) (n : Namespaces) : Expr → Render String
  | .column column => column.render n
  | .param value => Render.bind d value
  | .null => return "NULL"
  | .keyword text => return text
  | .lower expr => return "LOWER(" ++ (← expr.render d n) ++ ")"
  | .cast expr type => return "CAST(" ++ (← expr.render d n) ++ " AS " ++ type ++ ")"
  | .jsonExtract target path => do
    let target ← target.render d n
    return d.jsonExtract target (← path.render d)
  | .jsonUnquote expr => return d.jsonUnquote (← expr.render d n)
  | .jsonString column path => return d.jsonString (← column.render n) ("'" ++ path.text ++ "'")
  | .countRows => return "COUNT(*)"
  | .count expr => return "COUNT(" ++ (← expr.render d n) ++ ")"
  | .sum expr => return "SUM(" ++ (← expr.render d n) ++ ")"
  | .coalesce exprs => return "COALESCE(" ++ Text.join ", " (← Expr.renderAll d n exprs) ++ ")"
  | .subquery query => return "(" ++ (← query.render d n) ++ ")"
  | .exists query => return "EXISTS (" ++ (← query.render d n) ++ ")"
termination_by structural x => x

/-- The texts of a list of expressions. -/
def Expr.renderAll (d : Dialect) (n : Namespaces) : List Expr → Render (List String)
  | [] => return []
  | expr :: rest => do
    let text ← expr.render d n
    return text :: (← Expr.renderAll d n rest)
termination_by structural x => x

/-- The text of a condition. -/
def Condition.render (d : Dialect) (n : Namespaces) : Condition → Render String
  | .compare left op right => do
    let left ← left.render d n
    return left ++ " " ++ op.symbol ++ " " ++ (← right.render d n)
  | .nullSafeEq left right => do
    let left ← left.render d n
    return d.nullSafeEq left (← right.render d n)
  | .isNull expr negated => do
    return (← expr.render d n) ++ (if negated then " IS NOT NULL" else " IS NULL")
  | .isJsonNull expr => do
    let text ← expr.render d n
    return (d.jsonNullTest? text).getD (text ++ " IS NULL")
  | .oneOf expr values negated => do
    let field ← expr.render d n
    if values.isEmpty then return d.boolText negated
    else
      Render.bindAll fun first =>
        if negated then d.isNotIn field values first else d.isIn field values first
  | .like expr pattern negated => do
    let field ← expr.render d n
    return d.like field (← Render.bind d pattern) negated
  | .arrayContains column value foldCase => do
    let column ← column.render d n
    return d.arrayContains column (← Render.bind d (d.arrayParameter value foldCase)) foldCase
  | .overlaps column values => do
    let column ← column.render d n
    return d.overlaps column (← Render.bind d (.jsonArray values))
  | .exists query negated => do
    return (if negated then "NOT EXISTS (" else "EXISTS (") ++ (← query.render d n) ++ ")"
  | .requires _ => return d.boolText true
  | .joined _ inner => inner.render d n
  | .all conditions => do
    let parts ← Condition.renderConjuncts d n conditions
    return if parts.isEmpty then d.boolText true else Text.join " AND " parts
  | .any conditions => do
    let parts ← Condition.renderDisjuncts d n conditions
    return if conditions.isEmpty then d.boolText false else Text.join " OR " parts
  | .not condition => return "NOT (" ++ (← condition.render d n) ++ ")"
termination_by structural x => x

/-- The texts of the conditions of a conjunction; those that ask nothing are left out. -/
def Condition.renderConjuncts (d : Dialect) (n : Namespaces) :
    List Condition → Render (List String)
  | [] => return []
  | c :: rest => do
    if c.isVacuous then Condition.renderConjuncts d n rest
    else
      let text ← c.render d n
      return c.enclosed text :: (← Condition.renderConjuncts d n rest)
termination_by structural x => x

/-- The texts of the conditions of a disjunction. -/
def Condition.renderDisjuncts (d : Dialect) (n : Namespaces) :
    List Condition → Render (List String)
  | [] => return []
  | c :: rest => do
    let text ← c.render d n
    return c.enclosed text :: (← Condition.renderDisjuncts d n rest)
termination_by structural x => x

/-- The texts of the joins that a condition needs and that are not among those found so far, and
all joins found then. -/
def Condition.renderJoins (d : Dialect) (n : Namespaces) (found : List Join) :
    Condition → Render (List String × List Join)
  | .requires join => do
    if found.contains join then return ([], found)
    else return ([← join.render d n], found ++ [join])
  | .joined join inner => do
    if found.contains join then inner.renderJoins d n found
    else
      let text ← join.render d n
      let (texts, found) ← inner.renderJoins d n (found ++ [join])
      return (text :: texts, found)
  | .all conditions => Condition.renderJoinsAll d n found conditions
  | .any conditions => Condition.renderJoinsAll d n found conditions
  | .not condition => condition.renderJoins d n found
  | _ => return ([], found)
termination_by structural x => x

/-- The texts of the new joins that a list of conditions needs, and all joins found then. -/
def Condition.renderJoinsAll (d : Dialect) (n : Namespaces) (found : List Join) :
    List Condition → Render (List String × List Join)
  | [] => return ([], found)
  | c :: rest => do
    let (texts, found) ← c.renderJoins d n found
    let (more, found) ← Condition.renderJoinsAll d n found rest
    return (texts ++ more, found)
termination_by structural x => x

/-- The texts of the joins that a predicate needs beside those found so far. -/
def Predicate.renderJoins (d : Dialect) (n : Namespaces) (found : List Join) :
    Predicate → Render (List String)
  | .condition c => return (← c.renderJoins d n found).1
  | _ => return []
termination_by structural x => x

/-- The `WHERE` clause of a predicate, with a blank in front; none where nothing is asked. -/
def Predicate.renderWhere (d : Dialect) (n : Namespaces) : Predicate → Render String
  | .always => return ""
  | .never => return " WHERE " ++ d.boolText false
  | .condition c => do
    if c.isVacuous then return "" else return " WHERE " ++ (← c.render d n)
termination_by structural x => x

/-- The text of a join. -/
def Join.render (d : Dialect) (n : Namespaces) : Join → Render String
  | ⟨kind, table, on⟩ => do
    let on ← on.render d (n.inside (some table.namespaceText))
    let head := match kind with
      | .left => "LEFT JOIN "
      | .inner => "JOIN "
    return head ++ table.text ++ " ON " ++ on
termination_by structural x => x

/-- The texts of a list of joins. -/
def Join.renderAll (d : Dialect) (n : Namespaces) : List Join → Render (List String)
  | [] => return []
  | join :: rest => do
    let text ← join.render d n
    return text :: (← Join.renderAll d n rest)
termination_by structural x => x

/-- The texts of a list of items. -/
def SelectItem.renderAll (d : Dialect) (n : Namespaces) : List SelectItem → Render (List String)
  | [] => return []
  | ⟨expr, asName⟩ :: rest => do
    let text ← expr.render d n
    let text := match asName with
      | some asName => text ++ " AS " ++ asName.text
      | none => text
    return text :: (← SelectItem.renderAll d n rest)
termination_by structural x => x

/-- The texts of a list of order terms. -/
def OrderTerm.renderAll (d : Dialect) (n : Namespaces) : List OrderTerm → Render (List String)
  | [] => return []
  | ⟨expr, direction⟩ :: rest => do
    let text ← expr.render d n
    let text := text ++ " " ++ direction.keyword ++ d.nullsOrder direction
    return text :: (← OrderTerm.renderAll d n rest)
termination_by structural x => x

/-- The text of a `SELECT` statement. -/
def Select.render (d : Dialect) (n : Namespaces) : Select → Render String
  | ⟨items, source, joins, filter, groupBy, having, orderBy, limit, offset, timeout⟩ => do
    if source.isNone && (!joins.isEmpty || !filter.isAlways) then throw .missingFrom
    let inner := n.inside (source.map Table.namespaceText)
    let hint := match timeout.bind d.timeoutHint? with
      | some hint => hint ++ " "
      | none => ""
    let itemTexts ← SelectItem.renderAll d inner items
    let items := if itemTexts.isEmpty then "*" else Text.join ", " itemTexts
    let source := match source with
      | some table => " FROM " ++ table.text
      | none => ""
    let explicit ← Join.renderAll d inner joins
    let needed ← filter.renderJoins d inner joins
    let filter ← filter.renderWhere d inner
    let groups ← Expr.renderAll d inner groupBy
    let groupBy := if groups.isEmpty then "" else " GROUP BY " ++ Text.join ", " groups
    let having ← match having with
      | none => pure ""
      | some condition => do pure (" HAVING " ++ (← condition.render d inner))
    let terms ← OrderTerm.renderAll d inner orderBy
    let orderBy := if terms.isEmpty then "" else " ORDER BY " ++ Text.join ", " terms
    let limit := match limit with
      | some limit => " LIMIT " ++ Json.natText limit
      | none => ""
    let offset := match offset with
      | some offset => " OFFSET " ++ Json.natText offset
      | none => ""
    return "SELECT " ++ hint ++ items ++ source ++
      String.join ((explicit ++ needed).map (" " ++ ·)) ++ filter ++ groupBy ++ having ++
      orderBy ++ limit ++ offset
termination_by structural x => x

end

/-- The text of an order term. -/
def OrderTerm.render (d : Dialect) (n : Namespaces) (term : OrderTerm) : Render String := do
  return (← term.expr.render d n) ++ " " ++ term.direction.keyword ++ d.nullsOrder term.direction

/-- The text of a predicate; the two constants ask for no statement and have no text. -/
def Predicate.render (d : Dialect) (n : Namespaces) : Predicate → Render String
  | .condition c => c.render d n
  | _ => return ""

namespace Insert

/-- The texts of the rows, each of the given width. -/
def renderRows (d : Dialect) (width : Nat) : List (List Expr) → Render (List String)
  | [] => return []
  | row :: rest => do
    if row.length != width then throw (.rowWidth width row.length)
    let values ← Expr.renderAll d .none row
    return ("(" ++ Text.join ", " values ++ ")") :: (← renderRows d width rest)

/-- The text of an `INSERT` statement. -/
def render (d : Dialect) (s : Insert) : Render String := do
  if s.columns.isEmpty || s.rows.isEmpty then throw .emptyInsert
  let rows ← renderRows d s.columns.length s.rows
  let tail := match s.upsert with
    | some upsert =>
      if upsert.update.isEmpty then ""
      else " " ++ d.upsertTail (upsert.conflict.map (·.text)) (upsert.update.map (·.text))
    | none => ""
  return "INSERT INTO " ++ s.table.text ++ " (" ++ Text.join ", " (s.columns.map (·.text)) ++
    ") VALUES " ++ Text.join ", " rows ++ tail

end Insert

namespace Update

/-- The texts of the assignments. -/
def renderAssignments (d : Dialect) : List (Identifier × Expr) → Render (List String)
  | [] => return []
  | (column, value) :: rest => do
    let text ← value.render d .none
    return (column.text ++ " = " ++ text) :: (← renderAssignments d rest)

/-- The text of an `UPDATE` statement. The joins that its filter needs follow the table. -/
def render (d : Dialect) (n : Namespaces) (s : Update) : Render String := do
  if s.assignments.isEmpty then throw .emptyUpdate
  let inner := n.inside (some s.table.namespaceText)
  let joins ← s.filter.renderJoins d inner []
  let assignments ← renderAssignments d s.assignments
  let filter ← s.filter.renderWhere d inner
  return "UPDATE " ++ s.table.text ++ String.join (joins.map (" " ++ ·)) ++ " SET " ++
    Text.join ", " assignments ++ filter

end Update

end FilterSql
