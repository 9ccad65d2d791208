import FilterSql.ColumnKind
import FilterSql.Sql.Syntax

/-!
# Columns that filters test

An expression together with what a filter has to know about it: the kind of its values and whether
it can be `NULL`. A part of a JSON document can always be missing, so it is nullable.
-/

namespace FilterSql

/-- An expression that filters test. -/
structure FilterColumn where
  expr : Expr
  kind : ColumnKind
  nullable : Bool

namespace FilterColumn

/-- An expression that is never `NULL`. -/
def ofExpr (expr : Expr) (kind : ColumnKind) : FilterColumn :=
  ⟨expr, kind, false⟩

/-- A column of the statement's own table that is never `NULL`. -/
def ofName (name : String) (kind : ColumnKind) : Except NameError FilterColumn := do
  return ofExpr (.column (← Column.ofName name)) kind

/-- The part of a JSON column at a fixed path. -/
def json (column path : String) (kind : ColumnKind) : Except NameError FilterColumn := do
  let column ← Column.ofName column
  return ⟨.jsonExtract (.column column) (.fixed (← FixedPath.check path)), kind, true⟩

/-- The texts below a fixed path of a JSON column, one for each language. -/
def translations (column : Column) (path : String) : List String → Except NameError (List Expr)
  | [] => .ok []
  | language :: rest => do
    let path' ← FixedPath.check (path ++ "." ++ language)
    let text := Expr.jsonUnquote (.jsonExtract (.column column) (.fixed path'))
    return text :: (← translations column path rest)

/-- The text at a fixed path of a JSON column in the first language there is: either an object with
a member for each language, or a string that is used for every language. -/
def translated (column path : String) (languages : List String) :
    Except NameError FilterColumn := do
  let column ← Column.ofName column
  let texts ← translations column path languages
  let plain := Expr.jsonString column (← FixedPath.check path)
  return ⟨.coalesce (texts ++ [plain]), .string, true⟩

/-- The column, which can be `NULL`. -/
def orNull (c : FilterColumn) : FilterColumn :=
  { c with nullable := true }

end FilterColumn

end FilterSql
