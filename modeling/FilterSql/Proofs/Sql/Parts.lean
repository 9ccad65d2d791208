import FilterSql.Sql.Statement

/-!
# The parts of a statement

The expressions and conditions that a tree is made of, those in its joins and subqueries among
them. What is asked of every part of a tree is asked of its subtrees, so an induction on the syntax
hands it down.
-/

namespace FilterSql

/-- An expression or a condition in a tree. -/
inductive Part where
  | expr (expr : Expr)
  | condition (condition : Condition)

mutual

/-- The parts of an expression, itself among them. -/
def Expr.parts : Expr → List Part
  | .lower expr => .expr (.lower expr) :: expr.parts
  | .cast expr type => .expr (.cast expr type) :: expr.parts
  | .jsonExtract target path => .expr (.jsonExtract target path) :: target.parts
  | .jsonUnquote expr => .expr (.jsonUnquote expr) :: expr.parts
  | .count expr => .expr (.count expr) :: expr.parts
  | .sum expr => .expr (.sum expr) :: expr.parts
  | .coalesce exprs => .expr (.coalesce exprs) :: Expr.partsAll exprs
  | .subquery query => .expr (.subquery query) :: query.parts
  | .exists query => .expr (.exists query) :: query.parts
  | expr => [.expr expr]
termination_by structural x => x

/-- The parts of a list of expressions. -/
def Expr.partsAll : List Expr → List Part
  | [] => []
  | expr :: rest => expr.parts ++ Expr.partsAll rest
termination_by structural x => x

/-- The parts of a condition, itself among them. -/
def Condition.parts : Condition → List Part
  | .compare left op right => .condition (.compare left op right) :: (left.parts ++ right.parts)
  | .nullSafeEq left right => .condition (.nullSafeEq left right) :: (left.parts ++ right.parts)
  | .isNull expr negated => .condition (.isNull expr negated) :: expr.parts
  | .isJsonNull expr => .condition (.isJsonNull expr) :: expr.parts
  | .oneOf expr values negated => .condition (.oneOf expr values negated) :: expr.parts
  | .like expr pattern negated => .condition (.like expr pattern negated) :: expr.parts
  | .arrayContains column value foldCase =>
    .condition (.arrayContains column value foldCase) :: column.parts
  | .overlaps column values => .condition (.overlaps column values) :: column.parts
  | .exists query negated => .condition (.exists query negated) :: query.parts
  | .requires join => .condition (.requires join) :: join.parts
  | .joined join inner => .condition (.joined join inner) :: (join.parts ++ inner.parts)
  | .all conditions => .condition (.all conditions) :: Condition.partsAll conditions
  | .any conditions => .condition (.any conditions) :: Condition.partsAll conditions
  | .not condition => .condition (.not condition) :: condition.parts
termination_by structural x => x

/-- The parts of a list of conditions. -/
def Condition.partsAll : List Condition → List Part
  | [] => []
  | c :: rest => c.parts ++ Condition.partsAll rest
termination_by structural x => x

/-- The parts of a condition that need not be there. -/
def Condition.partsOption : Option Condition → List Part
  | none => []
  | some c => c.parts
termination_by structural x => x

/-- The parts of a predicate. -/
def Predicate.parts : Predicate → List Part
  | .condition c => c.parts
  | _ => []
termination_by structural x => x

/-- The parts of the condition of a join. -/
def Join.parts : Join → List Part
  | ⟨_, _, on⟩ => on.parts
termination_by structural x => x

/-- The parts of a list of joins. -/
def Join.partsAll : List Join → List Part
  | [] => []
  | join :: rest => join.parts ++ Join.partsAll rest
termination_by structural x => x

/-- The parts of a list of items. -/
def SelectItem.partsAll : List SelectItem → List Part
  | [] => []
  | ⟨expr, _⟩ :: rest => expr.parts ++ SelectItem.partsAll rest
termination_by structural x => x

/-- The parts of the terms of an order. -/
def OrderTerm.partsAll : List OrderTerm → List Part
  | [] => []
  | ⟨expr, _⟩ :: rest => expr.parts ++ OrderTerm.partsAll rest
termination_by structural x => x

/-- The parts of a `SELECT` statement. -/
def Select.parts : Select → List Part
  | ⟨items, _, joins, filter, groupBy, having, orderBy, _, _, _⟩ =>
    SelectItem.partsAll items ++ Join.partsAll joins ++ filter.parts ++ Expr.partsAll groupBy ++
      Condition.partsOption having ++ OrderTerm.partsAll orderBy
termination_by structural x => x

end

/-- The parts of the rows of an `INSERT` statement. -/
def Insert.parts (s : Insert) : List Part :=
  s.rows.flatMap Expr.partsAll

/-- The parts of the values and the filter of an `UPDATE` statement. -/
def Update.parts (s : Update) : List Part :=
  Expr.partsAll (s.assignments.map (·.2)) ++ s.filter.parts

end FilterSql
