import FilterSql.Filter.Basic
import FilterSql.Sort.Cursor

/-!
# Rows before and after a position

The rows on one side of a cursor are those that differ from it first in a key on that side: beyond
the cursor in the first key, or equal there and beyond in the second, and so on. `Keyset.toFilter`
says so as a filter on fields named like the keys; `Keyset.toCondition` compares the expressions
that the rows are ordered by, with `NULL` below every value.
-/

namespace FilterSql

/-- The two sides of a position in an order. -/
inductive Side where
  | after
  | before
  deriving DecidableEq

/-- The rows on one side of a position: each term of the order with the value at the position. -/
structure Keyset where
  terms : List (SortTerm × Operand)
  side : Side

/-- What keeps a position from being compared with the rows of a schema. -/
inductive KeysetError where
  | sort (error : SortError)
  | cursor (error : CursorError)

/-- The comparison that leads to a side in a direction. -/
def Side.operator : Side → Direction → CompareOp
  | .after, .asc => .gt
  | .before, .desc => .gt
  | .after, .desc => .lt
  | .before, .asc => .lt

/-- The value bound for an operand of a cursor. No row has the value `now`. -/
def Operand.bound? : Operand → Option Value
  | .null => some .null
  | .bool b => some (.bool b)
  | .int n => some (.int n)
  | .float x => some (.float x)
  | .string s => some (.string s)
  | .instant t => some (.instant t)
  | .now => none

namespace Keyset

/-- The rows on a side of a cursor in an order. -/
def of (side : Side) (sort : List SortTerm) (cursor : Cursor) : Except CursorError Keyset := do
  return ⟨sort.zip (← cursor.valuesFor sort), side⟩

/-- The filters of the branches, each behind the equalities `ties`. -/
def filterBranches (side : Side) (ties : List Filter) : List (SortTerm × Operand) → List Filter
  | [] => []
  | (term, value) :: rest =>
    let step := Filter.field term.key (.compare (side.operator term.direction) value)
    let tie := Filter.field term.key (.compare .eq value)
    Filter.conjunction (ties ++ [step]) :: filterBranches side (ties ++ [tie]) rest

/-- The rows as a filter on the keys. -/
def toFilter (k : Keyset) : Filter :=
  .disjunction (filterBranches k.side [] k.terms)

/-- A key of the order as it is compared in SQL. -/
structure Key where
  expr : Expr
  nullable : Bool
  direction : Direction
  value : Value

/-- The row ties with the position. -/
def Key.tie (key : Key) : Condition :=
  if key.value.isNull then .null key.expr else .eq key.expr (.param key.value)

/-- The row is beyond the position; no row is below `NULL`. -/
def Key.beyond? (key : Key) (op : CompareOp) : Option Condition :=
  let test := Condition.compare key.expr op (.param key.value)
  match op, key.value.isNull with
  | .lt, true => none
  | _, true => some (.notNull key.expr)
  | .lt, false => some (if key.nullable then (Condition.null key.expr).or test else test)
  | _, false => some test

/-- The keys of an order as the rules of a schema compare them. -/
def keys {Row : Type} (s : SortSchema Row) :
    List (SortTerm × Operand) → Except KeysetError (List Key)
  | [] => .ok []
  | (term, operand) :: rest => do
    match s.get? term.key with
    | none => .error (.sort (.unknownKey term.key))
    | some rule =>
      match operand.bound? with
      | none => .error (.cursor .invalidFormat)
      | some value =>
        let key : Key :=
          ⟨(rule.term term.direction).expr, rule.nullable, term.direction, value⟩
        return key :: (← keys s rest)

/-- A condition behind another one, if there is one. -/
def behind (ties : Option Condition) (c : Condition) : Condition :=
  match ties with
  | some ties => ties.and c
  | none => c

/-- The conditions of the branches that some row can meet, each behind the equalities `ties`. -/
def branches (side : Side) (ties : Option Condition) : List Key → List Condition
  | [] => []
  | key :: rest =>
    let others := branches side (some (behind ties key.tie)) rest
    -- without a branch of its own the key still has to tie in the branches of the others
    match key.beyond? (side.operator key.direction) with
    | some step => behind ties step :: others
    | none => others

/-- One of the conditions of a list. -/
def anyOf : List Condition → Condition
  | [] => .impossible
  | c :: rest => rest.foldl Condition.or c

/-- The rows as a condition on the expressions that they are ordered by. -/
def toCondition {Row : Type} (s : SortSchema Row) (k : Keyset) : Except KeysetError Condition := do
  return anyOf (branches k.side none (← keys s k.terms))

end Keyset

end FilterSql
