import FilterSql.Execute.Basic

/-!
# Rows in batches

All rows of a statement, some at a time, in the order of their column `id`: each batch starts behind
the last `id` of the one before. A batch that is not full is the last, and so is one that fails.
-/

namespace FilterSql

/-- What is left of the batches of a statement, which should have no order and limit of its own. -/
structure Batches (Row : Type) where
  select : Select
  /-- The `id` of a row. -/
  idOf : Row → Value
  /-- The number of rows in a full batch. -/
  size : Nat
  /-- The last `id` so far. -/
  last : Option Value
  finished : Bool

namespace Batches

variable {State Row : Type}

/-- The column that batches are ordered by. -/
def idColumn : Expr := .column ⟨.own, ⟨"id", by decide⟩⟩

/-- All batches of a statement, of at least one row each. -/
def of (select : Select) (idOf : Row → Value) (size : Nat) : Batches Row :=
  ⟨select, idOf, max size 1, none, false⟩

/-- The statement of the next batch. -/
def statement (b : Batches Row) : Select :=
  let rest :=
    match b.last with
    | some id => b.select.restrictBy (.compare idColumn .gt (.param id))
    | none => b.select
  (rest.ordered ⟨idColumn, .asc⟩).limited b.size

/-- The next batch or its error, if there is one, and what is left then. -/
def next (e : Executor State Row) (b : Batches Row) :
    StateM (Session State) (Option (Except ExecuteError (List Row)) × Batches Row) := do
  if b.finished then return (none, b)
  match ← (e.fetch b.statement).run with
  | .error error => return (some (.error error), { b with finished := true })
  | .ok rows =>
    let rest := { b with finished := rows.length < b.size }
    match rows.getLast? with
    | none => return (none, rest)
    | some row => return (some (.ok rows), { rest with last := some (b.idOf row) })

/-- At most `most` batches or errors, and whether there are no more. -/
def take (e : Executor State Row) :
    Nat → Batches Row → StateM (Session State) (List (Except ExecuteError (List Row)) × Bool)
  | 0, _ => return ([], false)
  | most + 1, b => do
    match ← b.next e with
    | (none, _) => return ([], true)
    | (some batch, rest) =>
      let (batches, ended) ← take e most rest
      return (batch :: batches, ended)

end Batches

end FilterSql
