import FilterSql.Binary64.Basic
import FilterSql.Sql.Render

/-!
# Connections

A connection answers the statements it is sent. What it is made of is left open: its answers are
functions of its own state, so a database, a script of answers and a log of statements are all
connections.
-/

namespace FilterSql

/-- A step of a plan. -/
structure PlanStep where
  table : String
  /-- How the table is read, in the words of the database. -/
  access : String
  /-- Whether every row of the table is read. -/
  fullScan : Bool
  deriving DecidableEq

/-- An answer to a statement, or the error text of the database, with the nanoseconds it took. -/
structure Reply (α : Type) where
  result : Except String α
  elapsed : Nat

/-- A connection with a state, which gives rows of a type. -/
structure Connection (State Row : Type) where
  dialect : Dialect
  /-- The rows of a statement. -/
  query : Statement → StateM State (Reply (List Row))
  /-- The one number of a statement, unless it is `NULL`. -/
  scalar : Statement → StateM State (Reply (Option Binary64))
  /-- The number of rows that a statement has changed. -/
  execute : Statement → StateM State (Reply Nat)
  /-- The plan of a statement. -/
  plan : Statement → StateM State (Except String (List PlanStep))

end FilterSql
