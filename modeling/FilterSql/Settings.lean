/-!
# Settings

The limits on filters and pages, and when a statement counts as slow.
-/

namespace FilterSql

/-- The limits on filters and pages. -/
structure Limits where
  /-- The values that one `$in` may list. -/
  maxValues : Nat := 1000
  /-- The levels that a filter may nest. -/
  maxDepth : Nat := 32
  /-- The size of the largest page that may be asked for. -/
  maxPage : Nat := 100
  /-- The size of a page where none is asked for. -/
  defaultPage : Nat := 25
  /-- The milliseconds that the statement of a page may take. -/
  timeout : Option Nat := none
  deriving DecidableEq, Inhabited

/-- What is recorded of slow statements. -/
structure Diagnostics where
  /-- The milliseconds from which on a statement is slow. -/
  slowFrom : Nat := 500
  /-- Whether the plan of a slow statement is asked for. -/
  explainSlow : Bool := false
  deriving DecidableEq, Inhabited

/-- All settings. -/
structure Settings where
  limits : Limits := {}
  diagnostics : Diagnostics := {}
  deriving DecidableEq, Inhabited

end FilterSql
