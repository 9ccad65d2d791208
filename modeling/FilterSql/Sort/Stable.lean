/-!
# Sorting rows in memory

Each row is put behind the rows before it that do not come after it, so rows that tie stay in the
order in which they were given.
-/

namespace FilterSql

/-- A sorted list, given backwards, with one more item put in from behind. -/
def putBack {α : Type} (compare : α → α → Ordering) (item : α) : List α → List α
  | [] => [item]
  | last :: before =>
    if compare item last = .lt then last :: putBack compare item before
    else item :: last :: before

/-- The items of a list in an order. -/
def stableSort {α : Type} (compare : α → α → Ordering) (items : List α) : List α :=
  (items.foldl (fun sorted item => putBack compare item sorted) []).reverse

end FilterSql
