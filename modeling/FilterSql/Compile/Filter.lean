import FilterSql.Compile.Scope
import FilterSql.Compile.Test
import FilterSql.Filter.Reader
import FilterSql.Settings

/-!
# Compiling filters

`Filter.compile` turns a filter into a predicate on the rows that a schema describes. What is known
without a row is settled here, so the filters behind a decided part of a conjunction or disjunction
are not looked at. A negation directly on a relation asks that no related row matches, instead of
asking for a related row that fails.
-/

namespace FilterSql.Filter

/-- A result of a test at a place. -/
def testAt (s : Scope) : Except FilterFault Predicate → Except FilterError Predicate
  | .ok p => .ok p
  | .error fault => .error (s.error fault)

/-- The error that a filter nests too deep, if it stands below `above` levels. -/
def guardDepth (limits : Limits) (s : Scope) (above : Nat) : Except FilterError Unit :=
  if limits.maxDepth ≤ above then .error (s.error (.tooDeep limits.maxDepth)) else .ok ()

/-- The filter on the rest of a name. -/
def onRest (filter : Filter) : Option String → Filter
  | none => filter
  | some name => .field name filter

mutual

/-- The predicate of a filter that stands below `above` levels and applies to what an entry leads
to. -/
def compileAt (limits : Limits) (now : Instant) (s : Scope) (entry : Entry) (above : Nat) :
    Filter → Except FilterError Predicate
  | .all filters => do
    guardDepth limits s above
    return entry.enclose (← compileAll limits now s (above + 1) .always filters)
  | .any filters => do
    guardDepth limits s above
    return entry.enclose (← compileAny limits now s (above + 1) .never filters)
  | .not filter =>
    match entry with
    | .related base =>
      -- the negation of a relation stands outside the subquery: no related row matches
      (compileAt limits now s (.related base) (above + 1) filter).map Predicate.negate
    | entry => do
      guardDepth limits s above
      return entry.enclose (← compileAt limits now s .row (above + 1) filter).negate
  | .field name filter => do
    guardDepth limits s above
    let target ← s.follow name
    let inner ←
      match target.landing with
      | .scope entry inner => compileAt limits now inner entry (above + 1 + target.steps) filter
      | .custom compile path rest => compile (filter.onRest rest) path
    return entry.enclose (target.passed.foldr Entry.enclose inner)
  | .compare op operand => do
    guardDepth limits s above
    let column ← s.tested op.keyword
    return entry.enclose (← testAt s (column.compare now op operand))
  | .oneOf operands => do
    guardDepth limits s above
    let column ← s.tested "$in"
    return entry.enclose (← testAt s (column.oneOf now limits.maxValues operands))
  | .contains needle => do
    guardDepth limits s above
    let column ← s.tested "$contains"
    return entry.enclose (← testAt s (column.contains needle))
  | .elemMatch filter =>
    match entry with
    | .row => do
      guardDepth limits s above
      .error (s.error .unexpectedElemMatch)
    | entry => (compileAt limits now s .row above filter).map entry.enclose
  | .marker => do
    guardDepth limits s above
    .error (s.error .unresolvedMarker)

/-- A predicate together with all filters of a list, as far as it is not settled that no row
matches. -/
def compileAll (limits : Limits) (now : Instant) (s : Scope) (above : Nat) (p : Predicate) :
    List Filter → Except FilterError Predicate
  | [] => .ok p
  | filter :: rest => do
    match p.and (← compileAt limits now s .row above filter) with
    | .never => .ok .never
    | p => compileAll limits now s above p rest

/-- A predicate or one of the filters of a list, as far as it is not settled that every row
matches. -/
def compileAny (limits : Limits) (now : Instant) (s : Scope) (above : Nat) (p : Predicate) :
    List Filter → Except FilterError Predicate
  | [] => .ok p
  | filter :: rest => do
    match p.or (← compileAt limits now s .row above filter) with
    | .always => .ok .always
    | p => compileAny limits now s above p rest

end

/-- The predicate of a filter on the rows that a schema describes, compiled at the instant
`now`. -/
def compile (limits : Limits) (now : Instant) (schema : Schema) (filter : Filter) :
    Except FilterError Predicate :=
  compileAt limits now (.ofSchema schema) .row 0 filter

/-- The predicate of a filter in JSON. -/
def compileJson (limits : Limits) (now : Instant) (schema : Schema) (value : Json) :
    Except FilterError Predicate := do
  compile limits now schema (← read limits.maxDepth value)

end FilterSql.Filter
