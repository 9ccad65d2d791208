import FilterSql.Compile.Filter
import FilterSql.Sort.Keyset

/-!
# Pages

A page is asked for with a filter, an order, a size and the position behind which it starts. The
next page starts behind the last row of this one; a page that is not full is the last.
-/

namespace FilterSql

/-- A request for a page. -/
structure PageRequest where
  filter : Filter
  cursor : Option Cursor
  /-- The order, which need not name the tie-break. -/
  sort : List SortTerm
  limit : Nat

/-- What is wrong with a request for a page. -/
inductive PageError where
  | filter (error : FilterError)
  | sort (error : SortError)
  | cursor (error : CursorError)

/-- What a caller is told about the pages behind a page. -/
structure PageInfo where
  hasNext : Bool
  nextCursor : Option String
  deriving DecidableEq

/-- An error of a keyset as that of the page. -/
def KeysetError.toPage : KeysetError → PageError
  | .sort e => .sort e
  | .cursor e => .cursor e

namespace PageRequest

/-- The first page of all rows. -/
def first (limits : Limits) : PageRequest :=
  ⟨.everything, none, [], limits.defaultPage⟩

/-- Refuses a size of zero and one above the limit. -/
def validateLimit (limits : Limits) (p : PageRequest) : Except SortError Unit :=
  if p.limit = 0 ∨ limits.maxPage < p.limit then .error (.invalidLimit p.limit limits.maxPage)
  else .ok ()

/-- The predicate of the rows behind the cursor, in a resolved order. -/
def beyond {Row : Type} (sorts : SortSchema Row) (sort : List SortTerm) :
    Option Cursor → Except PageError Predicate
  | none => .ok .always
  | some cursor => do
    let keyset ← (Keyset.of .after sort cursor).mapError .cursor
    match ← (keyset.toCondition sorts).mapError KeysetError.toPage with
    | .any [] => return .never
    | c => return .condition c

/-- The statement of a page, made from one on all rows. -/
def select {Row : Type} (limits : Limits) (now : Instant) (schema : Schema)
    (sorts : SortSchema Row) (base : Select) (p : PageRequest) : Except PageError Select := do
  let sort ← (sorts.resolve p.sort).mapError .sort
  let filter ← (p.filter.compile limits now schema).mapError .filter
  let beyond ← beyond sorts sort p.cursor
  let ordered ← (sorts.apply (base.restrict (filter.and beyond)) sort).mapError .sort
  let page := ordered.limited p.limit
  return match limits.timeout with
    | some ms => page.within ms
    | none => page

/-- The request for the page behind a page of rows, if there can be one. Where the position would
stay the same there is none, since the request would never end. -/
def next? {Row : Type} (sorts : SortSchema Row) (rows : List Row) (p : PageRequest) :
    Except SortError (Option PageRequest) :=
  match rows.getLast? with
  | none => .ok none
  | some last =>
    if rows.length < p.limit then .ok none
    else do
      let cursor ← Cursor.ofRow sorts last p.sort
      let stays :=
        match p.cursor with
        | some old => old == cursor
        | none => false
      return if stays then none else some { p with cursor := some cursor }

end PageRequest

namespace PageInfo

/-- What is told where a request for the next page is given. -/
def ofNext (next : Option PageRequest) : PageInfo :=
  let token := (next.bind (·.cursor)).map Cursor.encode
  ⟨token.isSome, token⟩

/-- What is told about a page of rows. -/
def ofRows {Row : Type} (sorts : SortSchema Row) (rows : List Row) (p : PageRequest) :
    Except SortError PageInfo := do
  return ofNext (← p.next? sorts rows)

end PageInfo

end FilterSql
