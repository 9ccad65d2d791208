import FilterSql.Filter.Operand
import FilterSql.Sort.Basic
import FilterSql.Sql.Statement
import FilterSql.Text.Lower

/-!
# Sort schemas

A sort schema says which keys rows can be sorted by: the expression that the database orders by, and
the value of a row that it stands for. One of its keys, the tie-break, tells every two rows apart;
it ends every order that does not name it. The order of a statement, the comparison of two rows in
memory and the position of a row all follow from the same resolved terms.
-/

namespace FilterSql

/-- How rows are sorted by a key. -/
structure SortRule (Row : Type) where
  /-- The value of a row, which has to be what the database compares. -/
  value : Row → Operand
  /-- The term in the order of a statement. -/
  term : Direction → OrderTerm
  /-- The join that the term needs. -/
  join : Option Join
  /-- Whether the expression can be `NULL`. -/
  nullable : Bool

/-- The rules for some keys, no two of which are the same. -/
structure SortRules (Row : Type) where
  rules : List (String × SortRule Row)
  distinct : (rules.map (·.1)).Nodup

/-- The rules for some keys, one of which is the tie-break. -/
structure SortSchema (Row : Type) extends SortRules Row where
  tieBreak : String
  registered : tieBreak ∈ rules.map (·.1)

/-- The fault that the tie-break is not among the keys. -/
structure MissingTieBreak where
  key : String
  deriving DecidableEq

/-- The fault in words. -/
def MissingTieBreak.message (e : MissingTieBreak) : String :=
  "tie-break key `" ++ e.key ++ "` is not registered"

namespace SortRule

variable {Row : Type}

/-- The rule of a value and a term, without a join and nullable. -/
def of (value : Row → Operand) (term : Direction → OrderTerm) : SortRule Row :=
  ⟨value, term, none, true⟩

/-- The rule that orders by an expression. -/
def ofExpr (expr : Expr) (value : Row → Operand) : SortRule Row :=
  of value (⟨expr, ·⟩)

/-- The rule that orders by a column of the statement's own table. -/
def ofName (name : String) (value : Row → Operand) : Except NameError (SortRule Row) := do
  return ofExpr (.column (← Column.ofName name)) value

/-- An operand in lower case. -/
def lowered : Operand → Operand
  | .string s => .string (Text.lower s)
  | operand => operand

/-- The rule that orders by the text of a column in lower case. -/
def ofText (name : String) (value : Row → Operand) : Except NameError (SortRule Row) := do
  let column ← Column.ofName name
  return ofExpr (.lower (.column column)) fun row => lowered (value row)

/-- The rule with the join that its term needs. -/
def withJoin (rule : SortRule Row) (join : Join) : SortRule Row :=
  { rule with join := some join }

/-- The rule for an expression that is never `NULL`. -/
def notNull (rule : SortRule Row) : SortRule Row :=
  { rule with nullable := false }

end SortRule

namespace SortRules

variable {Row : Type}

/-- No rules. -/
def empty : SortRules Row :=
  ⟨[], List.nodup_nil⟩

/-- The keys, the one defined last in front. -/
def keys (s : SortRules Row) : List String :=
  s.rules.map (·.1)

/-- The rule of a key. -/
def get? (s : SortRules Row) (key : String) : Option (SortRule Row) :=
  (s.rules.find? (·.1 = key)).map (·.2)

/-- The rules with one more. -/
def define (s : SortRules Row) (key : String) (rule : SortRule Row) :
    Except NameError (SortRules Row) :=
  if h : key ∈ s.rules.map (·.1) then .error (.sortKeyTwice key)
  else .ok ⟨(key, rule) :: s.rules, by simpa using ⟨by simpa using h, s.distinct⟩⟩

/-- The schema with a tie-break, which has to be among the keys. -/
def build (s : SortRules Row) (tieBreak : String) : Except MissingTieBreak (SortSchema Row) :=
  if h : tieBreak ∈ s.rules.map (·.1) then .ok { s with tieBreak, registered := h }
  else .error ⟨tieBreak⟩

end SortRules

/-- The terms of an order of which each key keeps its first one. -/
def SortTerm.firsts : List SortTerm → List SortTerm
  | [] => []
  | term :: rest => term :: (firsts rest).filter (·.key ≠ term.key)

namespace SortSchema

variable {Row : Type}

/-- The order with the tie-break at its end, unless it names it. -/
def withTieBreak (s : SortSchema Row) (sort : List SortTerm) : List SortTerm :=
  if sort.any (·.key = s.tieBreak) then sort else sort ++ [⟨s.tieBreak, .asc⟩]

/-- The order that a list of terms stands for: every key once, the tie-break among them. -/
def resolve (s : SortSchema Row) (sort : List SortTerm) : Except SortError (List SortTerm) :=
  match sort.find? fun term => !s.keys.contains term.key with
  | some term => .error (.unknownKey term.key)
  | none => .ok (s.withTieBreak (SortTerm.firsts sort))

/-- Each term with the rule of its key. -/
def withRules (s : SortSchema Row) :
    List SortTerm → Except SortError (List (SortTerm × SortRule Row))
  | [] => .ok []
  | term :: rest => do
    match s.get? term.key with
    | some rule => return (term, rule) :: (← s.withRules rest)
    | none => .error (.unknownKey term.key)

/-- The terms of a resolved order with their rules. -/
def rulesOf (s : SortSchema Row) (sort : List SortTerm) :
    Except SortError (List (SortTerm × SortRule Row)) := do
  s.withRules (← s.resolve sort)

/-- The joins found so far with those of a list of rules, each once. -/
def joinsOf (found : List Join) : List (SortTerm × SortRule Row) → List Join
  | [] => found
  | (_, rule) :: rest =>
    match rule.join with
    | some join => joinsOf (if found.contains join then found else found ++ [join]) rest
    | none => joinsOf found rest

/-- The terms in the order of a statement, and the joins they need. -/
def orderBy (s : SortSchema Row) (sort : List SortTerm) :
    Except SortError (List OrderTerm × List Join) := do
  let rules ← s.rulesOf sort
  return (rules.map fun (term, rule) => rule.term term.direction, joinsOf [] rules)

/-- A statement in an order. -/
def apply (s : SortSchema Row) (select : Select) (sort : List SortTerm) :
    Except SortError Select := do
  let (terms, joins) ← s.orderBy sort
  return terms.foldl Select.ordered (joins.foldl Select.join select)

/-- The comparison of two rows by the first key that tells them apart. -/
def compareBy : List (SortTerm × SortRule Row) → Row → Row → Ordering
  | [], _, _ => .eq
  | (term, rule) :: rest, a, b =>
    let byKey := (rule.value a).order (rule.value b)
    let directed :=
      match term.direction with
      | .asc => byKey
      | .desc => byKey.swap
    directed.then (compareBy rest a b)

/-- The comparison of rows in an order. -/
def comparator (s : SortSchema Row) (sort : List SortTerm) :
    Except SortError (Row → Row → Ordering) := do
  return compareBy (← s.rulesOf sort)

/-- The values that a row has for the keys of an order. -/
def values (s : SortSchema Row) (row : Row) (sort : List SortTerm) :
    Except SortError (List (String × Operand)) := do
  return (← s.rulesOf sort).map fun (term, rule) => (term.key, rule.value row)

end SortSchema

end FilterSql
