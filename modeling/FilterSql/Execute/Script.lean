import FilterSql.Execute.Batches

/-!
# Scripted connections

A connection without a database: it answers from a script, one reply for each statement, and
remembers what it was sent. Requests for plans use up no reply. A script that has come to its end
answers with nothing.
-/

namespace FilterSql

/-- What a script replies to a statement, depending on what the statement is sent for. -/
structure ScriptReply (Row : Type) where
  /-- The error of the database, if it has one. -/
  failure : Option String := none
  rows : List Row := []
  scalar : Option Binary64 := none
  affected : Nat := 0

/-- What a statement is sent for. -/
inductive Purpose where
  | query
  | scalar
  | execute
  | explain
  deriving DecidableEq

/-- The word for a purpose. -/
def Purpose.name : Purpose → String
  | query => "query"
  | scalar => "scalar"
  | execute => "execute"
  | explain => "explain"

/-- The replies that are left, and the statements sent so far. -/
structure Script (Row : Type) where
  replies : List (ScriptReply Row)
  sent : List (Purpose × Statement)

namespace Script

variable {Row : Type}

/-- Remembers a statement. -/
def remember (purpose : Purpose) (s : Statement) : StateM (Script Row) Unit :=
  modify fun script => { script with sent := script.sent ++ [(purpose, s)] }

/-- The part of the next reply that answers a statement. -/
def answer {α : Type} (purpose : Purpose) (part : ScriptReply Row → α) (s : Statement) :
    StateM (Script Row) (Reply α) := do
  remember purpose s
  let script ← get
  set { script with replies := script.replies.tail }
  let reply := script.replies.headD {}
  return ⟨match reply.failure with
    | some error => .error error
    | none => .ok (part reply), 0⟩

/-- The connection that answers from a script and gives every statement the same plan. -/
def connection (dialect : Dialect) (plan : Except String (List PlanStep)) :
    Connection (Script Row) Row where
  dialect := dialect
  query := answer .query (·.rows)
  scalar := answer .scalar (·.scalar)
  execute := answer .execute (·.affected)
  plan s := do
    remember .explain (s.explain dialect)
    return plan

end Script

end FilterSql
