import FilterSql.Execute.Connection
import FilterSql.Settings

/-!
# Executing statements

An executor renders statements for its connection and sends them. A statement whose condition no
row can meet is answered without being sent. What took too long is reported, with its plan if the
settings ask for it; a plan that fails is as good as none and never changes an answer.
-/

namespace FilterSql

/-- What is reported of a slow statement. -/
structure SlowReport where
  text : String
  /-- The number of its bound values. -/
  valueCount : Nat
  /-- The nanoseconds it took. -/
  elapsed : Nat
  plan : List PlanStep
  deriving DecidableEq

/-- Whether the plan of a slow statement reads a whole table. -/
def SlowReport.hasFullScan (r : SlowReport) : Bool :=
  r.plan.any (·.fullScan)

/-- Why a statement has no answer. -/
inductive ExecuteError where
  | render (error : RenderError)
  | database (text : String)

/-- The error in words. -/
def ExecuteError.message : ExecuteError → String
  | .render e => e.message
  | .database text => "driver error: " ++ text

/-- A connection, and what is reported of slow statements; without it nothing is. -/
structure Executor (State Row : Type) where
  connection : Connection State Row
  diagnostics : Option Diagnostics

/-- The state of a connection, and the last report. -/
structure Session (State : Type) where
  state : State
  report : Option SlowReport

/-- An action on a session, which keeps what it did also where it fails. -/
abbrev Execute (State : Type) := ExceptT ExecuteError (StateM (Session State))

namespace Execute

variable {State : Type}

/-- An action of a connection in a session. -/
def lift {α : Type} (action : StateM State α) : Execute State α := do
  let session ← get
  let (a, state) := action.run session.state
  set { session with state }
  return a

end Execute

namespace Executor

variable {State Row : Type}

/-- The plan of a statement, if it is asked for and there is one. -/
def planOf (e : Executor State Row) (d : Diagnostics) (s : Statement) :
    Execute State (List PlanStep) := do
  if d.explainSlow then
    match ← Execute.lift (e.connection.plan s) with
    | .ok plan => return plan
    -- a plan that cannot be read leaves the statement's own answer as it is
    | .error _ => return []
  else return []

/-- Reports a statement that took some nanoseconds, if that is slow. -/
def report (e : Executor State Row) (s : Statement) (elapsed : Nat) : Execute State Unit :=
  match e.diagnostics with
  | none => return
  | some d => do
    if d.slowFrom * 1000000 ≤ elapsed then
      let plan ← e.planOf d s
      let slow : SlowReport := ⟨s.text, s.values.length, elapsed, plan⟩
      modify fun session => { session with report := some slow }

/-- Sends a statement, reports it if it was slow, and gives the answer. -/
def send {α : Type} (e : Executor State Row) (s : Statement)
    (action : Statement → StateM State (Reply α)) : Execute State α := do
  let reply ← Execute.lift (action s)
  e.report s reply.elapsed
  match reply.result with
  | .ok a => return a
  | .error text => throw (.database text)

/-- A rendered statement, or the error that it cannot be rendered. -/
def rendered (render : Render String) : Execute State Statement :=
  match render.run with
  | .ok s => return s
  | .error e => throw (.render e)

/-- The rows of a statement. -/
def fetch (e : Executor State Row) (select : Select) : Execute State (List Row) := do
  if select.decided? = some false then return []
  let s ← rendered (select.render e.connection.dialect .none)
  e.send s e.connection.query

/-- The number that a statement gives. -/
def scalar (e : Executor State Row) (select : Select) : Execute State (Option Binary64) := do
  let s ← rendered (select.render e.connection.dialect .none)
  e.send s e.connection.scalar

/-- The number of rows of a statement. -/
def count (e : Executor State Row) (select : Select) : Execute State Nat := do
  if select.decided? = some false then return 0
  return match ← e.scalar (select.toCount none) with
    | some x => x.toCount
    | none => 0

/-- The sum of an expression over the rows of a statement, zero where there are none. -/
def sum (e : Executor State Row) (select : Select) (expr : Expr) : Execute State Binary64 := do
  if select.decided? = some false then return .zero
  return (← e.scalar (select.toSum expr)).getD .zero

/-- Whether a statement has a row. -/
def hasRows (e : Executor State Row) (select : Select) : Execute State Bool := do
  if select.decided? = some false then return false
  return match ← e.scalar select.toExists with
    | some x => !x.same .zero
    | none => false

/-- Runs an `INSERT` and gives the number of rows it changed. -/
def insert (e : Executor State Row) (statement : Insert) : Execute State Nat := do
  let s ← rendered (statement.render e.connection.dialect)
  e.send s e.connection.execute

/-- Runs an `UPDATE` and gives the number of rows it changed. -/
def update (e : Executor State Row) (statement : Update) : Execute State Nat := do
  if statement.decided? = some false then return 0
  let s ← rendered (statement.render e.connection.dialect .none)
  e.send s e.connection.execute

end Executor

end FilterSql
