import FilterSql.Execute.Basic
import FilterSql.Proofs.Basic

/-!
# Calls of an executor

What one call does, in one lemma for all kinds of calls (`Call.run_action`): a call that is settled
or cannot be written sends nothing, and every other call sends one request, answers with the reply
to it and then notes the time that it took. The proofs about executors use nothing else of them.
-/

namespace FilterSql

variable {State Row : Type}

/-! ## Requests -/

/-- A statement, with what it is sent for. -/
inductive Request where
  | query (s : Statement)
  | scalar (s : Statement)
  | execute (s : Statement)

/-- The statement that is sent. -/
def Request.statement : Request → Statement
  | .query s => s
  | .scalar s => s
  | .execute s => s

/-- What a connection gives for a request, depending on what it is sent for. -/
inductive Outcome (Row : Type) where
  | rows (rows : List Row)
  | scalar (value : Option Binary64)
  | affected (count : Nat)

/-- The reply with what is made of its result. -/
def Reply.map {α β : Type} (f : α → β) (reply : Reply α) : Reply β :=
  ⟨reply.result.map f, reply.elapsed⟩

/-- Sends a request. -/
def Connection.request (c : Connection State Row) : Request → StateM State (Reply (Outcome Row))
  | .query s => return (← c.query s).map .rows
  | .scalar s => return (← c.scalar s).map .scalar
  | .execute s => return (← c.execute s).map .affected

/-! ## Calls -/

/-- A call of an executor. -/
inductive Call where
  | fetch (select : Select)
  | count (select : Select)
  | sum (select : Select) (expr : Expr)
  | hasRows (select : Select)
  | insert (statement : Insert)
  | update (statement : Update)

/-- What a call gives. -/
inductive Answer (Row : Type) where
  | rows (rows : List Row)
  | number (n : Nat)
  | sum (x : Binary64)
  | found (b : Bool)

namespace Call

/-- Makes a call. -/
def action (e : Executor State Row) : Call → Execute State (Answer Row)
  | .fetch s => return .rows (← e.fetch s)
  | .count s => return .number (← e.count s)
  | .sum s expr => return .sum (← e.sum s expr)
  | .hasRows s => return .found (← e.hasRows s)
  | .insert s => return .number (← e.insert s)
  | .update s => return .number (← e.update s)

/-- Whether it is known without a row that the call matches none. -/
def isNever : Call → Bool
  | .fetch s => s.decided? = some false
  | .count s => s.decided? = some false
  | .sum s _ => s.decided? = some false
  | .hasRows s => s.decided? = some false
  | .insert _ => false
  | .update s => s.decided? = some false

/-- The answer where no row matches. -/
def nothing : Call → Answer Row
  | .fetch _ => .rows []
  | .count _ => .number 0
  | .sum _ _ => .sum .zero
  | .hasRows _ => .found false
  | .insert _ => .number 0
  | .update _ => .number 0

/-- The request that a call is written as, with the statement that counts, adds up or asks for rows
where the call does. -/
def written (d : Dialect) : Call → Except RenderError Request
  | .fetch s => (s.render d .none).run.map .query
  | .count s => ((s.toCount none).render d .none).run.map .scalar
  | .sum s expr => ((s.toSum expr).render d .none).run.map .scalar
  | .hasRows s => (s.toExists.render d .none).run.map .scalar
  | .insert s => (s.render d).run.map .execute
  | .update s => (s.render d .none).run.map .execute

/-- The request that a call sends: none where no row matches, or where it cannot be written. -/
def sends (d : Dialect) (call : Call) : Option Request :=
  if call.isNever then none else (call.written d).toOption

/-- The answer of a call to the outcome of its request. An outcome of another kind does not come
up. -/
def answer : Call → Outcome Row → Answer Row
  | .fetch _, .rows rows => .rows rows
  | .count _, .scalar value => .number (match value with | some x => x.toCount | none => 0)
  | .sum _ _, .scalar value => .sum (value.getD .zero)
  | .hasRows _, .scalar value =>
    .found (match value with | some x => !x.same .zero | none => false)
  | .insert _, .affected n => .number n
  | .update _, .affected n => .number n
  | _, _ => .number 0

/-- The result of a call from the reply to its request. The error of a database is passed on as it
is. -/
def result (call : Call) (reply : Reply (Outcome Row)) : Except ExecuteError (Answer Row) :=
  match reply.result with
  | .ok outcome => .ok (call.answer outcome)
  | .error text => .error (.database text)

/-- The result of a call does not depend on the time that it took. -/
theorem result_congr (call : Call) {reply reply' : Reply (Outcome Row)}
    (h : reply.result = reply'.result) : call.result reply = call.result reply' := by
  unfold result
  rw [h]

end Call

/-! ## What an action does to a session -/

namespace Execute

/-- A computation that fails ends the call there. -/
theorem run_bind {α β : Type} (x : Execute State α) (f : α → Execute State β)
    (session : Session State) :
    (x >>= f).run.run session =
      match x.run.run session with
      | (.ok a, session) => (f a).run.run session
      | (.error error, session) => (.error error, session) := by
  show (ExceptT.bindCont f (x.run.run session).1).run (x.run.run session).2 = _
  cases x.run.run session with
  | mk result session => cases result <;> rfl

/-- An action of the connection changes its state and cannot fail. -/
theorem run_lift {α : Type} (action : StateM State α) (session : Session State) :
    (lift action).run.run session =
      let (a, state) := action.run session.state
      (.ok a, ⟨state, session.report⟩) := rfl

end Execute

/-! ## What is noted of a request -/

/-- Whether a statement that took some nanoseconds is reported. -/
def Diagnostics.isSlow (d : Option Diagnostics) (elapsed : Nat) : Bool :=
  match d with
  | some d => d.slowFrom * 1000000 ≤ elapsed
  | none => false

/-- Whether the plan of a statement that is reported is asked for. -/
def Diagnostics.asksPlan (d : Option Diagnostics) : Bool :=
  match d with
  | some d => d.explainSlow
  | none => false

/-- The report of a statement. -/
def SlowReport.of (s : Statement) (elapsed : Nat) (plan : List PlanStep) : SlowReport :=
  ⟨s.text, s.values.length, elapsed, plan⟩

namespace Executor

variable (e : Executor State Row)

/-- The session behind a statement that took some nanoseconds: it is reported if that was slow, with
its plan if that is asked for. -/
def noted (s : Statement) (elapsed : Nat) (session : Session State) : Session State :=
  if Diagnostics.isSlow e.diagnostics elapsed then
    if Diagnostics.asksPlan e.diagnostics then
      let (plan, state) := (e.connection.plan s).run session.state
      ⟨state, some (SlowReport.of s elapsed (plan.toOption.getD []))⟩
    else ⟨session.state, some (SlowReport.of s elapsed [])⟩
  else session

variable {e} {s : Statement} {elapsed : Nat} {session : Session State}

/-- A quick statement is not noted. -/
theorem noted_quick (h : ¬ Diagnostics.isSlow e.diagnostics elapsed) :
    e.noted s elapsed session = session := by
  rw [noted, if_neg h]

/-- A slow statement is noted without its plan where no plan is asked for. -/
theorem noted_slow (h : Diagnostics.isSlow e.diagnostics elapsed)
    (hplan : ¬ Diagnostics.asksPlan e.diagnostics) :
    e.noted s elapsed session = ⟨session.state, some (SlowReport.of s elapsed [])⟩ := by
  rw [noted, if_pos h, if_neg hplan]

/-- A slow statement is noted with its plan where one is asked for. -/
theorem noted_planned (h : Diagnostics.isSlow e.diagnostics elapsed)
    (hplan : Diagnostics.asksPlan e.diagnostics) :
    e.noted s elapsed session =
      let (plan, state) := (e.connection.plan s).run session.state
      ⟨state, some (SlowReport.of s elapsed (plan.toOption.getD []))⟩ := by
  rw [noted, if_pos h, if_pos hplan]

variable (e)

/-- A plan is asked for only where slow statements are explained. -/
theorem run_planOf (d : Diagnostics) (s : Statement) (session : Session State) :
    (e.planOf d s).run.run session =
      if d.explainSlow then
        let (plan, state) := (e.connection.plan s).run session.state
        (.ok (plan.toOption.getD []), ⟨state, session.report⟩)
      else (.ok [], session) := by
  unfold planOf
  split
  · rw [Execute.run_bind, Execute.run_lift]
    cases (e.connection.plan s).run session.state with
    | mk plan state => cases plan <;> rfl
  · rfl

/-- A report never fails, and it leaves what is noted. -/
theorem run_report (s : Statement) (elapsed : Nat) (session : Session State) :
    (e.report s elapsed).run.run session = (.ok (), e.noted s elapsed session) := by
  unfold report noted
  cases e.diagnostics with
  | none => rfl
  | some d =>
    by_cases hslow : d.slowFrom * 1000000 ≤ elapsed
    · have hisSlow : Diagnostics.isSlow (some d) elapsed = true := decide_eq_true hslow
      rw [if_pos hisSlow]
      simp only [if_pos hslow]
      rw [Execute.run_bind, run_planOf]
      cases hplan : d.explainSlow <;> simp only [Diagnostics.asksPlan, hplan] <;> rfl
    · have hquick : ¬ Diagnostics.isSlow (some d) elapsed = true := by
        simpa [Diagnostics.isSlow] using hslow
      rw [if_neg hquick]
      simp only [if_neg hslow]
      rfl

/-- A statement that is sent is noted whatever the reply to it is. -/
theorem run_send {α : Type} (s : Statement) (action : Statement → StateM State (Reply α))
    (session : Session State) :
    (e.send s action).run.run session =
      let (reply, state) := (action s).run session.state
      (reply.result.mapError .database, e.noted s reply.elapsed ⟨state, session.report⟩) := by
  unfold send
  rw [Execute.run_bind, Execute.run_lift]
  cases (action s).run session.state with
  | mk reply state =>
    dsimp only
    rw [Execute.run_bind, run_report]
    cases reply.result <;> rfl

/-- A statement that cannot be written ends the call, and nothing is sent. -/
theorem run_rendered (render : Render String) (session : Session State) :
    (rendered render : Execute State Statement).run.run session =
      (render.run.mapError .render, session) := by
  unfold rendered
  cases render.run <;> rfl

end Executor

namespace Call

variable (e : Executor State Row)

/-- A call that is settled sends nothing. -/
theorem run_never (call : Call) (h : call.isNever) (session : Session State) :
    (call.action e).run.run session = (.ok call.nothing, session) := by
  cases call with
  | fetch s => simp only [action, Executor.fetch, if_pos (of_decide_eq_true h)]; rfl
  | count s => simp only [action, Executor.count, if_pos (of_decide_eq_true h)]; rfl
  | sum s expr => simp only [action, Executor.sum, if_pos (of_decide_eq_true h)]; rfl
  | hasRows s => simp only [action, Executor.hasRows, if_pos (of_decide_eq_true h)]; rfl
  | insert s => exact absurd h Bool.false_ne_true
  | update s => simp only [action, Executor.update, if_pos (of_decide_eq_true h)]; rfl

/-- What a call that is not settled does: it renders a statement, sends it for some purpose and
makes its answer of what comes back. -/
theorem run_ask {α : Type} (call : Call) (render : Render String)
    (action : Statement → StateM State (Reply α)) (make : α → Answer Row)
    (request : Statement → Request) (outcome : α → Outcome Row)
    (hrequest : ∀ s state, (e.connection.request (request s)).run state =
      let (reply, state) := (action s).run state
      (reply.map outcome, state))
    (hstatement : ∀ s, (request s).statement = s)
    (hanswer : ∀ a, call.answer (outcome a) = make a) (session : Session State) :
    (do
      let s ← Executor.rendered render
      let a ← e.send s action
      return make a : Execute State (Answer Row)).run.run session =
      match render.run.map request with
      | .error error => (.error (.render error), session)
      | .ok request =>
        let (reply, state) := (e.connection.request request).run session.state
        (call.result reply, e.noted request.statement reply.elapsed ⟨state, session.report⟩) := by
  rw [Execute.run_bind, Executor.run_rendered]
  cases render.run with
  | error error => rfl
  | ok s =>
    show ((do let a ← e.send s action; return make a : Execute State _).run.run session) =
      let (reply, state) := (e.connection.request (request s)).run session.state
      (call.result reply, e.noted (request s).statement reply.elapsed ⟨state, session.report⟩)
    rw [Execute.run_bind, Executor.run_send, hrequest, hstatement]
    cases (action s).run session.state with
    | mk reply state =>
      obtain ⟨outcome, elapsed⟩ := reply
      cases outcome with
      | error text => rfl
      | ok a =>
        have hresult : call.result (Reply.map outcome ⟨.ok a, elapsed⟩) = .ok (make a) :=
          congrArg Except.ok (hanswer a)
        simp only [hresult]
        rfl

/-- A call does nothing, or sends one request, answers with the reply to it and notes the time that
it took. -/
theorem run_action (call : Call) (session : Session State) :
    (call.action e).run.run session =
      if call.isNever then (.ok call.nothing, session)
      else
        match call.written e.connection.dialect with
        | .error error => (.error (.render error), session)
        | .ok request =>
          let (reply, state) := (e.connection.request request).run session.state
          (call.result reply, e.noted request.statement reply.elapsed ⟨state, session.report⟩) := by
  by_cases hnever : call.isNever
  · rw [if_pos hnever, run_never e call hnever]
  · rw [if_neg hnever]
    cases call with
    | fetch s =>
      simp only [action, Executor.fetch, if_neg (fun h => hnever (decide_eq_true h)), bind_assoc]
      exact run_ask e (.fetch s) _ _ _ .query .rows (fun _ _ => rfl) (fun _ => rfl) (fun _ => rfl) _
    | count s =>
      simp only [action, Executor.count, Executor.scalar,
        if_neg (fun h => hnever (decide_eq_true h)), bind_assoc, pure_bind]
      exact run_ask e (.count s) _ _ _ .scalar .scalar (fun _ _ => rfl) (fun _ => rfl)
        (fun _ => rfl) _
    | sum s expr =>
      simp only [action, Executor.sum, Executor.scalar,
        if_neg (fun h => hnever (decide_eq_true h)), bind_assoc, pure_bind]
      exact run_ask e (.sum s expr) _ _ _ .scalar .scalar (fun _ _ => rfl) (fun _ => rfl)
        (fun _ => rfl) _
    | hasRows s =>
      simp only [action, Executor.hasRows, Executor.scalar,
        if_neg (fun h => hnever (decide_eq_true h)), bind_assoc, pure_bind]
      exact run_ask e (.hasRows s) _ _ _ .scalar .scalar (fun _ _ => rfl) (fun _ => rfl)
        (fun _ => rfl) _
    | insert s =>
      simp only [action, Executor.insert, bind_assoc]
      exact run_ask e (.insert s) _ _ _ .execute .affected (fun _ _ => rfl) (fun _ => rfl)
        (fun _ => rfl) _
    | update s =>
      simp only [action, Executor.update, if_neg (fun h => hnever (decide_eq_true h)), bind_assoc]
      exact run_ask e (.update s) _ _ _ .execute .affected (fun _ _ => rfl) (fun _ => rfl)
        (fun _ => rfl) _

end Call

end FilterSql
