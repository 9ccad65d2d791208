import FilterSql.Execute.Script
import FilterSql.Proofs.Execute.Calls
import Mathlib.Data.List.Basic

/-!
# Traces of an executor

`Executor.run_trace` is the statement to read first. A trace is what a connection that writes down
everything it is asked for sees of a sequence of calls. Each call sends its one request or none, as
it would with any other settings for slow statements; its result is made of the reply alone; and the
report is about the last statement that was slow.

The results depend on the settings in one way only, through the plans that are asked for. Where none
of these changes a later answer (`Executor.Quiet`), neither do the settings; a transaction that a
failing plan aborts is one that does (`Executor.results_behind_plan`).
-/

namespace FilterSql

variable {State State' Row : Type}

/-! ## Connections that write down what they are asked for -/

/-- What a connection is asked for, with what it gives. -/
inductive Event (Row : Type) where
  | sent (request : Request) (reply : Reply (Outcome Row))
  | planned (statement : Statement) (plan : Except String (List PlanStep))

/-- The request of an event, where it is not about a plan. -/
def Event.request? : Event Row → Option Request
  | .sent request _ => some request
  | .planned _ _ => none

namespace Connection

/-- An action that writes down an event. -/
def record {α : Type} (action : StateM State α) (event : α → Event Row) :
    StateM (State × List (Event Row)) α := fun (state, events) =>
  let (a, state) := action.run state
  (a, state, events ++ [event a])

/-- The connection that writes down every event. -/
def recorded (c : Connection State Row) : Connection (State × List (Event Row)) Row where
  dialect := c.dialect
  query s := record (c.query s) fun reply => .sent (.query s) (reply.map .rows)
  scalar s := record (c.scalar s) fun reply => .sent (.scalar s) (reply.map .scalar)
  execute s := record (c.execute s) fun reply => .sent (.execute s) (reply.map .affected)
  plan s := record (c.plan s) (.planned s)

/-- Writing requests down does not change the replies to them. -/
theorem recorded_request (c : Connection State Row) (request : Request) (state : State)
    (events : List (Event Row)) :
    (c.recorded.request request).run (state, events) =
      let (reply, state) := (c.request request).run state
      (reply, state, events ++ [.sent request reply]) := by
  cases request <;> rfl

/-- What the results of some requests are, one after the other. -/
def results (c : Connection State Row) : List Request → State → List (Except String (Outcome Row))
  | [], _ => []
  | request :: requests, state =>
    let (reply, state) := (c.request request).run state
    reply.result :: c.results requests state

/-- Two connections give the same results from here on, whatever they are sent. The times they take
may differ. -/
def Alike (c : Connection State Row) (state : State) (c' : Connection State' Row)
    (state' : State') : Prop :=
  ∀ requests, c.results requests state = c'.results requests state'

/-- Asking for a plan changes no later result. -/
def PlansQuietly (c : Connection State Row) : Prop :=
  ∀ s state, c.Alike ((c.plan s).run state).2 c state

section Alike

variable {c : Connection State Row} {state : State} {c' : Connection State' Row} {state' : State'}

/-- The connections may change places. -/
theorem Alike.symm (h : c.Alike state c' state') : c'.Alike state' c state :=
  fun requests => (h requests).symm

/-- Connections that are like one connection are like each other. -/
theorem Alike.trans {State'' : Type} {c'' : Connection State'' Row} {state'' : State''}
    (h : c.Alike state c' state') (h' : c'.Alike state' c'' state'') :
    c.Alike state c'' state'' :=
  fun requests => (h requests).trans (h' requests)

/-- Connections that are alike give the same result to a request and are alike behind it. -/
theorem Alike.request (h : c.Alike state c' state') (request : Request) :
    ((c.request request).run state).1.result = ((c'.request request).run state').1.result ∧
      c.Alike ((c.request request).run state).2 c' ((c'.request request).run state').2 :=
  ⟨(List.cons.inj (h [request])).1, fun requests => (List.cons.inj (h (request :: requests))).2⟩

end Alike

end Connection

namespace Script

/-- The results of a script do not depend on what it was sent before. -/
theorem results_sent {d : Dialect} {plan : Except String (List PlanStep)}
    (requests : List Request) (replies : List (ScriptReply Row))
    (sent sent' : List (Purpose × Statement)) :
    (connection d plan).results requests ⟨replies, sent⟩ =
      (connection d plan).results requests ⟨replies, sent'⟩ := by
  induction requests generalizing replies sent sent' with
  | nil => rfl
  | cons request requests ih =>
    cases request with
    | query s => exact congrArg (List.cons _) (ih replies.tail _ _)
    | scalar s => exact congrArg (List.cons _) (ih replies.tail _ _)
    | execute s => exact congrArg (List.cons _) (ih replies.tail _ _)

/-- A script remembers that it was asked for a plan, and nothing else follows from it. -/
theorem connection_plansQuietly (d : Dialect) (plan : Except String (List PlanStep)) :
    (connection d plan : Connection (Script Row) Row).PlansQuietly :=
  fun _ script requests => results_sent requests script.replies _ _

end Script

/-! ## Traces -/

namespace Executor

/-- The results of some calls, one after the other. A call that fails does not stop the others. -/
def results (e : Executor State Row) :
    List Call → StateM (Session State) (List (Except ExecuteError (Answer Row)))
  | [] => return []
  | call :: calls => return (← (call.action e).run) :: (← e.results calls)

/-- The executor on the connection that writes down every event. -/
def recorded (e : Executor State Row) : Executor (State × List (Event Row)) Row :=
  ⟨e.connection.recorded, e.diagnostics⟩

end Executor

/-- What is seen of a call. -/
structure Observation (Row : Type) where
  call : Call
  result : Except ExecuteError (Answer Row)
  events : List (Event Row)

namespace Observation

/-- The requests that a call sends. -/
def requests (o : Observation Row) : List Request :=
  o.events.filterMap Event.request?

/-- The report of a call that sent a slow statement. -/
def slow? (diagnostics : Option Diagnostics) (o : Observation Row) : Option SlowReport :=
  match o.events with
  | .sent request reply :: plans =>
    if Diagnostics.isSlow diagnostics reply.elapsed then
      some (SlowReport.of request.statement reply.elapsed
        (match plans with
        | .planned _ plan :: _ => plan.toOption.getD []
        | _ => []))
    else none
  | _ => none

/-- What a call may be seen to do. -/
inductive Lawful (d : Dialect) (diagnostics : Option Diagnostics) : Observation Row → Prop where
  /-- No row matches. -/
  | settled {call : Call} (h : call.isNever) : Lawful d diagnostics ⟨call, .ok call.nothing, []⟩
  | unwritten {call : Call} {error : RenderError} (h : ¬ call.isNever)
      (hwritten : call.written d = .error error) :
      Lawful d diagnostics ⟨call, .error (.render error), []⟩
  | sent {call : Call} {request : Request} {reply : Reply (Outcome Row)} (h : ¬ call.isNever)
      (hwritten : call.written d = .ok request)
      (hplan : ¬ (Diagnostics.isSlow diagnostics reply.elapsed ∧
        Diagnostics.asksPlan diagnostics)) :
      Lawful d diagnostics ⟨call, call.result reply, [.sent request reply]⟩
  /-- The plan is asked for behind the request and may fail. -/
  | planned {call : Call} {request : Request} {reply : Reply (Outcome Row)}
      {plan : Except String (List PlanStep)} (h : ¬ call.isNever)
      (hwritten : call.written d = .ok request)
      (hslow : Diagnostics.isSlow diagnostics reply.elapsed)
      (hplan : Diagnostics.asksPlan diagnostics) :
      Lawful d diagnostics
        ⟨call, call.result reply, [.sent request reply, .planned request.statement plan]⟩

/-- A lawful call sends the request that it sends by itself. -/
theorem Lawful.requests_eq {d : Dialect} {diagnostics : Option Diagnostics} {o : Observation Row}
    (h : o.Lawful d diagnostics) : o.requests = (o.call.sends d).toList := by
  cases h with
  | settled h => simp [requests, Call.sends, h]
  | unwritten h hwritten => simp [requests, Call.sends, h, hwritten, Except.toOption]
  | sent h hwritten hplan =>
    simp [requests, Call.sends, h, hwritten, Except.toOption, Event.request?]
  | planned h hwritten hslow hplan =>
    simp [requests, Call.sends, h, hwritten, Except.toOption, Event.request?]

end Observation

namespace Executor

/-- A call with its result and the events of it, and the session behind it. -/
def observe (e : Executor State Row) (call : Call) (session : Session State) :
    Observation Row × Session State :=
  let (result, session) := (call.action e.recorded).run.run ⟨(session.state, []), session.report⟩
  (⟨call, result, session.state.2⟩, ⟨session.state.1, session.report⟩)

/-- What is seen of some calls, one after the other. -/
def trace (e : Executor State Row) : List Call → Session State → List (Observation Row)
  | [], _ => []
  | call :: calls, session =>
    let (o, session) := e.observe call session
    o :: e.trace calls session

/-- What is seen of calls is seen of the first and then of the rest. -/
theorem trace_cons (e : Executor State Row) (call : Call) (calls : List Call)
    (session : Session State) :
    e.trace (call :: calls) session =
      (e.observe call session).1 :: e.trace calls (e.observe call session).2 := rfl

/-- The plans that are asked for behind a statement that took some nanoseconds. -/
def plans (e : Executor State Row) (s : Statement) (elapsed : Nat) (state : State) :
    List (Event Row) :=
  if Diagnostics.isSlow e.diagnostics elapsed ∧ Diagnostics.asksPlan e.diagnostics then
    [.planned s ((e.connection.plan s).run state).1]
  else []

variable (e : Executor State Row)

/-- What is noted is the same where the events are recorded. -/
theorem recorded_noted (s : Statement) (elapsed : Nat) (state : State) (events : List (Event Row))
    (report : Option SlowReport) :
    e.recorded.noted s elapsed ⟨(state, events), report⟩ =
      let next := e.noted s elapsed ⟨state, report⟩
      ⟨(next.state, events ++ e.plans s elapsed state), next.report⟩ := by
  have hdiagnostics : e.recorded.diagnostics = e.diagnostics := rfl
  unfold plans
  by_cases hslow : Diagnostics.isSlow e.diagnostics elapsed
  · by_cases hplan : Diagnostics.asksPlan e.diagnostics
    · rw [noted_planned (hdiagnostics ▸ hslow) (hdiagnostics ▸ hplan), noted_planned hslow hplan,
        if_pos ⟨hslow, hplan⟩]
      rfl
    · rw [noted_slow (hdiagnostics ▸ hslow) (hdiagnostics ▸ hplan), noted_slow hslow hplan,
        if_neg (fun h => hplan h.2), List.append_nil]
  · rw [noted_quick (hdiagnostics ▸ hslow), noted_quick hslow, if_neg (fun h => hslow h.1),
      List.append_nil]

/-- What is seen of a call that sends a request. -/
theorem observe_sent {call : Call} {session : Session State} {request : Request}
    {reply : Reply (Outcome Row)} {state : State} (hnever : ¬ call.isNever)
    (hwritten : call.written e.connection.dialect = .ok request)
    (hreply : (e.connection.request request).run session.state = (reply, state)) :
    e.observe call session =
      (⟨call, call.result reply,
          .sent request reply :: e.plans request.statement reply.elapsed state⟩,
        e.noted request.statement reply.elapsed ⟨state, session.report⟩) := by
  have hrecorded : (e.recorded.connection.request request).run (session.state, []) =
      (reply, state, [.sent request reply]) := by
    rw [show e.recorded.connection = e.connection.recorded from rfl, Connection.recorded_request,
      hreply]
    rfl
  have hrequest : call.written e.recorded.connection.dialect = .ok request := hwritten
  unfold observe
  rw [Call.run_action, if_neg hnever, hrequest]
  simp only [hrecorded, recorded_noted]
  rfl

/-- The report behind a call that sends a request is about that request where it was slow. -/
theorem noted_report (call : Call) (request : Request) (reply : Reply (Outcome Row)) (state : State)
    (report : Option SlowReport) :
    (e.noted request.statement reply.elapsed ⟨state, report⟩).report =
      (Observation.slow? e.diagnostics ⟨call, call.result reply,
        .sent request reply :: e.plans request.statement reply.elapsed state⟩).or report := by
  unfold plans Observation.slow?
  by_cases hslow : Diagnostics.isSlow e.diagnostics reply.elapsed
  · dsimp only
    rw [if_pos hslow]
    by_cases hplan : Diagnostics.asksPlan e.diagnostics
    · rw [noted_planned hslow hplan, if_pos ⟨hslow, hplan⟩]
      rfl
    · rw [noted_slow hslow hplan, if_neg (fun h => hplan h.2)]
      rfl
  · dsimp only
    rw [noted_quick hslow, if_neg hslow]
    rfl

/-- Writing down is not noticed: the call does what it does without, and what is seen of it is
lawful. -/
theorem observe_spec (call : Call) (session : Session State) :
    (call.action e).run.run session =
        ((e.observe call session).1.result, (e.observe call session).2) ∧
      (e.observe call session).1.call = call ∧
      (e.observe call session).1.Lawful e.connection.dialect e.diagnostics ∧
      (e.observe call session).2.report =
        ((e.observe call session).1.slow? e.diagnostics).or session.report := by
  rw [Call.run_action]
  by_cases hnever : call.isNever
  · have hobserve : e.observe call session = (⟨call, .ok call.nothing, []⟩, session) := by
      unfold observe
      rw [Call.run_action, if_pos hnever]
    rw [if_pos hnever, hobserve]
    exact ⟨rfl, rfl, .settled hnever, rfl⟩
  · rw [if_neg hnever]
    cases hwritten : call.written e.connection.dialect with
    | error error =>
      have hobserve : e.observe call session = (⟨call, .error (.render error), []⟩, session) := by
        have hrecorded : call.written e.recorded.connection.dialect = .error error := hwritten
        unfold observe
        rw [Call.run_action, if_neg hnever, hrecorded]
      rw [hobserve]
      exact ⟨rfl, rfl, .unwritten hnever hwritten, rfl⟩
    | ok request =>
      cases hreply : (e.connection.request request).run session.state with
      | mk reply state =>
        rw [observe_sent e hnever hwritten hreply]
        refine ⟨by simp only [hreply], rfl, ?_,
          e.noted_report call request reply state session.report⟩
        unfold plans
        split
        next h => exact .planned hnever hwritten h.1 h.2
        next h => exact .sent hnever hwritten h

/-- The results of some calls are those that are seen of them, each of which is lawful, and the
report is the last one that is seen. -/
theorem results_spec (calls : List Call) (session : Session State) :
    ((e.results calls).run session).1 = (e.trace calls session).map (·.result) ∧
      (e.trace calls session).map (·.call) = calls ∧
      (∀ o ∈ e.trace calls session, o.Lawful e.connection.dialect e.diagnostics) ∧
      ((e.results calls).run session).2.report =
        ((e.trace calls session).filterMap (·.slow? e.diagnostics)).getLast?.or session.report := by
  induction calls generalizing session with
  | nil => exact ⟨rfl, rfl, nofun, rfl⟩
  | cons call calls ih =>
    obtain ⟨hresult, hcall, hlawful, hreport⟩ := e.observe_spec call session
    have hrun : (e.results (call :: calls)).run session =
        let (results, last) := (e.results calls).run (e.observe call session).2
        ((e.observe call session).1.result :: results, last) := by
      show (let (result, next) := (call.action e).run.run session
        let (results, last) := (e.results calls).run next
        (result :: results, last)) = _
      rw [hresult]
      rfl
    obtain ⟨hresults, hcalls, hlawfuls, hlast⟩ := ih (e.observe call session).2
    refine ⟨?_, ?_, ?_, ?_⟩
    · rw [hrun]
      exact congrArg _ hresults
    · exact congr (congrArg _ hcall) hcalls
    · exact List.forall_mem_cons.2 ⟨hlawful, hlawfuls⟩
    · rw [hrun]
      show ((e.results calls).run (e.observe call session).2).2.report = _
      rw [hlast, hreport, trace_cons]
      cases hslow : (e.observe call session).1.slow? e.diagnostics with
      | none =>
        rw [List.filterMap_cons_none hslow]
        rfl
      | some report =>
        rw [List.filterMap_cons_some hslow, List.getLast?_cons]
        cases List.getLast? _ <;> rfl

/-! ## Results that do not depend on what is noted -/

/-- The plan that a call asks for, if it does, changes no later result. -/
def QuietAt (call : Call) (session : Session State) : Prop :=
  ∀ request, call.sends e.connection.dialect = some request →
    let (reply, state) := (e.connection.request request).run session.state
    Diagnostics.isSlow e.diagnostics reply.elapsed → Diagnostics.asksPlan e.diagnostics →
      e.connection.Alike ((e.connection.plan request.statement).run state).2 e.connection state

/-- No plan that is asked for during some calls changes a later result. -/
def Quiet : List Call → Session State → Prop
  | [], _ => True
  | call :: calls, session =>
    e.QuietAt call session ∧ Quiet calls ((call.action e).run.run session).2

/-- An executor is quiet where it asks for no plans, and where no plan of its connection changes a
later result. -/
theorem quiet_of_plansQuietly
    (h : Diagnostics.asksPlan e.diagnostics → e.connection.PlansQuietly) (calls : List Call)
    (session : Session State) : e.Quiet calls session := by
  induction calls generalizing session with
  | nil => exact trivial
  | cons call calls ih => exact ⟨fun request _ _ hplan => h hplan request.statement _, ih _⟩

variable {e} {e' : Executor State' Row}

/-- The state behind a statement that is noted is alike to that before, if the state behind its plan
is. -/
theorem noted_alike {s : Statement} {elapsed : Nat} (session : Session State)
    (h : Diagnostics.isSlow e.diagnostics elapsed → Diagnostics.asksPlan e.diagnostics →
      e.connection.Alike ((e.connection.plan s).run session.state).2 e.connection session.state) :
    e.connection.Alike (e.noted s elapsed session).state e.connection session.state := by
  by_cases hslow : Diagnostics.isSlow e.diagnostics elapsed
  · by_cases hplan : Diagnostics.asksPlan e.diagnostics
    · rw [noted_planned hslow hplan]
      exact h hslow hplan
    · rw [noted_slow hslow hplan]
      exact fun _ => rfl
  · rw [noted_quick hslow]
    exact fun _ => rfl

/-- A call gives the same result on connections that are alike, which are alike behind it. -/
theorem action_alike (hdialect : e.connection.dialect = e'.connection.dialect)
    {session : Session State} {session' : Session State'}
    (h : e.connection.Alike session.state e'.connection session'.state) {call : Call}
    (hquiet : e.QuietAt call session) (hquiet' : e'.QuietAt call session') :
    ((call.action e).run.run session).1 = ((call.action e').run.run session').1 ∧
      e.connection.Alike ((call.action e).run.run session).2.state e'.connection
        ((call.action e').run.run session').2.state := by
  rw [Call.run_action, Call.run_action, hdialect]
  by_cases hnever : call.isNever
  · rw [if_pos hnever, if_pos hnever]
    exact ⟨rfl, h⟩
  · rw [if_neg hnever, if_neg hnever]
    cases hwritten : call.written e'.connection.dialect with
    | error error => exact ⟨rfl, h⟩
    | ok request =>
      have hsends : call.sends e'.connection.dialect = some request := by
        rw [Call.sends, if_neg hnever, hwritten]
        rfl
      obtain ⟨hresult, halike⟩ := h.request request
      refine ⟨call.result_congr hresult, ?_⟩
      have hbefore := noted_alike
        ⟨((e.connection.request request).run session.state).2, session.report⟩
        (hquiet request (hdialect ▸ hsends))
      have hbehind := noted_alike
        ⟨((e'.connection.request request).run session'.state).2, session'.report⟩
        (hquiet' request hsends)
      exact hbefore.trans (halike.trans hbehind.symm)

/-- Calls give the same results on connections that are alike, as long as the plans that are asked
for are quiet. -/
theorem results_alike (hdialect : e.connection.dialect = e'.connection.dialect)
    {session : Session State} {session' : Session State'}
    (h : e.connection.Alike session.state e'.connection session'.state) {calls : List Call}
    (hquiet : e.Quiet calls session) (hquiet' : e'.Quiet calls session') :
    ((e.results calls).run session).1 = ((e'.results calls).run session').1 := by
  induction calls generalizing session session' with
  | nil => rfl
  | cons call calls ih =>
    obtain ⟨hresult, halike⟩ := action_alike hdialect h hquiet.1 hquiet'.1
    exact congr (congrArg _ hresult) (ih halike hquiet.2 hquiet'.2)

variable (e)

/-- Whatever a connection replies and however slow it is, calls send the requests that they would
send with any other diagnostics, in order and one for each call that is not settled and can be
written; what they give is made of the replies alone; and the report is about the last statement
that was slow. Where no plan that is asked for changes a later result, other diagnostics and other
times give the same results. -/
theorem run_trace (calls : List Call) (session : Session State) :
    ((e.results calls).run session).1 = (e.trace calls session).map (·.result) ∧
      (e.trace calls session).map (·.call) = calls ∧
      (∀ o ∈ e.trace calls session, o.Lawful e.connection.dialect e.diagnostics) ∧
      (e.trace calls session).flatMap (·.requests) =
        calls.filterMap (·.sends e.connection.dialect) ∧
      ((e.results calls).run session).2.report =
        ((e.trace calls session).filterMap (·.slow? e.diagnostics)).getLast?.or session.report ∧
      ∀ {State' : Type} (e' : Executor State' Row) (session' : Session State'),
        e'.connection.dialect = e.connection.dialect →
        e'.connection.Alike session'.state e.connection session.state →
        e'.Quiet calls session' → e.Quiet calls session →
        ((e'.results calls).run session').1 = ((e.results calls).run session).1 := by
  obtain ⟨hresults, hcalls, hlawful, hreport⟩ := e.results_spec calls session
  refine ⟨hresults, hcalls, hlawful, ?_, hreport, ?_⟩
  · calc (e.trace calls session).flatMap (·.requests)
        = (e.trace calls session).flatMap fun o => (o.call.sends e.connection.dialect).toList :=
          List.flatMap_congr fun o ho => (hlawful o ho).requests_eq
      _ = ((e.trace calls session).map (·.call)).filterMap (·.sends e.connection.dialect) := by
          rw [List.filterMap_map, List.filterMap_eq_flatMap_toList]
          rfl
      _ = calls.filterMap (·.sends e.connection.dialect) := by rw [hcalls]
  · intro State' e' session' hdialect halike hquiet' hquiet
    exact results_alike hdialect halike hquiet' hquiet

namespace Sample

/-- All rows of a table. -/
def visits : Select :=
  Select.empty.fromTable ⟨⟨"visits", by decide⟩, none⟩

/-- Rows are asked for, and whether there are rows of a condition that no row meets. -/
def visitCalls : List Call :=
  [.fetch visits, .hasRows (visits.restrict .never)]

/-- An executor on a connection that has no plans. -/
def visitor (diagnostics : Option Diagnostics) : Executor (Script Unit) Unit :=
  ⟨Script.connection .mysql (.error "no plan"), diagnostics⟩

/-- One reply of two rows. -/
def visitSession : Session (Script Unit) :=
  ⟨⟨[{ rows := [(), ()] }], []⟩, none⟩

/-- What a transaction replies, given whether it is aborted. -/
def replyWithin {α : Type} (a : α) : StateM Bool (Reply α) := fun aborted =>
  (⟨if aborted then .error "current transaction is aborted" else .ok a, 0⟩, aborted)

/-- An executor in a transaction that is aborted by the first plan, which fails. -/
def transacting (diagnostics : Option Diagnostics) : Executor Bool Unit where
  connection :=
    { dialect := .postgres
      query := fun _ => replyWithin [()]
      scalar := fun _ => replyWithin none
      execute := fun _ => replyWithin 0
      plan := fun _ _ => (.error "canceling statement due to statement timeout", true) }
  diagnostics := diagnostics

end Sample

open Sample in
/-- With and without a report of slow statements a script gives the same two results. -/
theorem run_trace_visits :
    (visitor none).Quiet visitCalls visitSession ∧
      (visitor (some ⟨0, true⟩)).Quiet visitCalls visitSession ∧
      ((visitor none).results visitCalls).run visitSession =
        ([.ok (.rows [(), ()]), .ok (.found false)],
          ⟨⟨[], [(.query, ⟨"SELECT * FROM visits", []⟩)]⟩, none⟩) ∧
      (((visitor (some ⟨0, true⟩)).results visitCalls).run visitSession).1 =
        [.ok (.rows [(), ()]), .ok (.found false)] ∧
      (((visitor (some ⟨0, true⟩)).results visitCalls).run visitSession).2.report =
        some ⟨"SELECT * FROM visits", 0, 0, []⟩ := by
  have hquick : (visitor none).Quiet visitCalls visitSession :=
    (visitor none).quiet_of_plansQuietly (fun h => absurd h Bool.false_ne_true) _ _
  have hslow : (visitor (some ⟨0, true⟩)).Quiet visitCalls visitSession :=
    (visitor (some ⟨0, true⟩)).quiet_of_plansQuietly
      (fun _ => Script.connection_plansQuietly _ _) _ _
  have hrun : ((visitor none).results visitCalls).run visitSession =
      ([.ok (.rows [(), ()]), .ok (.found false)],
        ⟨⟨[], [(.query, ⟨"SELECT * FROM visits", []⟩)]⟩, none⟩) := rfl
  refine ⟨hquick, hslow, hrun, ?_, ?_⟩
  · obtain ⟨-, -, -, -, -, hresults⟩ := (visitor none).run_trace visitCalls visitSession
    rw [hresults (visitor (some ⟨0, true⟩)) visitSession rfl (fun _ => rfl) hslow hquick, hrun]
  · obtain ⟨-, -, -, -, hreport, -⟩ :=
      (visitor (some ⟨0, true⟩)).run_trace visitCalls visitSession
    rw [hreport]
    rfl

open Sample in
/-- The same statement is sent twice in a transaction. The plan of the first one fails and aborts
the transaction, so the second one fails where slow statements are explained and succeeds where they
are not. -/
theorem results_behind_plan :
    (((transacting none).results [.fetch visits, .fetch visits]).run ⟨false, none⟩).1 =
        [.ok (.rows [()]), .ok (.rows [()])] ∧
      (((transacting (some ⟨0, true⟩)).results [.fetch visits, .fetch visits]).run
          ⟨false, none⟩).1 =
        [.ok (.rows [()]), .error (.database "current transaction is aborted")] :=
  ⟨rfl, rfl⟩

end Executor

end FilterSql
