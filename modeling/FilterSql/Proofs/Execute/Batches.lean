import FilterSql.Execute.Batches
import FilterSql.Proofs.Execute.Trace
import FilterSql.Proofs.Sql.Faults

/-!
# Reading a table in batches

A caller asks for the next batch again and again. The batches hold every row that matches once and
by ascending `id`, and the one query that tells that there is no further row is the last
(`Batches.nexts_complete`). A query that fails ends the batches behind those that were read before
it. What carries the induction is that the rows read so far are the first ones in order, and that
the last `id` is that of the last of them.
-/

namespace FilterSql

variable {State Row : Type}

/-- The result of a request. -/
def Event.result? : Event Row → Option (Except String (Outcome Row))
  | .sent _ reply => some reply.result
  | .planned _ _ => none

/-! ## One query -/

namespace Executor

variable (e : Executor State Row)

/-- Rows are asked for with one query, unless it is known that there are none or the statement
cannot be rendered. -/
theorem run_fetch (s : Select) (session : Session State) :
    (e.fetch s).run.run session =
      if s.decided? = some false then (.ok [], session)
      else
        match (s.render e.connection.dialect .none).run with
        | .error error => (.error (.render error), session)
        | .ok statement =>
          let (reply, state) := (e.connection.query statement).run session.state
          (reply.result.mapError .database,
            e.noted statement reply.elapsed ⟨state, session.report⟩) := by
  unfold fetch
  split
  · rfl
  · rw [Execute.run_bind, run_rendered]
    cases (s.render e.connection.dialect .none).run with
    | error error => rfl
    | ok statement => exact e.run_send statement e.connection.query session

/-- The events of asking for rows. -/
def fetchEvents (s : Select) (state : State) : List (Event Row) :=
  if s.decided? = some false then []
  else
    match (s.render e.connection.dialect .none).run with
    | .error _ => []
    | .ok statement =>
      let (reply, state) := (e.connection.query statement).run state
      .sent (.query statement) (reply.map .rows) :: e.plans statement reply.elapsed state

/-- Writing down is not noticed. -/
theorem run_fetch_recorded (s : Select) (state : State) (events : List (Event Row))
    (report : Option SlowReport) :
    (e.recorded.fetch s).run.run ⟨(state, events), report⟩ =
      let (result, session) := (e.fetch s).run.run ⟨state, report⟩
      (result, ⟨(session.state, events ++ e.fetchEvents s state), session.report⟩) := by
  have hdialect : e.recorded.connection.dialect = e.connection.dialect := rfl
  rw [run_fetch, run_fetch, fetchEvents, hdialect]
  split
  · rw [List.append_nil]
  · cases (s.render e.connection.dialect .none).run with
    | error error => simp only [List.append_nil]
    | ok statement =>
      have hquery : (e.recorded.connection.query statement).run (state, events) =
          let (reply, state) := (e.connection.query statement).run state
          (reply, state, events ++ [.sent (.query statement) (reply.map .rows)]) := rfl
      dsimp only
      rw [hquery]
      cases (e.connection.query statement).run state with
      | mk reply state =>
        simp only [recorded_noted, List.append_assoc, List.singleton_append]

/-- Asking for plans has no results. -/
theorem plans_result? (s : Statement) (elapsed : Nat) (state : State) :
    (e.plans s elapsed state).filterMap Event.result? = [] := by
  unfold plans
  split <;> rfl

/-- The one query for rows is written down with its result, whatever plan is asked for. -/
theorem exists_fetch {s : Select} {statement : Statement} (hdecided : s.decided? ≠ some false)
    (hstatement : (s.render e.connection.dialect .none).run = .ok statement)
    (session : Session (State × List (Event Row))) :
    ∃ (result : Except String (List Row)) (session' : Session (State × List (Event Row))),
      (∃ state, ((e.connection.query statement).run state).1.result = result) ∧
      (e.recorded.fetch s).run.run session = (result.mapError .database, session') ∧
      session'.state.2.filterMap Event.result? =
        session.state.2.filterMap Event.result? ++ [result.map .rows] := by
  obtain ⟨⟨state, events⟩, report⟩ := session
  have hrun := e.run_fetch_recorded s state events report
  rw [e.run_fetch, fetchEvents, if_neg hdecided, if_neg hdecided, hstatement] at hrun
  cases hreply : (e.connection.query statement).run state with
  | mk reply next =>
    simp only [hreply] at hrun
    refine ⟨reply.result, _, ⟨state, by rw [hreply]⟩, hrun, ?_⟩
    simp [plans_result?, Event.result?, Reply.map]

end Executor

/-! ## Next batches -/

namespace Batches

variable {e : Executor State Row}

/-- What a caller gets for the next batch: the batch or its error, if there is one. -/
abbrev Item (Row : Type) := Option (Except ExecuteError (List Row))

/-- Some next batches, one after the other. -/
def nexts (e : Executor State Row) :
    Nat → Batches Row → StateM (Session State) (List (Item Row))
  | 0, _ => return []
  | count + 1, b => do
    let (item, rest) ← b.next e
    return item :: (← nexts e count rest)

/-- The next batches are the first of them and then the rest. -/
theorem run_nexts_succ (count : Nat) (b : Batches Row) (session : Session State) :
    (b.nexts e (count + 1)).run session =
      let ((item, rest), session) := (b.next e).run session
      let (items, session) := (rest.nexts e count).run session
      (item :: items, session) := rfl

/-- Some next batches, and the results of the queries that are sent for them. -/
def seen (e : Executor State Row) (count : Nat) (b : Batches Row) (session : Session State) :
    List (Item Row) × List (Except String (Outcome Row)) :=
  let (items, last) := (b.nexts e.recorded count).run ⟨(session.state, []), session.report⟩
  (items, last.state.2.filterMap Event.result?)

/-- The next batch or error from the result of the query, and what is left then. -/
def after (b : Batches Row) :
    Except ExecuteError (List Row) → Item Row × Batches Row
  | .error error => (some (.error error), { b with finished := true })
  | .ok rows =>
    let rest := { b with finished := rows.length < b.size }
    match rows.getLast? with
    | none => (none, rest)
    | some row => (some (.ok rows), { rest with last := some (b.idOf row) })

/-- A next batch asks for rows unless the batches are finished. -/
theorem run_next (e : Executor State Row) (b : Batches Row) (session : Session State) :
    (b.next e).run session =
      if b.finished then ((none, b), session)
      else
        let (result, session) := (e.fetch b.statement).run.run session
        (b.after result, session) := by
  unfold next
  split
  · rfl
  · rw [StateT.run_bind]
    cases (e.fetch b.statement).run.run session with
    | mk result session =>
      cases result with
      | error error => rfl
      | ok rows =>
        show StateT.run (match rows.getLast? with
          | none => pure _
          | some row => pure _) session = _
        simp only [after]
        cases rows.getLast? <;> rfl

/-- Writing down is not noticed. -/
theorem run_nexts_recorded (count : Nat) (b : Batches Row) (state : State)
    (events : List (Event Row)) (report : Option SlowReport) :
    ((b.nexts e.recorded count).run ⟨(state, events), report⟩).1 =
      ((b.nexts e count).run ⟨state, report⟩).1 := by
  induction count generalizing b state events report with
  | zero => rfl
  | succ count ih =>
    rw [run_nexts_succ, run_nexts_succ, run_next, run_next, e.run_fetch_recorded]
    by_cases hfinished : b.finished = true
    · simp only [if_pos hfinished]
      exact congrArg _ (ih _ _ _ _)
    · simp only [if_neg hfinished]
      exact congrArg _ (ih _ _ _ _)

/-! ## What is seen of the next batches -/

/-- The results of the requests so far. -/
def resultsSoFar (session : Session (State × List (Event Row))) :
    List (Except String (Outcome Row)) :=
  session.state.2.filterMap Event.result?

/-- A batch is known to have no rows where the statement is. -/
theorem decided?_statement {b : Batches Row} :
    b.statement.decided? = some false ↔ b.select.decided? = some false := by
  obtain ⟨⟨items, source, joins, filter, groupBy, having, orderBy, limit, offset, timeout⟩, idOf,
    size, last, finished⟩ := b
  cases filter <;> cases last <;>
    simp [statement, Select.restrictBy, Select.restrict, Select.ordered, Select.limited,
      Select.decided?, Predicate.decided?, Predicate.and]

/-- What some next batches are and which queries are sent for them. -/
structure Sees (e : Executor State Row) (count : Nat) (b : Batches Row)
    (session : Session (State × List (Event Row))) (items : List (Item Row))
    (results : List (Except String (Outcome Row))) : Prop where
  items : ((b.nexts e.recorded count).run session).1 = items
  results : resultsSoFar ((b.nexts e.recorded count).run session).2 =
    resultsSoFar session ++ results

section Sees

variable {b : Batches Row} {count : Nat} {session session' : Session (State × List (Event Row))}
  {items : List (Item Row)} {results : List (Except String (Outcome Row))}

/-- With their queries recorded, the batches are what is seen. -/
theorem Sees.seen_eq {session : Session State}
    (h : Sees e count b ⟨(session.state, []), session.report⟩ items results) :
    b.seen e count session = (items, results) :=
  Prod.ext h.items h.results

/-- Without their queries recorded, the batches are the same. -/
theorem Sees.run_eq {session : Session State}
    (h : Sees e count b ⟨(session.state, []), session.report⟩ items results) :
    ((b.nexts e count).run session).1 = items :=
  (run_nexts_recorded count b session.state [] session.report).symm.trans h.items

/-- No batch asks nothing. -/
theorem Sees.zero : Sees e 0 b session [] [] :=
  ⟨rfl, (List.append_nil _).symm⟩

/-- Once the batches are finished there is nothing more, and nothing is sent. -/
theorem Sees.finished (h : b.finished = true) :
    Sees e count b session (List.replicate count none) [] := by
  have hrun : (b.nexts e.recorded count).run session = (List.replicate count none, session) := by
    induction count with
    | zero => rfl
    | succ count ih =>
      rw [run_nexts_succ, run_next, if_pos h]
      simp only [ih, List.replicate_succ]
  exact ⟨congrArg Prod.fst hrun, by rw [hrun, List.append_nil]⟩

/-- The first of the next batches is what is made of the result of its query. -/
theorem Sees.next (hfinished : b.finished = false) {result : Except ExecuteError (List Row)}
    {sent : List (Except String (Outcome Row))}
    (hfetch : (e.recorded.fetch b.statement).run.run session = (result, session'))
    (hsent : resultsSoFar session' = resultsSoFar session ++ sent)
    (h : Sees e count (b.after result).2 session' items results) :
    Sees e (count + 1) b session ((b.after result).1 :: items) (sent ++ results) := by
  have hnext : (b.next e.recorded).run session = (b.after result, session') := by
    rw [run_next, hfinished, if_neg Bool.false_ne_true, hfetch]
  constructor
  · rw [run_nexts_succ, hnext]
    exact congrArg _ h.items
  · rw [run_nexts_succ, hnext]
    exact h.results.trans (by rw [hsent, List.append_assoc])

end Sees

/-! ## The rows of a batch -/

/-- A statement without an order and a limit of its own on rows that are told apart by their `id`,
which is still that of the row when it has been read. -/
structure Numbered (db : Database) (s : Select) (read : Env → Row) (idOf : Row → Value)
    (id : Env → Int64) : Prop where
  orderBy : s.orderBy = []
  limit : s.limit = none
  offset : s.offset = none
  value : ∀ row ∈ s.matched db .top, idColumn.value db row = .int (id row)
  distinct : ((s.matched db .top).map id).Nodup
  idOf : ∀ row ∈ s.matched db .top, idOf (read row) = .int (id row)
  compare : ∀ m n : Int64, db.compare (.int m) (.int n) = Ord.compare m.toInt n.toInt

/-- The rows that a statement matches, by ascending `id`. -/
def sorted (db : Database) (s : Select) : List Env :=
  stableSort (Select.compareRows db [⟨idColumn, .asc⟩]) (s.matched db .top)

/-- What is left of the batches when some rows have been read. -/
def behind (s : Select) (idOf : Row → Value) (size : Nat) (id : Env → Int64) (done : List Env) :
    Batches Row :=
  ⟨s, idOf, size, done.getLast?.map fun row => .int (id row), false⟩

namespace Numbered

variable {db : Database} {s : Select} {read : Env → Row} {idOf : Row → Value} {id : Env → Int64}
  {a b : Env} {done rest : List Env} {size : Nat} {d : Dialect}

/-- Matched rows are ordered by their `id`. -/
theorem compareRows_eq (h : Numbered db s read idOf id) (ha : a ∈ s.matched db .top)
    (hb : b ∈ s.matched db .top) :
    Select.compareRows db [⟨idColumn, .asc⟩] a b = Ord.compare (id a).toInt (id b).toInt := by
  show (db.order (idColumn.value db a) (idColumn.value db b)).then .eq = _
  rw [h.value a ha, h.value b hb, db.order_of_not_null rfl rfl, h.compare, Ordering.then_eq]

/-- One matched row comes before another if its `id` is less. -/
theorem compareRows_eq_lt (h : Numbered db s read idOf id) (ha : a ∈ s.matched db .top)
    (hb : b ∈ s.matched db .top) :
    Select.compareRows db [⟨idColumn, .asc⟩] a b = .lt ↔ (id a).toInt < (id b).toInt := by
  rw [h.compareRows_eq ha hb, compare_lt_iff_lt]

/-- Matched rows are strictly ordered. -/
theorem strictOn (h : Numbered db s read idOf id) :
    StrictOn (Select.compareRows db [⟨idColumn, .asc⟩]) (· ∈ s.matched db .top) where
  asymm ha hb hlt := by
    rw [h.compareRows_eq_lt ha hb] at hlt
    rw [ne_eq, h.compareRows_eq_lt hb ha]
    omega
  trans ha hb hc hab hbc := by
    rw [h.compareRows_eq_lt ha hb] at hab
    rw [h.compareRows_eq_lt hb hc] at hbc
    rw [h.compareRows_eq_lt ha hc]
    omega
  total ha hb hne := by
    rw [h.compareRows_eq_lt ha hb, h.compareRows_eq_lt hb ha]
    have hid := mt (List.inj_on_of_nodup_map h.distinct ha hb) hne
    have hint := mt Int64.toInt_inj.1 hid
    omega

/-- No row is matched twice. -/
theorem nodup (h : Numbered db s read idOf id) : (s.matched db .top).Nodup :=
  h.distinct.of_map

/-- The sorted rows ascend. -/
theorem ascending (h : Numbered db s read idOf id) :
    Ascending (Select.compareRows db [⟨idColumn, .asc⟩]) (sorted db s) :=
  stableSort_ascending h.nodup h.strictOn

/-- A sorted row is matched. -/
theorem mem_matched_of_sorted (ha : a ∈ sorted db s) : a ∈ s.matched db .top :=
  mem_stableSort.1 ha

/-- The `id` ascends strictly along the sorted rows. -/
theorem pairwise_id (h : Numbered db s read idOf id) :
    (sorted db s).Pairwise fun a b => (id a).toInt < (id b).toInt :=
  h.ascending.imp_of_mem fun ha hb hlt =>
    (h.compareRows_eq_lt (mem_matched_of_sorted ha) (mem_matched_of_sorted hb)).1 hlt

/-- The comparison with the last `id` holds on the rows behind that of this `id`. -/
theorem truth_after (h : Numbered db s read idOf id) (ha : a ∈ s.matched db .top)
    (hb : b ∈ s.matched db .top) :
    (Predicate.condition (.compare idColumn .gt (.param (.int (id a))))).truth db b = .holds ↔
      Select.compareRows db [⟨idColumn, .asc⟩] a b = .lt := by
  show db.test .gt (idColumn.value db b) (.int (id a)) = .holds ↔ _
  rw [h.value b hb, db.test_of_not_null rfl rfl, Truth.ofBool_eq_holds, h.compare,
    h.compareRows_eq_lt ha hb]
  show (Ord.compare (id b).toInt (id a).toInt == .gt) = true ↔ _
  rw [beq_iff_eq, compare_gt_iff_gt]

/-- The statement behind some rows gives the first of the rows that are left. -/
theorem run_statement (h : Numbered db s read idOf id) (hsplit : sorted db s = done ++ rest) :
    (behind s idOf size id done).statement.run db .top = rest.take size := by
  have horder : ∀ t : Select, t.orderBy = [] → t.offset = none →
      ((t.ordered ⟨idColumn, .asc⟩).limited size).run db .top = (sorted db t).take size := by
    intro t horderBy hoffset
    simp only [Select.run, Select.limited, Select.ordered, horderBy, hoffset]
    rfl
  rcases List.eq_nil_or_concat done with rfl | ⟨before, last, rfl⟩
  · show ((s.ordered ⟨idColumn, .asc⟩).limited size).run db .top = _
    rw [horder s h.orderBy h.offset, hsplit, List.nil_append]
  · have hsplit' : sorted db s = before ++ last :: rest := by simpa using hsplit
    have hlast : last ∈ s.matched db .top := mem_matched_of_sorted (by simp [hsplit'])
    have hmem : ∀ b ∈ before ++ last :: rest, b ∈ s.matched db .top :=
      fun b hb => mem_matched_of_sorted (hsplit' ▸ hb)
    have hstatement : (behind s idOf size id (before ++ [last])).statement =
        ((s.restrictBy (.compare idColumn .gt (.param (.int (id last))))).ordered
          ⟨idColumn, .asc⟩).limited size := by
      simp [behind, statement]
    -- the condition keeps the rows behind the last one, also among the rows in order
    have hmatched : (s.restrictBy (.compare idColumn .gt (.param (.int (id last))))).matched db
        .top = (s.matched db .top).filter fun b =>
          Select.compareRows db [⟨idColumn, .asc⟩] last b = .lt := by
      rw [Select.restrictBy, Select.matched_restrict rfl]
      exact List.filter_congr fun b hb => decide_eq_decide.2 (h.truth_after hlast hb)
    rw [List.concat_eq_append, hstatement, horder (s.restrictBy _) h.orderBy h.offset, sorted,
      hmatched, stableSort_filter h.nodup h.strictOn]
    show ((sorted db s).filter _).take size = _
    rw [hsplit', Ascending.filter_after (h.strictOn.mono hmem) (hsplit' ▸ h.ascending)]

/-- What is left behind a batch of the rows that are left. -/
theorem after_append (h : Numbered db s read idOf id) {batch : List Env}
    (hsplit : sorted db s = done ++ (batch ++ rest)) (hbatch : batch ≠ []) :
    (behind s idOf size id done).after (.ok (batch.map read)) =
      (some (.ok (batch.map read)),
        { behind s idOf size id (done ++ batch) with finished := batch.length < size }) := by
  rcases List.eq_nil_or_concat batch with rfl | ⟨before, last, rfl⟩
  · exact absurd rfl hbatch
  · have hlast : last ∈ s.matched db .top := mem_matched_of_sorted (by simp [hsplit])
    simp [after, behind, h.idOf last hlast]

/-- A row without a table has no `id`. -/
theorem source_ne_none (h : Numbered db s read idOf id) (hlacks : s.lacksTable = false)
    (ha : a ∈ s.matched db .top) : s.source ≠ none := by
  intro hsource
  obtain ⟨items, source, joins, filter, groupBy, having, orderBy, limit, offset, timeout⟩ := s
  cases hsource
  have hparts : joins = [] ∧ filter.isAlways = true := by
    simpa [Select.lacksTable] using hlacks
  obtain ⟨rfl, halways⟩ := hparts
  cases filter with
  | always =>
    have hvalue := h.value a ha
    obtain ⟨rfl, -⟩ : a = Env.top.inside ∧ Predicate.always.truth db a = .holds := by
      simpa [Select.matched, Select.joinedRows, Join.steps, Predicate.joinSteps, freshSteps,
        followSteps, Database.start] using ha
    cases hvalue
  | never => cases halways
  | condition c => cases halways

/-- The comparison with the last `id` can always be rendered. -/
theorem render_after (n : Namespaces) (v : Value) :
    Render.FailsAs ((Condition.compare idColumn .gt (.param v)).render d n)
      (pure () : Render Unit) := by
  have hcolumn : Render.FailsAs (idColumn.render d n) (pure () : Render Unit) := by
    show Render.FailsAs (liftM (Column.render n ⟨.own, ⟨"id", _⟩⟩)) _
    rw [Column.render]
    cases n.own <;> exact .pure _ _
  have hvalue : Render.FailsAs ((Expr.param v).render d n) (pure () : Render Unit) :=
    fun _ _ => trivial
  exact hcolumn.followed fun _ => hvalue.followed fun _ => .pure _ _

/-- Behind some rows a statement is rendered if it is at the start. -/
theorem exists_statement (h : Numbered db s read idOf id) (hdecided : s.decided? ≠ some false)
    (hstart : ∃ statement,
      ((behind s idOf size id []).statement.render d .none).run = .ok statement)
    (hsplit : sorted db s = done ++ rest) :
    ∃ statement, ((behind s idOf size id done).statement.render d .none).run = .ok statement := by
  rcases List.eq_nil_or_concat done with rfl | ⟨before, last, rfl⟩
  · exact hstart
  · have hlast : last ∈ s.matched db .top := mem_matched_of_sorted (by simp [hsplit])
    have hlacks : s.lacksTable = false := by
      obtain ⟨statement, hstatement⟩ := hstart
      rw [Select.render_eq] at hstatement
      cases hlacks : s.lacksTable with
      | false => rfl
      | true =>
        rw [show (behind s idOf size id []).statement.lacksTable = true from hlacks] at hstatement
        cases hstatement
    have hfilter : s.filter ≠ .never := by
      intro hnever
      rw [Select.decided?, hnever] at hdecided
      exact hdecided rfl
    have hrender := Select.render_restrictBy (d := d) (n := .none)
      (s := (s.ordered ⟨idColumn, .asc⟩).limited size)
      (c := .compare idColumn .gt (.param (.int (id last))))
      (h.source_ne_none hlacks hlast) hfilter rfl fun n => render_after n _
    have hstatement : (behind s idOf size id (before ++ [last])).statement =
        ((s.ordered ⟨idColumn, .asc⟩).limited size).restrictBy
          (.compare idColumn .gt (.param (.int (id last)))) := by
      simp [behind, statement, Select.restrictBy, Select.restrict, Select.ordered, Select.limited]
    rw [List.concat_eq_append, hstatement]
    exact hrender.symm.exists_run hstart

end Numbered

/-! ## The batches of a run -/

/-- What some next batches are where `pages` are the batches and `queries` are needed to read them
all: the batches and then nothing, with one query for each as long as there are queries. The first
query that fails is the last, and its error takes the place of the batch. -/
structure Serves (pages : List (List Row)) (queries count : Nat) (items : List (Item Row))
    (results : List (Except String (Outcome Row))) : Prop where
  unfailing : (∀ text, .error text ∉ results) →
    items = (pages.map (some <| Except.ok ·) ++ List.replicate count none).take count ∧
      results.length = min count queries
  failing : ∀ before text after, results = before ++ .error text :: after →
    after = [] ∧ before.length < queries ∧
      items = (pages.take before.length).map (some <| Except.ok ·) ++
        some (.error (.database text)) :: List.replicate (count - before.length - 1) none

namespace Serves

variable {pages : List (List Row)} {queries count : Nat} {items : List (Item Row)}
  {results : List (Except String (Outcome Row))}

/-- Where nothing is asked nothing is served. -/
theorem zero : Serves pages queries 0 [] [] where
  unfailing _ := ⟨by simp, by simp⟩
  failing before text after h := by simp at h

/-- Behind the last batch there is nothing, and nothing is sent. -/
theorem finished : Serves [] 0 count (List.replicate count none : List (Item Row)) [] where
  unfailing _ := ⟨by simp, by simp⟩
  failing before text after h := by simp at h

/-- A query that fails is the last, and its error stands for the batch. -/
theorem failed (text : String) :
    Serves pages (queries + 1) (count + 1)
      (some (.error (.database text)) :: List.replicate count none) [.error text] where
  unfailing h := absurd List.mem_cons_self (h text)
  failing before text' after h := by
    cases before with
    | nil =>
      obtain ⟨htext, rfl⟩ := List.cons.inj h
      cases htext
      exact ⟨rfl, Nat.succ_pos _, by simp⟩
    | cons first before => simp at h

/-- A query that gives no rows is the last one. -/
theorem empty (outcome : Outcome Row) :
    Serves [] 1 (count + 1) (none :: List.replicate count none : List (Item Row))
      [.ok outcome] where
  unfailing _ := ⟨by simp [List.replicate_succ], by simp⟩
  failing before text after h := by
    cases before with
    | nil => cases (List.cons.inj h).1
    | cons first before => simp at h

/-- A batch in front of the others takes one query more. -/
theorem page (h : Serves pages queries count items results) (page : List Row)
    (outcome : Outcome Row) :
    Serves (page :: pages) (queries + 1) (count + 1) (some (.ok page) :: items)
      (.ok outcome :: results) where
  unfailing hnone := by
    obtain ⟨hitems, hlength⟩ := h.unfailing fun text htext =>
      hnone text (List.mem_cons_of_mem _ htext)
    refine ⟨?_, by rw [List.length_cons, hlength]; omega⟩
    have hmin : min (count - pages.length) (count + 1) = min (count - pages.length) count := by
      omega
    rw [hitems, List.map_cons, List.cons_append, List.take_succ_cons, List.take_append,
      List.take_append, List.take_replicate, List.take_replicate, List.length_map, hmin]
  failing before text after hresults := by
    cases before with
    | nil => cases (List.cons.inj hresults).1
    | cons first before =>
      obtain ⟨rfl, hrest⟩ := List.cons.inj hresults
      obtain ⟨rfl, hqueries, hitems⟩ := h.failing before text after hrest
      refine ⟨rfl, by rw [List.length_cons]; omega, ?_⟩
      rw [hitems, List.length_cons, List.take_succ_cons, List.map_cons, List.cons_append,
        Nat.add_sub_add_right]

end Serves

/-- The answers of a connection to the statements of batches, where it does not fail, are the rows
that a database gives for them. -/
def Answers (c : Connection State Row) (db : Database) (read : Env → Row) (b : Batches Row) :
    Prop :=
  ∀ last statement state rows,
    ({ b with last }.statement.render c.dialect .none).run = .ok statement →
    ((c.query statement).run state).1.result = .ok rows →
      rows = ({ b with last }.statement.run db .top).map read

/-- The batches that are read of some rows, whatever the connection does. -/
structure Reads (e : Executor State Row) (b : Batches Row) (rows : List Row) (queries : Nat)
    (pages : List (List Row)) : Prop where
  flatten : pages.flatten = rows
  bounded : ∀ page ∈ pages, page ≠ [] ∧ page.length ≤ b.size
  serves : ∀ count session, ∃ items results, Sees e count b session items results ∧
    Serves pages queries count items results

section Run

variable {db : Database} {s : Select} {read : Env → Row} {idOf : Row → Value} {id : Env → Int64}
  {size : Nat} {done rest : List Env}

variable (h : Numbered db s read idOf id)
  (hanswers : Answers e.connection db read (behind s idOf size id []))
  (hdecided : s.decided? ≠ some false)
  (hstart : ∃ statement,
    ((behind s idOf size id []).statement.render e.connection.dialect .none).run = .ok statement)

include h hanswers hdecided hstart

/-- The query behind some rows fails, or its answer is the first of the rows that are left. -/
theorem serves_succ (hsplit : sorted db s = done ++ rest) {count queries : Nat}
    {pages : List (List Row)} {session : Session (State × List (Event Row))}
    (hnext : ∀ session', ∃ items results,
      Sees e count ((behind s idOf size id done).after (.ok ((rest.take size).map read))).2 session'
        items results ∧
      Serves pages (queries + 1) (count + 1)
        (((behind s idOf size id done).after (.ok ((rest.take size).map read))).1 :: items)
        (.ok (.rows ((rest.take size).map read)) :: results)) :
    ∃ items results, Sees e (count + 1) (behind s idOf size id done) session items results ∧
      Serves pages (queries + 1) (count + 1) items results := by
  obtain ⟨statement, hstatement⟩ := h.exists_statement hdecided hstart hsplit
  obtain ⟨result, session', ⟨state, hresult⟩, hfetch, hsent⟩ :=
    e.exists_fetch (mt decided?_statement.1 hdecided) hstatement session
  cases result with
  | error text => exact ⟨_, _, .next rfl hfetch hsent (.finished rfl), .failed text⟩
  | ok rows =>
    have hrows : rows = (rest.take size).map read := by
      rw [← h.run_statement hsplit]
      exact hanswers _ statement state rows hstatement hresult
    rw [hrows] at hfetch hsent
    obtain ⟨items, results, hsees, hserves⟩ := hnext session'
    exact ⟨_, _, .next rfl hfetch hsent hsees, hserves⟩

variable (hsize : 1 ≤ size)

include hsize

/-- Where the rows that are left do not make a full batch, one query is left. -/
theorem exists_last (hsplit : sorted db s = done ++ rest) (hshort : rest.length < size) :
    ∃ pages, Reads e (behind s idOf size id done) (rest.map read) 1 pages := by
  have htake : rest.take size = rest := List.take_of_length_le hshort.le
  by_cases hnil : rest = []
  · -- the query that finds no further row gives no batch
    refine ⟨[], by rw [hnil]; rfl, List.forall_mem_nil _, fun count session => ?_⟩
    cases count with
    | zero => exact ⟨_, _, .zero, .zero⟩
    | succ count =>
      refine serves_succ h hanswers hdecided hstart hsplit fun session' => ?_
      rw [htake, hnil]
      exact ⟨_, _, .finished (decide_eq_true hsize), .empty _⟩
  · have hafter : (behind s idOf size id done).after (.ok (rest.map read)) = _ :=
      h.after_append (show sorted db s = done ++ (rest ++ []) by rw [List.append_nil, hsplit]) hnil
    refine ⟨[rest.map read], by simp, by simp [hnil, behind, hshort.le], fun count session => ?_⟩
    cases count with
    | zero => exact ⟨_, _, .zero, .zero⟩
    | succ count =>
      refine serves_succ h hanswers hdecided hstart hsplit fun session' => ?_
      rw [htake, hafter]
      exact ⟨_, _, .finished (decide_eq_true hshort), Serves.finished.page _ _⟩

/-- From the rows read so far the batches go on through the rows that are left. -/
theorem exists_pages (hsplit : sorted db s = done ++ rest) :
    ∃ pages,
      Reads e (behind s idOf size id done) (rest.map read) (rest.length / size + 1) pages := by
  -- a full batch takes at least one of the rows that are left
  induction hn : rest.length using Nat.strong_induction_on generalizing done rest with
  | h n ih =>
    rcases Nat.lt_or_ge rest.length size with hshort | hfull
    · rw [← hn, Nat.div_eq_of_lt hshort]
      exact exists_last h hanswers hdecided hstart hsize hsplit hshort
    · have hlength : (rest.take size).length = size := List.length_take_of_le hfull
      have hbatch : rest.take size ≠ [] := List.ne_nil_of_length_pos (by omega)
      have hsplit' : sorted db s = done ++ (rest.take size ++ rest.drop size) := by
        rw [List.take_append_drop, hsplit]
      have hafter : (behind s idOf size id done).after (.ok ((rest.take size).map read)) = _ :=
        h.after_append hsplit' hbatch
      rw [hlength, decide_eq_false (Nat.lt_irrefl size)] at hafter
      rw [← List.append_assoc] at hsplit'
      obtain ⟨pages, hpages⟩ := ih (rest.length - size) (by omega) hsplit' List.length_drop
      refine ⟨(rest.take size).map read :: pages, ?_, ?_, fun count session => ?_⟩
      · rw [List.flatten_cons, hpages.flatten, ← List.map_append, List.take_append_drop]
      · refine List.forall_mem_cons.2 ⟨⟨?_, ?_⟩, hpages.bounded⟩
        · rwa [ne_eq, List.map_eq_nil_iff]
        · rw [List.length_map, hlength]
          exact Nat.le_refl size
      · rw [← hn, Nat.div_eq_sub_div hsize hfull]
        cases count with
        | zero => exact ⟨_, _, .zero, .zero⟩
        | succ count =>
          refine serves_succ h hanswers hdecided hstart hsplit fun session' => ?_
          obtain ⟨items, results, hsees, hserves⟩ := hpages.serves count session'
          rw [hafter]
          exact ⟨items, results, hsees, hserves.page _ _⟩

end Run

/-- Where no row can match, no query is sent. -/
theorem reads_never {b : Batches Row} (hfinished : b.finished = false) (hsize : 1 ≤ b.size)
    (hdecided : b.select.decided? = some false) : Reads e b [] 0 [] := by
  refine ⟨rfl, List.forall_mem_nil _, fun count session => ?_⟩
  cases count with
  | zero => exact ⟨_, _, .zero, .zero⟩
  | succ count =>
    have hfetch : (e.recorded.fetch b.statement).run.run session = (.ok [], session) := by
      rw [Executor.run_fetch, if_pos (decided?_statement.2 hdecided)]
    refine ⟨_, _, .next hfinished hfetch (List.append_nil _).symm
      (.finished (decide_eq_true hsize)), ?_⟩
    exact Serves.finished

/-- A statement that cannot be rendered gives its error and then nothing, and no query is sent. -/
theorem sees_unrendered {b : Batches Row} {error : RenderError} (hfinished : b.finished = false)
    (hdecided : b.select.decided? ≠ some false)
    (herror : (b.statement.render e.connection.dialect .none).run = .error error) (count : Nat)
    (session : Session (State × List (Event Row))) :
    Sees e (count + 1) b session
      (some (.error (.render error)) :: List.replicate count none) [] := by
  have hfetch : (e.recorded.fetch b.statement).run.run session =
      (.error (.render error), session) := by
    rw [Executor.run_fetch, if_neg (mt decided?_statement.1 hdecided),
      show e.recorded.connection.dialect = e.connection.dialect from rfl, herror]
  exact .next hfinished hfetch (List.append_nil _).symm (.finished rfl)

/-- The batches of a statement hold every row that matches once and by ascending `id`. The
statement is rendered at the start or not at all. Where it is, the batches are not empty and are of
the given size at most, and one query for each full batch and one more are sent; a query that fails
ends the batches with its error. -/
theorem nexts_complete {db : Database} {s : Select} {read : Env → Row} {idOf : Row → Value}
    {id : Env → Int64} (h : Numbered db s read idOf id) (size : Nat)
    (hanswers : Answers e.connection db read (of s idOf size)) :
    (∀ error, s.decided? ≠ some false →
      ((of s idOf size).statement.render e.connection.dialect .none).run = .error error →
      ∀ count session, (of s idOf size).seen e (count + 1) session =
        (some (.error (.render error)) :: List.replicate count none, [])) ∧
    ((s.decided? = some false ∨ ∃ statement,
        ((of s idOf size).statement.render e.connection.dialect .none).run = .ok statement) →
      ∃ (rows : List Env) (pages : List (List Row)),
        rows.Perm (s.matched db .top) ∧
        rows.Pairwise (fun a b => (id a).toInt < (id b).toInt) ∧
        pages.flatten = rows.map read ∧
        (∀ page ∈ pages, page ≠ [] ∧ page.length ≤ max size 1) ∧
        ∀ count session, ∃ items results,
          (((of s idOf size).nexts e count).run session).1 = items ∧
          (of s idOf size).seen e count session = (items, results) ∧
          Serves pages (if s.decided? = some false then 0 else rows.length / max size 1 + 1) count
            items results) := by
  have hsize : 1 ≤ max size 1 := Nat.le_max_right size 1
  refine ⟨fun error hdecided herror count session =>
    (sees_unrendered rfl hdecided herror count _).seen_eq, fun hrendered => ?_⟩
  -- a statement that matches nothing is told by its filter, before it is rendered
  have hpages : ∃ pages, Reads e (of s idOf size) ((sorted db s).map read)
      (if s.decided? = some false then 0 else (sorted db s).length / max size 1 + 1) pages := by
    by_cases hdecided : s.decided? = some false
    · have hnever : s.filter = .never := by
        cases hfilter : s.filter with
        | never => rfl
        | _ =>
          rw [Select.decided?, hfilter] at hdecided
          cases hdecided
      have hnone : sorted db s = [] := by
        rw [sorted, Select.matched_eq_nil hnever]
        rfl
      rw [if_pos hdecided, hnone]
      exact ⟨[], reads_never rfl hsize hdecided⟩
    · rw [if_neg hdecided]
      exact exists_pages h hanswers hdecided (hrendered.resolve_left hdecided) hsize
        (List.nil_append (sorted db s)).symm
  obtain ⟨pages, hreads⟩ := hpages
  refine ⟨sorted db s, pages, stableSort_perm _, h.pairwise_id, hreads.flatten, hreads.bounded, ?_⟩
  intro count session
  obtain ⟨items, results, hsees, hserves⟩ :=
    hreads.serves count ⟨(session.state, []), session.report⟩
  exact ⟨items, results, hsees.run_eq, hsees.seen_eq, hserves⟩

namespace Sample

/-- All members. -/
def members : Select :=
  Select.empty.fromTable ⟨⟨"members", .refl true⟩, none⟩

/-- The row of a member, which has an `id` alone. -/
def memberRow (n : Int64) : TableRow := fun column =>
  if column = "id" then some (.int n) else none

/-- Three members, not in order. -/
def database : Database :=
  .plain fun _ => [memberRow 3, memberRow 1, memberRow 2]

/-- Members are read as their `id`. -/
def memberId (row : Env) : Int64 :=
  match idColumn.value database row with
  | .int n => n
  | _ => 0

/-- A connection that knows the answers for batches of two members. -/
def connection : Connection Unit Int64 where
  dialect := .mysql
  query s :=
    match s.values with
    | [] => return ⟨.ok [1, 2], 0⟩
    | [.int n] => return ⟨if n = 2 then .ok [3] else .error "no answer", 0⟩
    | _ => return ⟨.error "no answer", 0⟩
  scalar _ := return ⟨.error "no answer", 0⟩
  execute _ := return ⟨.error "no answer", 0⟩
  plan _ := return .error "no plan"

/-- The members are told apart by their `id`. -/
theorem numbered_members : Numbered database members memberId .int memberId where
  orderBy := rfl
  limit := rfl
  offset := rfl
  value row hrow := by
    have hrow : row ∈ [memberRow 3, memberRow 1, memberRow 2].map (Env.top.onRow "members") := hrow
    simp only [List.map_cons, List.map_nil, List.mem_cons, List.not_mem_nil, or_false] at hrow
    rcases hrow with rfl | rfl | rfl <;> rfl
  distinct := by
    show [(3 : Int64), 1, 2].Nodup
    decide
  idOf _ _ := rfl
  compare _ _ := rfl

/-- The connection answers as the database does. -/
theorem answers_members : Answers connection database memberId (of members .int 2) := by
  intro last statement state rows hstatement hrows
  cases last with
  | none =>
    obtain rfl : ⟨"SELECT * FROM members ORDER BY members.id ASC LIMIT 2", []⟩ = statement :=
      Except.ok.inj hstatement
    obtain rfl : [1, 2] = rows := Except.ok.inj hrows
    rfl
  | some v =>
    have hvalues : ∃ text, ({ of members Value.int 2 with last := some v }.statement.render .mysql
        .none).run = .ok ⟨text, [v]⟩ := ⟨_, rfl⟩
    obtain ⟨text, htext⟩ := hvalues
    obtain rfl := Except.ok.inj (htext.symm.trans hstatement)
    cases v with
    | int n =>
      by_cases hn : n = 2
      · subst hn
        obtain rfl : [3] = rows := Except.ok.inj hrows
        rfl
      · have hrows : (if n = 2 then .ok [3] else .error "no answer" : Except String _) =
          .ok rows := hrows
        rw [if_neg hn] at hrows
        cases hrows
    | _ => cases hrows

end Sample

open Batches.Sample in
/-- Three members are read in batches of two with two queries. -/
theorem nexts_complete_members :
    Numbered database members memberId .int memberId ∧
      Answers connection database memberId (of members .int 2) ∧
      ∃ (rows : List Env) (pages : List (List Int64)),
        rows.length = 3 ∧ pages.flatten = rows.map memberId ∧
        (∀ page ∈ pages, page ≠ [] ∧ page.length ≤ 2) ∧
        ∀ count session, ∃ items results,
          (of members .int 2).seen ⟨connection, none⟩ count session = (items, results) ∧
          Serves pages 2 count items results := by
  refine ⟨numbered_members, answers_members, ?_⟩
  have hcomplete := nexts_complete (e := ⟨connection, none⟩) numbered_members 2 answers_members
  obtain ⟨rows, pages, hperm, -, hflatten, hbounded, hserves⟩ :=
    hcomplete.2 (.inr ⟨⟨"SELECT * FROM members ORDER BY members.id ASC LIMIT 2", []⟩, rfl⟩)
  have hlength : rows.length = 3 := hperm.length_eq
  refine ⟨rows, pages, hlength, hflatten, hbounded, fun count session => ?_⟩
  obtain ⟨items, results, -, hseen, hrun⟩ := hserves count session
  rw [hlength] at hrun
  exact ⟨items, results, hseen, hrun⟩

end Batches

end FilterSql
