import FilterSql.Execute.Script
import FilterSql.Proofs.Execute.Calls
import FilterSql.Proofs.Sql.Subquery

/-!
# Statements that are not sent

An executor gives no rows for a statement whose filter no row meets, and does not send it. The
database gives no rows either, unless the statement sums up: without a list of keys it makes one
group of all rows, and it gives a row for that group also where the group is empty
(`Select.eval_of_never`). So it is seen that a statement is not sent exactly where it sums up and
does not lose this row again (`Executor.fetch_never_iff`).
-/

namespace FilterSql

namespace Select

variable {db : Database}

/-- The groups of a statement where no row matches: one of no rows if all rows make one group and
the condition on groups holds on it. -/
def HasEmptyGroup (db : Database) (env : Env) (s : Select) : Prop :=
  s.groupBy = [] ∧ (s.having.isSome ∨ s.items.any (·.expr.aggregates)) ∧
    Condition.evalOption db ⟨env.inside, []⟩ s.having = .holds

/-- A statement gives a row where no row matches: it has the empty group and does not cut it off. -/
def SumsUp (db : Database) (env : Env) (s : Select) : Prop :=
  s.HasEmptyGroup db env ∧ s.limit ≠ some 0 ∧ s.offset.getD 0 = 0

/-- Where no row matches and all rows make one group, that group is empty. -/
theorem groups_of_hasEmptyGroup {s : Select} (h : s.filter = .never) {env : Env}
    (hgroup : s.HasEmptyGroup db env) : s.groups db env = [⟨env.inside, []⟩] := by
  obtain ⟨hkeys, hgrouped, hhaving⟩ := hgroup
  have hone : (s.having.isSome || s.items.any (·.expr.aggregates)) = true :=
    Bool.or_eq_true_iff.2 hgrouped
  rw [groups, matched_eq_nil h, hkeys, hone]
  exact List.filter_cons_of_pos (decide_eq_true hhaving)

/-- Where no row matches there is no group but the empty one. -/
theorem groups_eq_nil {s : Select} (h : s.filter = .never) {env : Env}
    (hgroup : ¬ s.HasEmptyGroup db env) : s.groups db env = [] := by
  by_cases hmade : s.groupBy = [] ∧ (s.having.isSome ∨ s.items.any (·.expr.aggregates))
  · obtain ⟨hkeys, hgrouped⟩ := hmade
    have hone : (s.having.isSome || s.items.any (·.expr.aggregates)) = true :=
      Bool.or_eq_true_iff.2 hgrouped
    rw [groups, matched_eq_nil h, hkeys, hone]
    refine List.filter_cons_of_neg ?_
    exact fun hhaving => hgroup ⟨hkeys, hgrouped, of_decide_eq_true hhaving⟩
  · rw [groups, matched_eq_nil h, makeGroups_eq_nil.2 ⟨rfl, fun hgrouped => ?_⟩, List.filter_nil]
    rw [Bool.not_eq_true', ← Bool.not_eq_true, List.isEmpty_iff]
    exact fun hkeys => hmade ⟨hkeys, Bool.or_eq_true_iff.1 hgrouped⟩

/-- Nothing is cut from no rows. -/
theorem window_nil {α : Type} (limit offset : Option Nat) :
    window limit offset ([] : List α) = [] := by
  cases limit <;> simp [window]

/-- A single row is left where the limit is not zero and none are skipped. -/
theorem window_singleton {α : Type} (limit offset : Option Nat) (a : α) :
    window limit offset [a] = if limit ≠ some 0 ∧ offset.getD 0 = 0 then [a] else [] := by
  unfold window
  cases offset.getD 0 with
  | zero =>
    match limit with
    | none => rfl
    | some 0 => rfl
    | some (n + 1) => simp
  | succ n =>
    rw [if_neg fun h => Nat.succ_ne_zero n h.2]
    cases limit <;> simp

open Classical in
/-- Where no row matches, a statement gives one row or none. -/
theorem eval_of_never {s : Select} (h : s.filter = .never) (env : Env) :
    s.eval db env =
      if s.SumsUp db env then [SelectItem.evalAll db ⟨env.inside, []⟩ s.items] else [] := by
  rw [eval_eq_groups]
  by_cases hgroup : s.HasEmptyGroup db env
  · rw [groups_of_hasEmptyGroup h hgroup]
    show (window s.limit s.offset [(⟨env.inside, []⟩ : RowGroup)]).map _ = _
    rw [window_singleton]
    by_cases hkept : s.limit ≠ some 0 ∧ s.offset.getD 0 = 0
    · rw [if_pos hkept, if_pos ⟨hgroup, hkept⟩]
      rfl
    · rw [if_neg hkept, if_neg fun hsums => hkept hsums.2]
      rfl
  · rw [groups_eq_nil h hgroup, if_neg fun hsums => hgroup hsums.1]
    show (window s.limit s.offset []).map _ = _
    rw [window_nil, List.map_nil]

end Select

/-- Only the predicate that never holds is settled against every row. -/
theorem Predicate.decided?_eq_false {p : Predicate} (h : p.decided? = some false) : p = .never := by
  cases p with
  | never => rfl
  | always => exact absurd (Option.some.inj h).symm Bool.false_ne_true
  | condition c => exact absurd h.symm (Option.some_ne_none false)

namespace Executor

/-- The rows of a statement that is sent in any case. -/
def fetchSent {State Row : Type} (e : Executor State Row) (select : Select) :
    Execute State (List Row) := do
  let s ← rendered (select.render e.connection.dialect .none)
  e.send s e.connection.query

variable {State : Type} {e : Executor State (List Value)} {db : Database} {s : Select}
  {statement : Statement} {session : Session State}

/-- Sending a statement gives the rows that the database has for it. -/
theorem fetchSent_result {rows : List (List Value)}
    (hrender : (s.render e.connection.dialect .none).run = .ok statement)
    (hquery : ((e.connection.query statement).run session.state).1.result = .ok rows) :
    ((e.fetchSent s).run.run session).1 = .ok rows := by
  rw [fetchSent, Execute.run_bind, run_rendered, hrender]
  show ((e.send statement e.connection.query).run.run session).1 = _
  rw [run_send]
  show Except.mapError ExecuteError.database
    ((e.connection.query statement).run session.state).1.result = _
  rw [hquery]
  rfl

/-- An executor answers a statement that no row meets without sending it. Sending it gives the same
exactly where the statement does not sum up. -/
theorem fetch_never_iff (hnever : s.decided? = some false)
    (hrender : (s.render e.connection.dialect .none).run = .ok statement)
    (hquery : ((e.connection.query statement).run session.state).1.result =
      .ok (s.eval db .top)) :
    (e.fetch s).run.run session = (.ok [], session) ∧
      (((e.fetch s).run.run session).1 = ((e.fetchSent s).run.run session).1 ↔
        ¬ s.SumsUp db .top) := by
  have hfetch : (e.fetch s).run.run session = (.ok [], session) := by
    rw [fetch, if_pos hnever]
    rfl
  refine ⟨hfetch, ?_⟩
  rw [hfetch, fetchSent_result hrender hquery,
    Select.eval_of_never (Predicate.decided?_eq_false hnever)]
  by_cases hsums : s.SumsUp db .top
  · simp [hsums]
  · simp [hsums]

namespace Sample

/-- A database without rows. -/
def vacant : Database := .plain fun _ => []

/-- The members on a condition that no row meets. -/
def nobody : Select :=
  (Select.empty.fromTable ⟨⟨"members", by decide⟩, none⟩).restrict .never

/-- The number of these. -/
def countNobody : Select :=
  nobody.toCount none

/-- An executor whose connection replies as a script says. -/
def replying : Executor (Script (List Value)) (List Value) :=
  ⟨Script.connection .mysql (.ok []), none⟩

/-- A script that replies what the database has for a statement. -/
def replies (s : Select) : Session (Script (List Value)) :=
  ⟨⟨[{ rows := s.eval vacant .top }], []⟩, none⟩

end Sample

open Sample in
/-- Nobody is fetched without a request, as if it had been sent. -/
theorem fetch_never_iff_nobody :
    nobody.decided? = some false ∧ ¬ nobody.SumsUp vacant .top ∧
      ((replying.fetch nobody).run.run (replies nobody)).1 =
        ((replying.fetchSent nobody).run.run (replies nobody)).1 := by
  have hsums : ¬ nobody.SumsUp vacant .top := fun hsums => by
    simp [Select.SumsUp, Select.HasEmptyGroup, nobody, Select.restrict, Select.fromTable,
      Select.empty] at hsums
  have hrender : (nobody.render replying.connection.dialect .none).run =
      .ok ⟨"SELECT * FROM members WHERE FALSE", []⟩ := rfl
  exact ⟨rfl, hsums, (fetch_never_iff rfl hrender rfl).2.2 hsums⟩

open Sample in
/-- A number of rows is asked for, and none come back: the database gives 0. -/
theorem fetch_differs_countNobody :
    countNobody.decided? = some false ∧
      ((replying.fetch countNobody).run.run (replies countNobody)).1 = .ok [] ∧
      ((replying.fetchSent countNobody).run.run (replies countNobody)).1 = .ok [[.int 0]] :=
  ⟨rfl, rfl, rfl⟩

end Executor

end FilterSql
