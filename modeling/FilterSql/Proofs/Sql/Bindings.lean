import FilterSql.Proofs.Sql.Emission
import FilterSql.Proofs.Sql.Numbering

/-!
# What the dialects bind

The dialects give a tree texts of their own, but what they bind is the same from left to right
(`Binding`). One thing is sent in two ways: the list of an `IN` test is one array in Postgres and a
value for each element elsewhere (`Dialect.sent`). So a tree is rendered in all dialects or fails in
all of them with one error, and the values differ in those arrays alone (`Tree.render_dialects`). A
test for one element of a JSON array is left out, as each dialect encodes its parameter in its own
way, and so are arrays that are bound as they are.

`Render.Uniform` is about one step of rendering in all dialects at once. It is kept by `bind`
whatever texts the dialects have made before, since no step looks into a text.
-/

namespace FilterSql

/-! ## What is bound -/

/-- A value that is no array. -/
def Value.IsScalar (v : Value) : Prop :=
  ∀ items, v ≠ .array items

/-- A value, or the elements of an array. -/
def Value.spread : Value → List Value
  | .array items => items
  | v => [v]

/-- A value that is no array stays as it is. -/
theorem Value.IsScalar.spread_eq {v : Value} (h : v.IsScalar) : v.spread = [v] := by
  cases v with
  | array items => exact absurd rfl (h items)
  | _ => rfl

/-- The list of an overlap test is bound as one text. -/
theorem Value.jsonArray_isScalar (values : List Value) : (Value.jsonArray values).IsScalar := by
  intro items h
  rw [Value.jsonArray] at h
  cases h

/-- What a tree binds at one place. -/
inductive Binding where
  | value (value : Value)
  /-- The list of an `IN` or `NOT IN` test. -/
  | list (values : List Value)

/-- Nothing that is bound is an array in itself. -/
def Binding.IsScalar : Binding → Prop
  | .value v => v.IsScalar
  | .list values => ∀ v ∈ values, v.IsScalar

/-- The values that are sent. -/
def Dialect.sent (d : Dialect) : Binding → List Value
  | .value v => [v]
  | .list values =>
    match d with
    | .postgres => [.array values]
    | _ => values

/-- A test for membership binds its list. -/
theorem Dialect.isIn_sent (d : Dialect) (field : String) (values : List Value) (first : Nat) :
    (d.isIn field values first).2 = d.sent (.list values) := by
  cases d <;> rfl

/-- The negated test binds its list as the test does. -/
theorem Dialect.isNotIn_sent (d : Dialect) (field : String) (values : List Value) (first : Nat) :
    (d.isNotIn field values first).2 = d.sent (.list values) := by
  cases d <;> rfl

/-- With its arrays replaced by their elements, what Postgres sends is what the others send. -/
theorem Binding.IsScalar.spread_sent {b : Binding} (h : b.IsScalar) :
    (Dialect.postgres.sent b).flatMap Value.spread = Dialect.mysql.sent b := by
  cases b with
  | value v => simp [Dialect.sent, Value.IsScalar.spread_eq h]
  | list values => simp [Dialect.sent, Value.spread]

/-- What MySQL and SQLite send of it is no array. -/
theorem Binding.IsScalar.of_mem_sent {b : Binding} (h : b.IsScalar) {v : Value}
    (hv : v ∈ Dialect.mysql.sent b) : v.IsScalar := by
  cases b with
  | value w =>
      obtain rfl := List.mem_singleton.1 hv
      exact h
  | list values => exact h v hv

/-! ## Rendering in all dialects at once -/

namespace Render

variable {α β : Type}

/-- A step of rendering fails in all dialects with the same error, or binds the same in all of
them, whatever each dialect has bound before. -/
def Uniform (x : Dialect → Render α) : Prop :=
  ∀ bound : Dialect → Array Value,
    (∃ e, ∀ d, StateT.run (x d) (bound d) = .error e) ∨
      ∃ bindings : List Binding, (∀ b ∈ bindings, b.IsScalar) ∧
        ∀ d, ∃ a, StateT.run (x d) (bound d) = .ok (a, bound d ++ (bindings.flatMap d.sent).toArray)

variable {x y : Dialect → Render α}

/-- A text alone fails in no dialect and binds nothing. -/
theorem Uniform.pure (a : Dialect → α) : Uniform fun d => (pure (a d) : Render α) :=
  fun _ => .inr ⟨[], nofun, fun d => ⟨a d, rfl⟩⟩

/-- The same error everywhere. -/
theorem Uniform.throw (e : RenderError) : Uniform fun _ => (throw e : Render α) :=
  fun _ => .inl ⟨e, fun _ => rfl⟩

/-- What follows on an error is not rendered. -/
theorem Uniform.stop (e : RenderError) {f : Dialect → α → Render β} :
    Uniform fun d => (MonadExcept.throw e : Render α) >>= f d :=
  fun _ => .inl ⟨e, fun _ => rfl⟩

/-- A result that is found without rendering is the same everywhere. -/
theorem Uniform.lift (result : Except RenderError α) :
    Uniform fun _ => (liftM result : Render α) := by
  cases result with
  | error e => exact fun _ => .inl ⟨e, fun _ => rfl⟩
  | ok a => exact .pure fun _ => a

/-- A choice that does not depend on the dialect. -/
theorem Uniform.ite {c : Prop} [Decidable c] (hx : Uniform x) (hy : Uniform y) :
    Uniform fun d => if c then x d else y d := by
  split
  · exact hx
  · exact hy

/-- Two steps in turn, the second for whatever the first gives in each dialect. -/
theorem Uniform.bind {f : Dialect → α → Render β} (hx : Uniform x)
    (hf : ∀ a : Dialect → α, Uniform fun d => f d (a d)) : Uniform fun d => x d >>= f d := by
  intro bound
  obtain ⟨e, he⟩ | ⟨bindings, hscalar, hrun⟩ := hx bound
  · refine .inl ⟨e, fun d => ?_⟩
    rw [StateT.run_bind, he d]
    rfl
  choose a ha using hrun
  have hfirst : ∀ d, StateT.run (x d >>= f d) (bound d) =
      StateT.run (f d (a d)) (bound d ++ (bindings.flatMap d.sent).toArray) := by
    intro d
    rw [StateT.run_bind, ha d]
    rfl
  obtain ⟨e, he⟩ | ⟨more, hmore, hrest⟩ :=
    hf a fun d => bound d ++ (bindings.flatMap d.sent).toArray
  · exact .inl ⟨e, fun d => (hfirst d).trans (he d)⟩
  · refine .inr ⟨bindings ++ more, List.forall_mem_append.2 ⟨hscalar, hmore⟩, fun d => ?_⟩
    obtain ⟨b, hb⟩ := hrest d
    refine ⟨b, ?_⟩
    rw [hfirst d, hb, List.flatMap_append, ← List.append_toArray, Array.append_assoc]

/-- What is made of a text binds what the text binds. -/
theorem Uniform.map {g : Dialect → α → β} (hx : Uniform x) :
    Uniform fun d => do return g d (← x d) :=
  hx.bind fun a => .pure fun d => g d (a d)

/-- A bound value that is no array is the same value everywhere. -/
theorem uniform_bind {v : Value} (h : v.IsScalar) : Uniform fun d => Render.bind d v := by
  refine fun bound => .inr ⟨[.value v], List.forall_mem_singleton.2 h, fun d => ?_⟩
  exact ⟨d.placeholder ((bound d).size + 1), by simp [Render.bind, StateT.run, Dialect.sent]⟩

/-- A text that numbers its placeholders itself, with the values of a list. -/
theorem uniform_bindAll {fragment : Dialect → Nat → String × List Value} {values : List Value}
    (hvalues : ∀ v ∈ values, v.IsScalar)
    (h : ∀ d first, (fragment d first).2 = d.sent (.list values)) :
    Uniform fun d => bindAll (fragment d) := by
  refine fun bound => .inr ⟨[.list values], List.forall_mem_singleton.2 hvalues, fun d => ?_⟩
  refine ⟨(fragment d ((bound d).size + 1)).1, ?_⟩
  simp only [bindAll, StateT.run, h, List.flatMap_cons, List.flatMap_nil, List.append_nil]

/-- From no values, what has been bound is what is sent. -/
theorem Uniform.run {x : Dialect → Render String} (hx : Uniform x) :
    (∃ e, ∀ d, Render.run (x d) = .error e) ∨
      ∃ bindings : List Binding, (∀ b ∈ bindings, b.IsScalar) ∧
        ∀ d, ∃ text, Render.run (x d) = .ok ⟨text, bindings.flatMap d.sent⟩ := by
  obtain ⟨e, he⟩ | ⟨bindings, hscalar, hrun⟩ := hx fun _ => #[]
  · exact .inl ⟨e, fun d => by rw [Render.run, he d]⟩
  · refine .inr ⟨bindings, hscalar, fun d => ?_⟩
    obtain ⟨text, htext⟩ := hrun d
    exact ⟨text, by simp [Render.run, htext]⟩

end Render

/-! ## Trees in all dialects -/

/-- What is bound at a part is no array, and it is no test for an element of a JSON array. -/
def Part.BindsScalars : Part → Prop
  | .expr (.param value) => value.IsScalar
  | .condition (.oneOf _ values _) => ∀ v ∈ values, v.IsScalar
  | .condition (.like _ pattern _) => pattern.IsScalar
  | .condition (.arrayContains _ _ _) => False
  | _ => True

/-- A path fails nowhere and binds at most its text, everywhere the same. -/
theorem JsonPath.render_uniform (path : JsonPath) : Render.Uniform fun d => path.render d := by
  cases path with
  | fixed path => exact .pure fun _ => "'" ++ path.text ++ "'"
  | bound text => exact Render.uniform_bind nofun

/-- Some joins bind alike if each of them does. -/
theorem Join.renderAll_uniform {n : Namespaces} {joins : List Join}
    (h : ∀ join ∈ joins, Render.Uniform fun d => join.render d n) :
    Render.Uniform fun d => Join.renderAll d n joins := by
  induction joins with
  | nil => exact .pure fun _ => []
  | cons join rest ih =>
      obtain ⟨hjoin, hrest⟩ := List.forall_mem_cons.1 h
      exact hjoin.bind fun text => (ih hrest).map

mutual

/-- An expression fails in all dialects alike, or binds the same in all. -/
theorem Expr.render_uniform (n : Namespaces) (expr : Expr)
    (h : ∀ part ∈ expr.parts, part.BindsScalars) :
    Render.Uniform fun d => expr.render d n := by
  match expr with
  | .column column => exact .lift _
  | .param value => exact Render.uniform_bind (h (.expr (.param value)) (by simp [Expr.parts]))
  | .null => exact .pure fun _ => "NULL"
  | .keyword text => exact .pure fun _ => text
  | .lower expr => exact (expr.render_uniform n (List.forall_mem_cons.1 h).2).map
  | .cast expr type => exact (expr.render_uniform n (List.forall_mem_cons.1 h).2).map
  | .jsonExtract target path =>
      exact (target.render_uniform n (List.forall_mem_cons.1 h).2).bind fun _ =>
        path.render_uniform.map
  | .jsonUnquote expr => exact (expr.render_uniform n (List.forall_mem_cons.1 h).2).map
  | .jsonString column path => exact (Render.Uniform.lift (column.render n)).map
  | .countRows => exact .pure fun _ => "COUNT(*)"
  | .count expr => exact (expr.render_uniform n (List.forall_mem_cons.1 h).2).map
  | .sum expr => exact (expr.render_uniform n (List.forall_mem_cons.1 h).2).map
  | .coalesce exprs => exact (Expr.renderAll_uniform n exprs (List.forall_mem_cons.1 h).2).map
  | .subquery query => exact (query.render_uniform n (List.forall_mem_cons.1 h).2).map
  | .exists query => exact (query.render_uniform n (List.forall_mem_cons.1 h).2).map
termination_by structural expr

/-- Some expressions fail in all dialects alike, or bind the same in all. -/
theorem Expr.renderAll_uniform (n : Namespaces) (exprs : List Expr)
    (h : ∀ part ∈ Expr.partsAll exprs, part.BindsScalars) :
    Render.Uniform fun d => Expr.renderAll d n exprs := by
  match exprs with
  | [] => exact .pure fun _ => []
  | expr :: rest =>
      rw [Expr.partsAll, List.forall_mem_append] at h
      exact (expr.render_uniform n h.1).bind fun _ => (Expr.renderAll_uniform n rest h.2).map
termination_by structural exprs

/-- A condition fails in all dialects alike, or binds the same in all. -/
theorem Condition.render_uniform (n : Namespaces) (condition : Condition)
    (h : ∀ part ∈ condition.parts, part.BindsScalars) :
    Render.Uniform fun d => condition.render d n := by
  match condition with
  | .compare left op right =>
      obtain ⟨hleft, hright⟩ := List.forall_mem_append.1 (List.forall_mem_cons.1 h).2
      exact (left.render_uniform n hleft).bind fun _ => (right.render_uniform n hright).map
  | .nullSafeEq left right =>
      obtain ⟨hleft, hright⟩ := List.forall_mem_append.1 (List.forall_mem_cons.1 h).2
      exact (left.render_uniform n hleft).bind fun _ => (right.render_uniform n hright).map
  | .isNull expr negated => exact (expr.render_uniform n (List.forall_mem_cons.1 h).2).map
  | .isJsonNull expr => exact (expr.render_uniform n (List.forall_mem_cons.1 h).2).map
  | .oneOf expr values negated =>
      obtain ⟨hvalues, hexpr⟩ := List.forall_mem_cons.1 h
      refine (expr.render_uniform n hexpr).bind fun field => ?_
      refine .ite (.pure fun d => d.boolText negated) (Render.uniform_bindAll hvalues ?_)
      intro d first
      cases negated with
      | false => exact d.isIn_sent _ values first
      | true => exact d.isNotIn_sent _ values first
  | .like expr pattern negated =>
      obtain ⟨hpattern, hexpr⟩ := List.forall_mem_cons.1 h
      exact (expr.render_uniform n hexpr).bind fun _ => (Render.uniform_bind hpattern).map
  | .arrayContains column value foldCase => exact (List.forall_mem_cons.1 h).1.elim
  | .overlaps column values =>
      exact (column.render_uniform n (List.forall_mem_cons.1 h).2).bind fun _ =>
        (Render.uniform_bind (Value.jsonArray_isScalar values)).map
  | .exists query negated => exact (query.render_uniform n (List.forall_mem_cons.1 h).2).map
  | .requires join => exact .pure fun d => d.boolText true
  | .joined join inner =>
      exact inner.render_uniform n (List.forall_mem_append.1 (List.forall_mem_cons.1 h).2).2
  | .all conditions =>
      exact (Condition.renderConjuncts_uniform n conditions (List.forall_mem_cons.1 h).2).map
  | .any conditions =>
      exact (Condition.renderDisjuncts_uniform n conditions (List.forall_mem_cons.1 h).2).map
  | .not condition => exact (condition.render_uniform n (List.forall_mem_cons.1 h).2).map
termination_by structural condition

/-- The parts of a conjunction fail in all dialects alike, or bind the same in all. -/
theorem Condition.renderConjuncts_uniform (n : Namespaces) (conditions : List Condition)
    (h : ∀ part ∈ Condition.partsAll conditions, part.BindsScalars) :
    Render.Uniform fun d => Condition.renderConjuncts d n conditions := by
  match conditions with
  | [] => exact .pure fun _ => []
  | c :: rest =>
      rw [Condition.partsAll, List.forall_mem_append] at h
      have hrest := Condition.renderConjuncts_uniform n rest h.2
      exact .ite hrest ((c.render_uniform n h.1).bind fun _ => hrest.map)
termination_by structural conditions

/-- The parts of a disjunction fail in all dialects alike, or bind the same in all. -/
theorem Condition.renderDisjuncts_uniform (n : Namespaces) (conditions : List Condition)
    (h : ∀ part ∈ Condition.partsAll conditions, part.BindsScalars) :
    Render.Uniform fun d => Condition.renderDisjuncts d n conditions := by
  match conditions with
  | [] => exact .pure fun _ => []
  | c :: rest =>
      rw [Condition.partsAll, List.forall_mem_append] at h
      exact (c.render_uniform n h.1).bind fun _ =>
        (Condition.renderDisjuncts_uniform n rest h.2).map
termination_by structural conditions

/-- Each join that a condition names is rendered alike in all dialects. -/
theorem Condition.wanted_uniform (condition : Condition)
    (h : ∀ part ∈ condition.parts, part.BindsScalars) :
    ∀ join ∈ condition.wanted, ∀ n, Render.Uniform fun d => join.render d n := by
  match condition with
  | .requires join =>
      have hjoin := fun n => join.render_uniform n (List.forall_mem_cons.1 h).2
      exact List.forall_mem_singleton.2 hjoin
  | .joined join inner =>
      obtain ⟨houter, hinner⟩ := List.forall_mem_append.1 (List.forall_mem_cons.1 h).2
      have hjoin := fun n => join.render_uniform n houter
      exact List.forall_mem_cons.2 ⟨hjoin, inner.wanted_uniform hinner⟩
  | .all conditions => exact Condition.wantedAll_uniform conditions (List.forall_mem_cons.1 h).2
  | .any conditions => exact Condition.wantedAll_uniform conditions (List.forall_mem_cons.1 h).2
  | .not condition => exact condition.wanted_uniform (List.forall_mem_cons.1 h).2
  | .compare .. | .nullSafeEq .. | .isNull .. | .isJsonNull .. | .oneOf .. | .like ..
  | .arrayContains .. | .overlaps .. | .exists .. => exact List.forall_mem_nil _
termination_by structural condition

/-- Each join that some conditions name is rendered alike in all dialects. -/
theorem Condition.wantedAll_uniform (conditions : List Condition)
    (h : ∀ part ∈ Condition.partsAll conditions, part.BindsScalars) :
    ∀ join ∈ Condition.wantedAll conditions, ∀ n, Render.Uniform fun d => join.render d n := by
  match conditions with
  | [] => exact List.forall_mem_nil _
  | c :: rest =>
      rw [Condition.partsAll, List.forall_mem_append] at h
      exact List.forall_mem_append.2
        ⟨c.wanted_uniform h.1, Condition.wantedAll_uniform rest h.2⟩
termination_by structural conditions

/-- The joins of a predicate fail in all dialects alike, or bind the same in all. -/
theorem Predicate.renderJoins_uniform (n : Namespaces) (found : List Join) (p : Predicate)
    (h : ∀ part ∈ p.parts, part.BindsScalars) :
    Render.Uniform fun d => p.renderJoins d n found := by
  match p with
  | .always => exact .pure fun _ => []
  | .never => exact .pure fun _ => []
  | .condition c =>
      simp only [Predicate.renderJoins_eq]
      exact Join.renderAll_uniform fun join hjoin =>
        c.wanted_uniform h join (Join.mem_of_mem_fresh hjoin) n
termination_by structural p

/-- The `WHERE` of a predicate fails in all dialects alike, or binds the same in all. -/
theorem Predicate.renderWhere_uniform (n : Namespaces) (p : Predicate)
    (h : ∀ part ∈ p.parts, part.BindsScalars) :
    Render.Uniform fun d => p.renderWhere d n := by
  match p with
  | .always => exact .pure fun _ => ""
  | .never => exact .pure fun d => " WHERE " ++ d.boolText false
  | .condition c => exact .ite (.pure fun _ => "") (c.render_uniform n h).map
termination_by structural p

/-- A join fails in all dialects alike, or binds the same in all. -/
theorem Join.render_uniform (n : Namespaces) (join : Join)
    (h : ∀ part ∈ join.parts, part.BindsScalars) :
    Render.Uniform fun d => join.render d n := by
  match join with
  | ⟨kind, table, on⟩ => exact (on.render_uniform _ h).map
termination_by structural join

/-- Each of some joins fails in all dialects alike, or binds the same in all. -/
theorem Join.each_uniform (n : Namespaces) (joins : List Join)
    (h : ∀ part ∈ Join.partsAll joins, part.BindsScalars) :
    ∀ join ∈ joins, Render.Uniform fun d => join.render d n := by
  match joins with
  | [] => exact List.forall_mem_nil _
  | join :: rest =>
      rw [Join.partsAll, List.forall_mem_append] at h
      exact List.forall_mem_cons.2 ⟨join.render_uniform n h.1, Join.each_uniform n rest h.2⟩
termination_by structural joins

/-- The items of a `SELECT` fail in all dialects alike, or bind the same in all. -/
theorem SelectItem.renderAll_uniform (n : Namespaces) (items : List SelectItem)
    (h : ∀ part ∈ SelectItem.partsAll items, part.BindsScalars) :
    Render.Uniform fun d => SelectItem.renderAll d n items := by
  match items with
  | [] => exact .pure fun _ => []
  | ⟨expr, asName⟩ :: rest =>
      rw [SelectItem.partsAll, List.forall_mem_append] at h
      exact (expr.render_uniform n h.1).bind fun _ => (SelectItem.renderAll_uniform n rest h.2).map
termination_by structural items

/-- The terms of an order fail in all dialects alike, or bind the same in all. -/
theorem OrderTerm.renderAll_uniform (n : Namespaces) (terms : List OrderTerm)
    (h : ∀ part ∈ OrderTerm.partsAll terms, part.BindsScalars) :
    Render.Uniform fun d => OrderTerm.renderAll d n terms := by
  match terms with
  | [] => exact .pure fun _ => []
  | ⟨expr, direction⟩ :: rest =>
      rw [OrderTerm.partsAll, List.forall_mem_append] at h
      exact (expr.render_uniform n h.1).bind fun _ => (OrderTerm.renderAll_uniform n rest h.2).map
termination_by structural terms

/-- `HAVING` fails in all dialects alike, or binds the same in all. -/
theorem Select.renderHaving_uniform (n : Namespaces) (having : Option Condition)
    (h : ∀ part ∈ Condition.partsOption having, part.BindsScalars) :
    Render.Uniform fun d => Select.renderHaving d n having := by
  match having with
  | none => exact .pure fun _ => ""
  | some c => exact (c.render_uniform n h).map
termination_by structural having

/-- A `SELECT` fails in all dialects alike, or binds the same in all. -/
theorem Select.render_uniform (n : Namespaces) (s : Select)
    (h : ∀ part ∈ s.parts, part.BindsScalars) : Render.Uniform fun d => s.render d n := by
  match s with
  | ⟨items, source, joins, filter, groupBy, having, orderBy, limit, offset, timeout⟩ =>
      simp only [Select.parts, List.forall_mem_append] at h
      obtain ⟨⟨⟨⟨⟨hitems, hjoins⟩, hfilter⟩, hgroupBy⟩, hhaving⟩, horderBy⟩ := h
      simp only [Select.render_eq]
      refine .ite (.throw _) ?_
      refine (SelectItem.renderAll_uniform _ items hitems).bind fun _ => ?_
      refine (Join.renderAll_uniform (Join.each_uniform _ joins hjoins)).bind fun _ => ?_
      refine (filter.renderJoins_uniform _ joins hfilter).bind fun _ => ?_
      refine (filter.renderWhere_uniform _ hfilter).bind fun _ => ?_
      refine (Expr.renderAll_uniform _ groupBy hgroupBy).bind fun _ => ?_
      refine (Select.renderHaving_uniform _ having hhaving).bind fun _ => ?_
      exact (OrderTerm.renderAll_uniform _ orderBy horderBy).map
termination_by structural s

end

/-- Inserted rows fail in all dialects alike, or bind the same in all. -/
theorem Insert.renderRows_uniform (width : Nat) (rows : List (List Expr))
    (h : ∀ part ∈ rows.flatMap Expr.partsAll, part.BindsScalars) :
    Render.Uniform fun d => Insert.renderRows d width rows := by
  induction rows with
  | nil => exact .pure fun _ => []
  | cons row rest ih =>
      rw [List.flatMap_cons, List.forall_mem_append] at h
      simp only [Insert.renderRows]
      split
      · exact .stop _
      · exact (Expr.renderAll_uniform _ row h.1).bind fun _ => (ih h.2).map

/-- An `INSERT` fails in all dialects alike, or binds the same in all. -/
theorem Insert.render_uniform (s : Insert) (h : ∀ part ∈ s.parts, part.BindsScalars) :
    Render.Uniform fun d => s.render d := by
  simp only [Insert.render]
  split
  · exact .stop _
  · exact (Insert.renderRows_uniform s.columns.length s.rows h).map

/-- Assignments fail in all dialects alike, or bind the same in all. -/
theorem Update.renderAssignments_uniform (assignments : List (Identifier × Expr))
    (h : ∀ part ∈ Expr.partsAll (assignments.map (·.2)), part.BindsScalars) :
    Render.Uniform fun d => Update.renderAssignments d assignments := by
  induction assignments with
  | nil => exact .pure fun _ => []
  | cons assignment rest ih =>
      rw [List.map_cons, Expr.partsAll, List.forall_mem_append] at h
      exact (assignment.2.render_uniform _ h.1).bind fun _ => (ih h.2).map

/-- An `UPDATE` fails in all dialects alike, or binds the same in all. -/
theorem Update.render_uniform (n : Namespaces) (s : Update)
    (h : ∀ part ∈ s.parts, part.BindsScalars) : Render.Uniform fun d => s.render d n := by
  simp only [Update.render]
  split
  · exact .stop _
  rw [Update.parts, List.forall_mem_append] at h
  refine (s.filter.renderJoins_uniform _ [] h.2).bind fun _ => ?_
  refine (Update.renderAssignments_uniform s.assignments h.1).bind fun _ => ?_
  exact (s.filter.renderWhere_uniform _ h.2).map

/-! ## Trees -/

namespace Tree

/-- A tree fails in all dialects alike, or binds the same in all. -/
theorem render_uniform (n : Namespaces) (t : Tree) (h : ∀ part ∈ t.parts, part.BindsScalars) :
    Render.Uniform fun d => t.render d n := by
  cases t with
  | expr e => exact e.render_uniform n h
  | condition c => exact c.render_uniform n h
  | join j => exact j.render_uniform n h
  | select s => exact s.render_uniform n h
  | insert s => exact s.render_uniform h
  | update s => exact s.render_uniform n h

/-- A tree that binds no array of its own and looks for no element of a JSON array fails in all
dialects with one error, or is rendered in all of them. Then MySQL and SQLite bind the same values,
none of them an array, and Postgres binds these values with an array in place of the elements of
each list. -/
theorem render_dialects {n : Namespaces} {t : Tree}
    (h : ∀ part ∈ t.parts, part.BindsScalars) :
    (∃ e, ∀ d, Render.run (t.render d n) = .error e) ∨
      ∃ (mysql sqlite postgres : String) (values packed : List Value),
        Render.run (t.render .mysql n) = .ok ⟨mysql, values⟩ ∧
        Render.run (t.render .sqlite n) = .ok ⟨sqlite, values⟩ ∧
        Render.run (t.render .postgres n) = .ok ⟨postgres, packed⟩ ∧
        packed.flatMap Value.spread = values ∧ ∀ v ∈ values, v.IsScalar := by
  obtain hfails | ⟨bindings, hscalar, hrun⟩ := (t.render_uniform n h).run
  · exact .inl hfails
  choose text htext using hrun
  refine .inr ⟨_, _, _, bindings.flatMap Dialect.mysql.sent,
    bindings.flatMap Dialect.postgres.sent, htext .mysql, htext .sqlite, htext .postgres, ?_, ?_⟩
  · rw [List.flatMap_assoc]
    exact List.flatMap_congr fun b hb => (hscalar b hb).spread_sent
  · intro v hv
    obtain ⟨b, hb, hv⟩ := List.mem_flatMap.1 hv
    exact (hscalar b hb).of_mem_sent hv

open Sample in
/-- A path and a list in two dialects, and the list unpacked again. -/
theorem render_dialects_answered :
    (∀ part ∈ answered.parts, part.BindsScalars) ∧
      Render.run (answered.render .mysql .none) =
        .ok ⟨"JSON_EXTRACT(answers, ?) IN (?, ?)", [.string "$.a", .int 1, .int 2]⟩ ∧
      Render.run (answered.render .postgres .none) =
        .ok ⟨"jsonb_path_query_first(answers, $1::jsonpath) = ANY($2)",
          [.string "$.a", .array [.int 1, .int 2]]⟩ ∧
      [.string "$.a", .array [.int 1, .int 2]].flatMap Value.spread =
        [.string "$.a", .int 1, .int 2] := by
  have hparts : answered.parts = [.condition (.oneOf answer [.int 1, .int 2] false),
      .expr answer, .expr (.column ⟨.own, ⟨"answers", .refl true⟩⟩)] := rfl
  have hscalars : ∀ part ∈ answered.parts, part.BindsScalars := by
    rw [hparts]
    simp [Part.BindsScalars, Value.IsScalar, answer]
  have hmysql : Render.run (answered.render .mysql .none) =
      .ok ⟨"JSON_EXTRACT(answers, ?) IN (?, ?)", [.string "$.a", .int 1, .int 2]⟩ := rfl
  have hpostgres : Render.run (answered.render .postgres .none) =
      .ok ⟨"jsonb_path_query_first(answers, $1::jsonpath) = ANY($2)",
        [.string "$.a", .array [.int 1, .int 2]]⟩ := rfl
  obtain ⟨e, he⟩ | ⟨mysql, sqlite, postgres, values, packed, hvalues, -, hpacked, hspread, -⟩ :=
    render_dialects hscalars
  · cases hmysql.symm.trans (he .mysql)
  · cases hmysql.symm.trans hvalues
    cases hpostgres.symm.trans hpacked
    exact ⟨hscalars, hmysql, hpostgres, hspread⟩

end Tree

end FilterSql
