import FilterSql.Proofs.Basic
import FilterSql.Proofs.Sql.Emission
import FilterSql.Proofs.Sql.Renumbering

/-!
# The statements that sum up

`Select.toCount`, `Select.toSum` and `Select.toExists` replace the items of a statement and drop its
order and paging. What is kept is rendered by `Select.renderKept`, and `Select.aggregates_keep` says
that it is the same text but for the numbers of the placeholders, with the same values.

A count and a sum stand where the statement stood. The test for a row puts the statement into one
without a table, so the table around it is no longer that of the enclosing statement: a column of
the enclosing table that stands directly in the kept part (`Select.looksOutward`) has no table then.
`Render.Severs` says what becomes of a step of rendering when the enclosing table is taken away.
-/

namespace FilterSql

variable {d : Dialect} {n : Namespaces}

/-! ## Columns of the enclosing table -/

/-- Whether a column is one of the enclosing table. -/
def Column.looksOutward (c : Column) : Bool :=
  decide (c.qualifier = .enclosing)

mutual

/-- Whether an expression names a column of the enclosing table outside of its subqueries, which
have a table around them anyway. -/
def Expr.looksOutward : Expr → Bool
  | .column c => c.looksOutward
  | .lower expr => expr.looksOutward
  | .cast expr _ => expr.looksOutward
  | .jsonExtract target _ => target.looksOutward
  | .jsonUnquote expr => expr.looksOutward
  | .jsonString c _ => c.looksOutward
  | .count expr => expr.looksOutward
  | .sum expr => expr.looksOutward
  | .coalesce exprs => Expr.anyLooksOutward exprs
  | _ => false
termination_by structural x => x

/-- Whether an expression of a list names a column of the enclosing table. -/
def Expr.anyLooksOutward : List Expr → Bool
  | [] => false
  | expr :: rest => expr.looksOutward || Expr.anyLooksOutward rest
termination_by structural x => x

end

mutual

/-- Whether a condition names a column of the enclosing table outside of its subqueries and
joins. -/
def Condition.looksOutward : Condition → Bool
  | .compare left _ right => left.looksOutward || right.looksOutward
  | .nullSafeEq left right => left.looksOutward || right.looksOutward
  | .isNull expr _ => expr.looksOutward
  | .isJsonNull expr => expr.looksOutward
  | .oneOf expr _ _ => expr.looksOutward
  | .like expr _ _ => expr.looksOutward
  | .arrayContains column _ _ => column.looksOutward
  | .overlaps column _ => column.looksOutward
  | .joined _ inner => inner.looksOutward
  | .all conditions => Condition.anyLooksOutward conditions
  | .any conditions => Condition.anyLooksOutward conditions
  | .not condition => condition.looksOutward
  | _ => false
termination_by structural x => x

/-- Whether a condition of a list names a column of the enclosing table. -/
def Condition.anyLooksOutward : List Condition → Bool
  | [] => false
  | c :: rest => c.looksOutward || Condition.anyLooksOutward rest
termination_by structural x => x

end

/-- Whether a predicate names a column of the enclosing table. -/
def Predicate.looksOutward : Predicate → Bool
  | .condition c => c.looksOutward
  | _ => false

/-- Whether a column of the enclosing table stands directly in the `WHERE`, `GROUP BY` or `HAVING`
clause of a statement. -/
def Select.looksOutward (s : Select) : Bool :=
  s.filter.looksOutward || Expr.anyLooksOutward s.groupBy || s.having.any Condition.looksOutward

mutual

/-- A condition that asks nothing names no column. -/
theorem Condition.looksOutward_of_vacuous {c : Condition} (h : c.isVacuous = true) :
    c.looksOutward = false := by
  match c with
  | .requires join => rfl
  | .all conditions =>
      rw [Condition.isVacuous, Bool.and_eq_true] at h
      exact Condition.anyLooksOutward_of_vacuous h.2
  | .compare .. | .nullSafeEq .. | .isNull .. | .isJsonNull .. | .oneOf .. | .like ..
  | .arrayContains .. | .overlaps .. | .exists .. | .joined .. | .any _ | .not _ => cases h
termination_by structural c

/-- Conditions that ask nothing name no column of the enclosing table. -/
theorem Condition.anyLooksOutward_of_vacuous {conditions : List Condition}
    (h : Condition.allVacuous conditions = true) :
    Condition.anyLooksOutward conditions = false := by
  match conditions with
  | [] => rfl
  | c :: rest =>
      rw [Condition.allVacuous, Bool.and_eq_true] at h
      rw [Condition.anyLooksOutward, c.looksOutward_of_vacuous h.1,
        Condition.anyLooksOutward_of_vacuous h.2, Bool.false_or]
termination_by structural conditions

end

/-! ## Taking the enclosing table away -/

namespace Render

variable {α β : Type}

/-- Where a step of rendering succeeds, another one does the same, or, if `outward` holds, fails for
the lack of an enclosing table. -/
def Severs (outward : Bool) (x y : Render α) : Prop :=
  ∀ bound r, StateT.run x bound = .ok r →
    (outward = false → StateT.run y bound = .ok r) ∧
      (outward = true → ∃ column, StateT.run y bound = .error (.missingNamespace column))

variable {b b' : Bool} {x y : Render α}

/-- The same step does the same. -/
theorem Severs.of_eq (h : x = y) : Severs false x y :=
  fun _ _ hrun => ⟨fun _ => h ▸ hrun, nofun⟩

/-- Two steps in turn lose a column if one of them does. -/
theorem Severs.bind {f g : α → Render β} (hx : Severs b x y)
    (hf : ∀ a, Severs b' (f a) (g a)) : Severs (b || b') (x >>= f) (y >>= g) := by
  intro bound r hrun
  rw [StateT.run_bind] at hrun ⊢
  obtain ⟨⟨a, mid⟩, hfirst, hrest⟩ := bind_eq_ok.1 hrun
  obtain ⟨hsame, hfails⟩ := hx bound _ hfirst
  obtain ⟨hsame', hfails'⟩ := hf a mid r hrest
  cases b with
  | true =>
      obtain ⟨column, herror⟩ := hfails rfl
      exact ⟨nofun, fun _ => ⟨column, by rw [herror]; rfl⟩⟩
  | false =>
      rw [hsame rfl]
      exact ⟨hsame', hfails'⟩

/-- What is made of a text loses what the text loses. -/
theorem Severs.map {f : α → β} (hx : Severs b x y) :
    Severs b (do return f (← x)) (do return f (← y)) := by
  have hbind : Severs (b || false) (do return f (← x)) (do return f (← y)) :=
    hx.bind fun a => .of_eq rfl
  rwa [Bool.or_false] at hbind

end Render

/-- A column of the enclosing table needs one, and the others do not look at it. -/
theorem Column.render_severed (own : Option String) (table : String) (c : Column) :
    Render.Severs c.looksOutward (liftM (c.render ⟨own, some table⟩) : Render String)
      (liftM (c.render ⟨own, none⟩) : Render String) := by
  obtain ⟨qualifier, name⟩ := c
  cases qualifier with
  | own => exact .of_eq rfl
  | enclosing => exact fun _ _ _ => ⟨nofun, fun _ => ⟨name.text, rfl⟩⟩
  | named table => exact .of_eq rfl

/-- The other columns have a text wherever there is a table. -/
theorem Column.exists_render {c : Column} (h : c.looksOutward = false) (table : String)
    (enclosing : Option String) : ∃ text, c.render ⟨some table, enclosing⟩ = .ok text := by
  obtain ⟨qualifier, name⟩ := c
  cases qualifier with
  | own => exact ⟨_, rfl⟩
  | enclosing => cases h
  | named table => exact ⟨_, rfl⟩

/-- The columns of a subquery have the table of the statement around them. -/
theorem Select.render_own (own enclosing enclosing' : Option String) (s : Select) :
    s.render d ⟨own, enclosing⟩ = s.render d ⟨own, enclosing'⟩ := by
  rw [render_eq, render_eq]
  rfl

/-- The columns in the condition of a join have the table of the statement around them. -/
theorem Join.renderAll_own (own enclosing enclosing' : Option String) (joins : List Join) :
    Join.renderAll d ⟨own, enclosing⟩ joins = Join.renderAll d ⟨own, enclosing'⟩ joins := by
  induction joins with
  | nil => rfl
  | cons join rest ih =>
      have hjoin : join.render d ⟨own, enclosing⟩ = join.render d ⟨own, enclosing'⟩ := by
        cases join
        rfl
      rw [Join.renderAll, Join.renderAll, hjoin, ih]

section Severed

variable (d : Dialect) (own : Option String) (table : String)

mutual

/-- An expression does the same without the enclosing table, unless it names a column of it. -/
theorem Expr.render_severed (expr : Expr) :
    Render.Severs expr.looksOutward (expr.render d ⟨own, some table⟩)
      (expr.render d ⟨own, none⟩) := by
  match expr with
  | .column c => exact c.render_severed own table
  | .param _ | .null | .keyword _ | .countRows => exact .of_eq rfl
  | .lower expr => exact expr.render_severed.map
  | .cast expr type => exact expr.render_severed.map
  | .jsonExtract target path =>
      rw [Expr.looksOutward, ← Bool.or_false target.looksOutward]
      exact target.render_severed.bind fun _ => .of_eq rfl
  | .jsonUnquote expr => exact expr.render_severed.map
  | .jsonString c path => exact (c.render_severed own table).map
  | .count expr => exact expr.render_severed.map
  | .sum expr => exact expr.render_severed.map
  | .coalesce exprs => exact (Expr.renderAll_severed exprs).map
  | .subquery query => exact (Render.Severs.of_eq (query.render_own _ _ _)).map
  | .exists query => exact (Render.Severs.of_eq (query.render_own _ _ _)).map
termination_by structural expr

/-- Some expressions do the same without the enclosing table, unless one names a column of it. -/
theorem Expr.renderAll_severed (exprs : List Expr) :
    Render.Severs (Expr.anyLooksOutward exprs) (Expr.renderAll d ⟨own, some table⟩ exprs)
      (Expr.renderAll d ⟨own, none⟩ exprs) := by
  match exprs with
  | [] => exact .of_eq rfl
  | expr :: rest => exact expr.render_severed.bind fun _ => (Expr.renderAll_severed rest).map
termination_by structural exprs

end

mutual

/-- A condition does the same without the enclosing table, unless it names a column of it. -/
theorem Condition.render_severed (condition : Condition) :
    Render.Severs condition.looksOutward (condition.render d ⟨own, some table⟩)
      (condition.render d ⟨own, none⟩) := by
  match condition with
  | .compare left op right =>
      exact (left.render_severed d own table).bind fun _ => (right.render_severed d own table).map
  | .nullSafeEq left right =>
      exact (left.render_severed d own table).bind fun _ => (right.render_severed d own table).map
  | .isNull expr negated => exact (expr.render_severed d own table).map
  | .isJsonNull expr => exact (expr.render_severed d own table).map
  | .oneOf expr values negated =>
      rw [Condition.looksOutward, ← Bool.or_false expr.looksOutward]
      exact (expr.render_severed d own table).bind fun _ => .of_eq rfl
  | .like expr pattern negated =>
      rw [Condition.looksOutward, ← Bool.or_false expr.looksOutward]
      exact (expr.render_severed d own table).bind fun _ => .of_eq rfl
  | .arrayContains column value foldCase =>
      rw [Condition.looksOutward, ← Bool.or_false column.looksOutward]
      exact (column.render_severed d own table).bind fun _ => .of_eq rfl
  | .overlaps column values =>
      rw [Condition.looksOutward, ← Bool.or_false column.looksOutward]
      exact (column.render_severed d own table).bind fun _ => .of_eq rfl
  | .exists query negated => exact (Render.Severs.of_eq (query.render_own _ _ _)).map
  | .requires join => exact .of_eq rfl
  | .joined join inner => exact inner.render_severed
  | .all conditions => exact (Condition.renderConjuncts_severed conditions).map
  | .any conditions => exact (Condition.renderDisjuncts_severed conditions).map
  | .not condition => exact condition.render_severed.map
termination_by structural condition

/-- The parts of a conjunction do the same without the enclosing table, unless one names a column of
it. -/
theorem Condition.renderConjuncts_severed (conditions : List Condition) :
    Render.Severs (Condition.anyLooksOutward conditions)
      (Condition.renderConjuncts d ⟨own, some table⟩ conditions)
      (Condition.renderConjuncts d ⟨own, none⟩ conditions) := by
  match conditions with
  | [] => exact .of_eq rfl
  | c :: rest =>
      have hrest := Condition.renderConjuncts_severed rest
      rw [Condition.renderConjuncts, Condition.renderConjuncts, Condition.anyLooksOutward]
      split
      next hvacuous =>
        rw [c.looksOutward_of_vacuous hvacuous, Bool.false_or]
        exact hrest
      next => exact c.render_severed.bind fun _ => hrest.map
termination_by structural conditions

/-- The parts of a disjunction do the same without the enclosing table, unless one names a column of
it. -/
theorem Condition.renderDisjuncts_severed (conditions : List Condition) :
    Render.Severs (Condition.anyLooksOutward conditions)
      (Condition.renderDisjuncts d ⟨own, some table⟩ conditions)
      (Condition.renderDisjuncts d ⟨own, none⟩ conditions) := by
  match conditions with
  | [] => exact .of_eq rfl
  | c :: rest => exact c.render_severed.bind fun _ => (Condition.renderDisjuncts_severed rest).map
termination_by structural conditions

end

/-- The `WHERE` of a predicate does the same without the enclosing table, unless it names a column
of it. -/
theorem Predicate.renderWhere_severed (p : Predicate) :
    Render.Severs p.looksOutward (p.renderWhere d ⟨own, some table⟩)
      (p.renderWhere d ⟨own, none⟩) := by
  cases p with
  | always => exact .of_eq rfl
  | never => exact .of_eq rfl
  | condition c =>
      rw [Predicate.renderWhere, Predicate.renderWhere, Predicate.looksOutward]
      split
      next hvacuous =>
        rw [c.looksOutward_of_vacuous hvacuous]
        exact .of_eq rfl
      next => exact (c.render_severed d own table).map

/-- `HAVING` does the same without the enclosing table, unless it names a column of it. -/
theorem Select.renderHaving_severed (having : Option Condition) :
    Render.Severs (having.any Condition.looksOutward)
      (Select.renderHaving d ⟨own, some table⟩ having)
      (Select.renderHaving d ⟨own, none⟩ having) := by
  cases having with
  | none => exact .of_eq rfl
  | some c => exact (c.render_severed d own table).map

end Severed

namespace Render

variable {α : Type} {x : Render α} {a : α} {bound after : Array Value} {e : RenderError}

/-- A step of rendering adds values to those bound before. -/
theorem Shifts.exists_values {R : α → α → Prop} (hx : Shifts 0 R x x)
    (hrun : StateT.run x bound = .ok (a, after)) : ∃ values, after = bound ++ values := by
  obtain ⟨_, _, values, hrun', -, -⟩ | ⟨e, hrun', -⟩ := hx bound bound rfl
  · rw [hrun] at hrun'
    cases hrun'
    exact ⟨values, rfl⟩
  · rw [hrun] at hrun'
    cases hrun'

/-- What is rendered behind other values is rendered from no values as well. -/
theorem Shifts.from_start {R : α → α → Prop} (hx : Shifts bound.size R x x)
    (hrun : StateT.run x bound = .ok (a, after)) :
    ∃ a' values, StateT.run x #[] = .ok (a', values) ∧ after = bound ++ values ∧ R a' a := by
  obtain ⟨a', _, values, hstart, hrun', hrel⟩ | ⟨e, -, hrun'⟩ := hx #[] bound (by simp)
  · rw [hrun] at hrun'
    cases hrun'
    exact ⟨a', values, by rw [hstart, Array.empty_append], rfl, hrel⟩
  · rw [hrun] at hrun'
    cases hrun'

/-- A text that is changed after it is rendered keeps its values. -/
theorem run_map (f : α → String) (h : StateT.run x #[] = .ok (a, after)) :
    Render.run (do return f (← x)) = .ok ⟨f a, after.toList⟩ := by
  rw [Render.run, StateT.run_bind, h]
  rfl

/-- A text that is changed after it is rendered fails where it fails. -/
theorem run_map_error (f : α → String) (h : StateT.run x #[] = .error e) :
    Render.run (do return f (← x)) = .error e := by
  rw [Render.run, StateT.run_bind, h]
  rfl

end Render

/-! ## The part that is kept -/

namespace Select

variable {s : Select} {table : Table}

/-- The part of a statement that chooses its rows and groups: `FROM`, the joins, `WHERE`, `GROUP BY`
and `HAVING`. -/
def renderKept (d : Dialect) (n : Namespaces) (s : Select) : Render String := do
  let explicit ← Join.renderAll d n s.joins
  let needed ← s.filter.renderJoins d n s.joins
  let filter ← s.filter.renderWhere d n
  let groups ← Expr.renderAll d n s.groupBy
  let having ← renderHaving d n s.having
  return sourceText s.source ++ String.join ((explicit ++ needed).map (" " ++ ·)) ++ filter ++
    listText " GROUP BY " groups ++ having

/-- The order and the paging of a statement, from the texts of the order. -/
def tailText (s : Select) (terms : List String) : String :=
  listText " ORDER BY " terms ++ countText " LIMIT " s.limit ++ countText " OFFSET " s.offset

/-- A statement is its items, the part that an aggregate keeps, and the order and paging. -/
theorem render_kept (d : Dialect) (n : Namespaces) (s : Select) :
    s.render d n =
      if s.lacksTable then throw .missingFrom
      else do
        let items ← SelectItem.renderAll d (n.inside s.namespaceText?) s.items
        let kept ← s.renderKept d (n.inside s.namespaceText?)
        let terms ← OrderTerm.renderAll d (n.inside s.namespaceText?) s.orderBy
        return "SELECT " ++ hintText d s.timeout ++ itemsText items ++ kept ++
          s.tailText terms := by
  rw [render_eq]
  simp only [renderKept, tailText, bind_assoc, pure_bind, assemble_eq, String.append_assoc]

/-- What is kept is the same behind other placeholders, but for their numbers. -/
theorem renderKept_shifts (k : Nat) (d : Dialect) (n : Namespaces) (s : Select) :
    Render.Shifts k (d.Shifted k) (s.renderKept d n) (s.renderKept d n) := by
  refine (Join.renderAll_shifts k d n s.joins).bind fun _ _ hexplicit => ?_
  refine (s.filter.renderJoins_shifts k d n s.joins).bind fun _ _ hneeded => ?_
  refine (s.filter.renderWhere_shifts k d n).bind fun _ _ hfilter => ?_
  refine (Expr.renderAll_shifts k d n s.groupBy).bind fun _ _ hgroups => ?_
  refine (renderHaving_shifts k d n s.having).map fun _ _ hhaving => ?_
  have hjoins := ((hexplicit.append hneeded).blanks.after (sourceText s.source)).append hfilter
  exact (hjoins.append (shifted_listText _ hgroups)).append hhaving

/-- What is kept does the same without the enclosing table, unless it names a column of it. -/
theorem renderKept_severed (d : Dialect) (own : Option String) (outer : String) (s : Select) :
    Render.Severs s.looksOutward (s.renderKept d ⟨own, some outer⟩)
      (s.renderKept d ⟨own, none⟩) := by
  have hjoins : Join.renderAll d ⟨own, some outer⟩ s.joins =
      Join.renderAll d ⟨own, none⟩ s.joins := Join.renderAll_own own _ _ s.joins
  have hneeded : s.filter.renderJoins d ⟨own, some outer⟩ s.joins =
      s.filter.renderJoins d ⟨own, none⟩ s.joins := by
    rw [Predicate.renderJoins_eq, Predicate.renderJoins_eq]
    exact Join.renderAll_own own _ _ _
  have hrest (joins : List String) := (s.filter.renderWhere_severed d own outer).bind
    fun filter => (Expr.renderAll_severed d own outer s.groupBy).bind
      fun groups => (renderHaving_severed d own outer s.having).map (f := fun having =>
        sourceText s.source ++ String.join (joins.map (" " ++ ·)) ++ filter ++
          listText " GROUP BY " groups ++ having)
  rw [looksOutward, Bool.or_assoc, ← Bool.false_or (_ || _), ← Bool.false_or (_ || _)]
  refine (Render.Severs.of_eq hjoins).bind fun explicit => ?_
  exact (Render.Severs.of_eq hneeded).bind fun needed => hrest (explicit ++ needed)

/-! ## The statements that sum up -/

/-- The namespaces within a statement on a table. -/
theorem inside_of_source (n : Namespaces) (hsource : s.source = some table) :
    n.inside s.namespaceText? = ⟨some table.namespaceText, n.own⟩ := by
  rw [namespaceText?, hsource]
  rfl

/-- A statement with a table does not lack one. -/
theorem lacksTable_of_source (hsource : s.source = some table) : s.lacksTable = false := by
  rw [lacksTable, hsource]
  rfl

/-- The statement with one item in place of its own ones, without order and paging. -/
def single (s : Select) (expr : Expr) (asName : Option Identifier) (timeout : Option Nat) :
    Select :=
  { s with
    items := [⟨expr, asName⟩], orderBy := [], limit := none, offset := none, timeout := timeout }

/-- The text of an item, under its alias if it has one. -/
def itemText (text : String) : Option Identifier → String
  | some asName => text ++ " AS " ++ asName.text
  | none => text

/-- The item of an aggregate has the name `c`. -/
theorem itemText_aggregate (text : String) :
    itemText text (some aggregateAlias) = text ++ " AS c" :=
  String.append_assoc

/-- The one item stands in front of the part that is kept. -/
theorem render_single (htable : s.lacksTable = false) (expr : Expr) (asName : Option Identifier)
    (timeout : Option Nat) :
    (s.single expr asName timeout).render d n = do
      let text ← expr.render d (n.inside s.namespaceText?)
      let kept ← s.renderKept d (n.inside s.namespaceText?)
      return "SELECT " ++ hintText d timeout ++ itemText text asName ++ kept := by
  have hlacks : (s.single expr asName timeout).lacksTable = false := htable
  rw [render_kept, hlacks]
  simp only [single, SelectItem.renderAll, OrderTerm.renderAll, tailText, countText, itemsText,
    listText, Text.join, bind_assoc, pure_bind, Bool.false_eq_true, if_false, List.isEmpty_cons,
    List.isEmpty_nil, if_true, String.append_empty]
  cases asName <;> rfl

/-- An aggregate of an expression that binds nothing. -/
theorem render_aggregate (hsource : s.source = some table) {expr : Expr} {text : String}
    (htext : expr.render d ⟨some table.namespaceText, n.own⟩ = pure text) :
    (s.aggregate expr).render d n = do
      let kept ← s.renderKept d ⟨some table.namespaceText, n.own⟩
      return "SELECT " ++ hintText d s.timeout ++ (text ++ " AS c") ++ kept := by
  have hsingle := render_single (d := d) (n := n) (lacksTable_of_source hsource) expr
    (some aggregateAlias) s.timeout
  rw [inside_of_source n hsource, htext, pure_bind, itemText_aggregate] at hsingle
  exact hsingle

/-- The statement in a test for a row has no enclosing table. -/
theorem render_toExists (hsource : s.source = some table) :
    s.toExists.render d n = do
      let kept ← s.renderKept d ⟨some table.namespaceText, none⟩
      return "SELECT " ++ hintText d s.timeout ++ ("EXISTS (SELECT 1" ++ kept ++ ") AS c") := by
  have hinner := render_single (d := d) (n := ⟨none, n.own⟩) (lacksTable_of_source hsource)
    (.keyword "1") none none
  rw [inside_of_source _ hsource, Expr.render, pure_bind] at hinner
  have houter := render_single (d := d) (n := n) (s := empty) rfl
    (.exists (s.single (.keyword "1") none none)) (some aggregateAlias) s.timeout
  have hempty : empty.renderKept d (n.inside empty.namespaceText?) = pure "" := rfl
  rw [hempty, Expr.render] at houter
  refine houter.trans ?_
  rw [show n.inside empty.namespaceText? = ⟨none, n.own⟩ from rfl, hinner]
  simp only [bind_assoc, pure_bind, itemText_aggregate, String.append_empty, String.append_assoc]
  rfl

/-- A statement on a table that renders is its items, the part that is kept, and the order and
paging, each with the values that it binds; what is kept is the same from no values, but for the
numbers of its placeholders. -/
theorem exists_kept (hsource : s.source = some table) {statement : Statement}
    (hrender : Render.run (s.render d n) = .ok statement) :
    ∃ items kept kept' tail before values behind,
      statement = ⟨"SELECT " ++ hintText d s.timeout ++ items ++ kept ++ tail,
        before ++ values ++ behind⟩ ∧
      StateT.run (s.renderKept d ⟨some table.namespaceText, n.own⟩) before.toArray =
        .ok (kept, (before ++ values).toArray) ∧
      StateT.run (s.renderKept d ⟨some table.namespaceText, n.own⟩) #[] =
        .ok (kept', values.toArray) ∧
      d.Shifted before.length kept' kept := by
  rw [Render.run, render_kept, lacksTable_of_source hsource, inside_of_source n hsource] at hrender
  simp only [Bool.false_eq_true, if_false] at hrender
  split at hrender
  next text after hrun =>
    cases hrender
    obtain ⟨⟨items, mid⟩, hitems, hrun⟩ := bind_eq_ok.1 hrun
    obtain ⟨⟨kept, mid'⟩, hkept, hrun⟩ := bind_eq_ok.1 hrun
    obtain ⟨⟨terms, last⟩, hterms, hrun⟩ := bind_eq_ok.1 hrun
    cases hrun
    obtain ⟨before, rfl⟩ := (SelectItem.renderAll_shifts 0 d _ s.items).exists_values hitems
    rw [Array.empty_append] at hkept
    obtain ⟨kept', values, hstart, rfl, hshifted⟩ :=
      (s.renderKept_shifts before.size d _).from_start hkept
    obtain ⟨behind, rfl⟩ := (OrderTerm.renderAll_shifts 0 d _ s.orderBy).exists_values hterms
    refine ⟨itemsText items, kept, kept', s.tailText terms, before.toList, values.toList,
      behind.toList, ?_, ?_, ?_, ?_⟩
    · simp
    · rw [← Array.toList_append, Array.toArray_toList, Array.toArray_toList]
      exact hkept
    · simpa using hstart
    · simpa using hshifted
  next => cases hrender

/-- A statement on a table that renders is its items, the part that is kept, and the order and
paging, each with the values that it binds. Its count and the sum of a column have the same part
but for the numbers of the placeholders, with the same values. So has the test for a row, unless the
statement stands in another one and a column of the table of that one stands directly in the part:
then the test cannot be rendered. -/
theorem aggregates_keep {c : Column} {statement : Statement}
    (hsource : s.source = some table) (hcolumn : c.looksOutward = false)
    (hrender : Render.run (s.render d n) = .ok statement) :
    ∃ items kept kept' tail columnText before values behind,
      statement = ⟨"SELECT " ++ hintText d s.timeout ++ items ++ kept ++ tail,
        before ++ values ++ behind⟩ ∧
      StateT.run (s.renderKept d ⟨some table.namespaceText, n.own⟩) before.toArray =
        .ok (kept, (before ++ values).toArray) ∧
      StateT.run (s.renderKept d ⟨some table.namespaceText, n.own⟩) #[] =
        .ok (kept', values.toArray) ∧
      d.Shifted before.length kept' kept ∧
      c.render ⟨some table.namespaceText, n.own⟩ = .ok columnText ∧
      Render.run ((s.toCount none).render d n) =
        .ok ⟨"SELECT " ++ hintText d s.timeout ++ "COUNT(*) AS c" ++ kept', values⟩ ∧
      Render.run ((s.toSum (.column c)).render d n) =
        .ok ⟨"SELECT " ++ hintText d s.timeout ++ ("SUM(" ++ columnText ++ ")" ++ " AS c") ++ kept',
          values⟩ ∧
      (n.own = none ∨ s.looksOutward = false →
        Render.run (s.toExists.render d n) =
          .ok ⟨"SELECT " ++ hintText d s.timeout ++ ("EXISTS (SELECT 1" ++ kept' ++ ") AS c"),
            values⟩) ∧
      (n.own ≠ none → s.looksOutward = true →
        ∃ name, Render.run (s.toExists.render d n) = .error (.missingNamespace name)) := by
  obtain ⟨items, kept, kept', tail, before, values, behind, rfl, hkept, hstart, hshifted⟩ :=
    exists_kept hsource hrender
  obtain ⟨columnText, hcolumnText⟩ := Column.exists_render hcolumn table.namespaceText n.own
  refine ⟨items, kept, kept', tail, columnText, before, values, behind, rfl, hkept, hstart,
    hshifted, hcolumnText, ?_, ?_, ?_, ?_⟩
  · rw [toCount, render_aggregate hsource rfl]
    exact Render.run_map _ hstart
  · have hsum : (Expr.sum (.column c)).render d ⟨some table.namespaceText, n.own⟩ =
        pure ("SUM(" ++ columnText ++ ")") := by
      rw [Expr.render, Expr.render, hcolumnText]
      rfl
    rw [toSum, render_aggregate hsource hsum]
    exact Render.run_map _ hstart
  · intro h
    rw [render_toExists hsource]
    refine Render.run_map _ ?_
    cases hown : n.own with
    | none => rwa [hown] at hstart
    | some outer =>
        have hinward : s.looksOutward = false := h.resolve_left (by simp [hown])
        rw [hown] at hstart
        exact (s.renderKept_severed d _ outer _ _ hstart).1 hinward
  · intro hsome houtward
    obtain ⟨outer, hown⟩ := Option.ne_none_iff_exists'.1 hsome
    rw [hown] at hstart
    obtain ⟨name, herror⟩ := (s.renderKept_severed d _ outer _ _ hstart).2 houtward
    refine ⟨name, ?_⟩
    rw [render_toExists hsource]
    exact Render.run_map_error _ herror

namespace Sample

/-- The dogs above an age, with a number beside each of them. -/
def agedDogs : Select :=
  { empty with
    items := [⟨.param (.int 7), none⟩], source := some ⟨⟨"dogs", .refl true⟩, none⟩,
    filter := .condition (.compare (.column ⟨.own, ⟨"age", .refl true⟩⟩) .gt (.param (.int 3))) }

/-- The dogs of the person in the enclosing statement. -/
def dogsOfPerson : Select :=
  { empty with
    source := some ⟨⟨"dogs", .refl true⟩, none⟩,
    filter := .condition (.compare (.column ⟨.own, ⟨"owner", .refl true⟩⟩) .eq
      (.column ⟨.enclosing, ⟨"id", .refl true⟩⟩)) }

end Sample

/-- The aggregates of a statement with a value before the part that is kept. -/
theorem aggregates_keep_agedDogs :
    let n : Namespaces := ⟨some "people", none⟩
    Render.run (Sample.agedDogs.render .postgres n) =
        .ok ⟨"SELECT $1 FROM dogs WHERE dogs.age > $2", [.int 7, .int 3]⟩ ∧
      ∃ kept values,
        Render.run ((Sample.agedDogs.toCount none).render .postgres n) =
          .ok ⟨"SELECT COUNT(*) AS c" ++ kept, values⟩ ∧
        Render.run (Sample.agedDogs.toExists.render .postgres n) =
          .ok ⟨"SELECT " ++ ("EXISTS (SELECT 1" ++ kept ++ ") AS c"), values⟩ := by
  have hrender : Render.run (Sample.agedDogs.render .postgres ⟨some "people", none⟩) =
      .ok ⟨"SELECT $1 FROM dogs WHERE dogs.age > $2", [.int 7, .int 3]⟩ := rfl
  obtain ⟨_, _, kept, _, _, _, values, _, -, -, -, -, -, hcount, -, hexists, -⟩ :=
    aggregates_keep (c := ⟨.own, ⟨"age", .refl true⟩⟩) rfl rfl hrender
  exact ⟨hrender, kept, values, hcount, hexists (.inr rfl)⟩

/-- The test for a row cannot be rendered, although the statement can be. -/
theorem toExists_fails_dogsOfPerson :
    let n : Namespaces := ⟨some "people", none⟩
    Sample.dogsOfPerson.source.isSome = true ∧
      Render.run (Sample.dogsOfPerson.render .postgres n) =
        .ok ⟨"SELECT * FROM dogs WHERE dogs.owner = people.id", []⟩ ∧
      Render.run (Sample.dogsOfPerson.toExists.render .postgres n) =
        .error (.missingNamespace "id") :=
  ⟨rfl, rfl, rfl⟩

end Select

end FilterSql
