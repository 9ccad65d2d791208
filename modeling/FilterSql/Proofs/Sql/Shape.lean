import FilterSql.Proofs.Basic
import FilterSql.Proofs.Sql.Clauses

/-!
# What is left without the bound values

The shape of a tree is the tree with `NULL` in the place of every bound value. The joins of a tree
are kept as they are, since they are told apart by their values. Rendering a tree and its shape
gives the same text, the same number of values and the same error (`Select.render_shape`), so trees
of one shape differ in nothing but the values that are sent beside the text.
-/

namespace FilterSql

/-- The path without its text, if it is bound. -/
def JsonPath.shape : JsonPath → JsonPath
  | .fixed path => .fixed path
  | .bound _ => .bound ""

mutual

/-- The expression without its bound values. -/
def Expr.shape : Expr → Expr
  | .column column => .column column
  | .param _ => .param .null
  | .null => .null
  | .keyword text => .keyword text
  | .lower expr => .lower expr.shape
  | .cast expr type => .cast expr.shape type
  | .jsonExtract target path => .jsonExtract target.shape path.shape
  | .jsonUnquote expr => .jsonUnquote expr.shape
  | .jsonString column path => .jsonString column path
  | .countRows => .countRows
  | .count expr => .count expr.shape
  | .sum expr => .sum expr.shape
  | .coalesce exprs => .coalesce (Expr.shapes exprs)
  | .subquery query => .subquery query.shape
  | .exists query => .exists query.shape
termination_by structural x => x

/-- The expressions of a list without their bound values. -/
def Expr.shapes : List Expr → List Expr
  | [] => []
  | expr :: rest => expr.shape :: Expr.shapes rest
termination_by structural x => x

/-- The condition without its bound values. A list of values keeps its length. -/
def Condition.shape : Condition → Condition
  | .compare left op right => .compare left.shape op right.shape
  | .nullSafeEq left right => .nullSafeEq left.shape right.shape
  | .isNull expr negated => .isNull expr.shape negated
  | .isJsonNull expr => .isJsonNull expr.shape
  | .oneOf expr values negated => .oneOf expr.shape (values.map fun _ => .null) negated
  | .like expr _ negated => .like expr.shape .null negated
  | .arrayContains column _ foldCase => .arrayContains column.shape .null foldCase
  | .overlaps column _ => .overlaps column.shape []
  | .exists query negated => .exists query.shape negated
  | .requires join => .requires join
  | .joined join inner => .joined join inner.shape
  | .all conditions => .all (Condition.shapes conditions)
  | .any conditions => .any (Condition.shapes conditions)
  | .not condition => .not condition.shape
termination_by structural x => x

/-- The conditions of a list without their bound values. -/
def Condition.shapes : List Condition → List Condition
  | [] => []
  | c :: rest => c.shape :: Condition.shapes rest
termination_by structural x => x

/-- The condition without its bound values, if there is one. -/
def Condition.shapeOption : Option Condition → Option Condition
  | none => none
  | some c => some c.shape
termination_by structural x => x

/-- The predicate without its bound values. -/
def Predicate.shape : Predicate → Predicate
  | .always => .always
  | .never => .never
  | .condition c => .condition c.shape
termination_by structural x => x

/-- The items without their bound values. -/
def SelectItem.shapes : List SelectItem → List SelectItem
  | [] => []
  | ⟨expr, asName⟩ :: rest => ⟨expr.shape, asName⟩ :: SelectItem.shapes rest
termination_by structural x => x

/-- The terms of an order without their bound values. -/
def OrderTerm.shapes : List OrderTerm → List OrderTerm
  | [] => []
  | ⟨expr, direction⟩ :: rest => ⟨expr.shape, direction⟩ :: OrderTerm.shapes rest
termination_by structural x => x

/-- The statement without the bound values outside of its joins. -/
def Select.shape : Select → Select
  | ⟨items, source, joins, filter, groupBy, having, orderBy, limit, offset, timeout⟩ =>
    ⟨SelectItem.shapes items, source, joins, filter.shape, Expr.shapes groupBy,
      Condition.shapeOption having, OrderTerm.shapes orderBy, limit, offset, timeout⟩
termination_by structural x => x

end

/-! ## The operations on conditions -/

namespace Condition

/-- The shapes of a list that is put together are those of its two parts. -/
theorem shapes_append (as bs : List Condition) :
    shapes (as ++ bs) = shapes as ++ shapes bs := by
  induction as with
  | nil => rfl
  | cons a as ih => simp only [List.cons_append, shapes, ih]

/-- The shape of a conjunction is the conjunction of the shapes. -/
theorem shape_and (a b : Condition) : (a.and b).shape = a.shape.and b.shape := by
  cases a <;> cases b <;> simp only [Condition.and, shape, shapes, shapes_append]

/-- The shape of a disjunction is the disjunction of the shapes. -/
theorem shape_or (a b : Condition) : (a.or b).shape = a.shape.or b.shape := by
  cases a <;> cases b <;> simp only [Condition.or, shape, shapes, shapes_append]

/-- The shape of a negation is the negation of the shape. -/
theorem shape_negate (c : Condition) : c.negate.shape = c.shape.negate := by
  cases c <;> simp only [negate, shape]

mutual

/-- A condition asks for nothing exactly if its shape does. -/
theorem isVacuous_shape (c : Condition) : c.shape.isVacuous = c.isVacuous := by
  match c with
  | .requires join => rfl
  | .all [] => rfl
  | .all (c :: rest) =>
      simp only [shape, shapes, isVacuous, List.isEmpty_cons, allVacuous, isVacuous_shape c,
        allVacuous_shapes rest]
  | .compare .. | .nullSafeEq .. | .isNull .. | .isJsonNull .. | .oneOf .. | .like ..
  | .arrayContains .. | .overlaps .. | .exists .. | .joined .. | .any .. | .not .. => rfl
termination_by structural c

/-- All conditions of a list ask for nothing exactly if their shapes do. -/
theorem allVacuous_shapes (conditions : List Condition) :
    allVacuous (shapes conditions) = allVacuous conditions := by
  match conditions with
  | [] => rfl
  | c :: rest => simp only [shapes, allVacuous, isVacuous_shape c, allVacuous_shapes rest]
termination_by structural conditions

end

/-- A condition is a single test exactly if its shape is. -/
theorem isSingle_shape (c : Condition) : c.shape.isSingle = c.isSingle := by
  match c with
  | .all [] => rfl
  | .all [only] => exact only.isSingle_shape
  | .all (_ :: _ :: _) => rfl
  | .any [] => rfl
  | .any [only] => exact only.isSingle_shape
  | .any (_ :: _ :: _) => rfl
  | .joined _ inner => exact inner.isSingle_shape
  | .compare .. | .nullSafeEq .. | .isNull .. | .isJsonNull .. | .oneOf .. | .like ..
  | .arrayContains .. | .overlaps .. | .exists .. | .requires .. | .not .. => rfl
termination_by structural c

end Condition

namespace Predicate

/-- The shape of a conjunction of predicates is the conjunction of their shapes. -/
theorem shape_and (p q : Predicate) : (p.and q).shape = p.shape.and q.shape := by
  cases p <;> cases q <;> simp only [Predicate.and, shape, Condition.shape_and]

/-- The shape of a disjunction of predicates is the disjunction of their shapes. -/
theorem shape_or (p q : Predicate) : (p.or q).shape = p.shape.or q.shape := by
  cases p <;> cases q <;> simp only [Predicate.or, shape, Condition.shape_or]

/-- The shape of a negated predicate is the negation of its shape. -/
theorem shape_negate (p : Predicate) : p.negate.shape = p.shape.negate := by
  cases p <;> simp only [Predicate.negate, shape, Condition.shape_negate]

/-- A predicate that is settled against every row is told by its shape. -/
theorem shape_eq_never {p : Predicate} : p.shape = .never ↔ p = .never := by
  cases p <;> simp only [shape, reduceCtorEq]

/-- A predicate that is settled for every row is told by its shape. -/
theorem shape_eq_always {p : Predicate} : p.shape = .always ↔ p = .always := by
  cases p <;> simp only [shape, reduceCtorEq]

end Predicate

/-- The shape of a statement that is restricted is its shape, restricted by the shape. -/
theorem Select.shape_restrict (s : Select) (p : Predicate) :
    (s.restrict p).shape = s.shape.restrict p.shape := by
  cases s
  simp only [Select.restrict, Select.shape, Predicate.shape_and]

/-! ## Rendering -/

namespace Render

variable {α β : Type} {d : Dialect}

/-- Two steps of rendering give the same result or the same error after equally many values, and
bind equally many values. -/
def Alike (x y : Render α) : Prop :=
  ∀ bound bound' : Array Value, bound.size = bound'.size →
    match StateT.run x bound, StateT.run y bound' with
    | .ok (a, after), .ok (b, after') => a = b ∧ after.size = after'.size
    | .error e, .error e' => e = e'
    | _, _ => False

/-- Steps that are alike end alike behind equally many values. -/
theorem alike_iff {x y : Render α} :
    Alike x y ↔ ∀ bound bound' : Array Value, bound.size = bound'.size →
      SameOutcome (fun r r' => r.1 = r'.1 ∧ r.2.size = r'.2.size) (StateT.run x bound)
        (StateT.run y bound') := by
  refine forall₃_congr fun bound bound' _ => ?_
  cases StateT.run x bound <;> cases StateT.run y bound' <;> simp

/-- Two steps are alike in either order. -/
theorem Alike.symm {x y : Render α} (h : Alike x y) : Alike y x := by
  refine alike_iff.2 fun bound bound' hsize => ?_
  exact (alike_iff.1 h bound' bound hsize.symm).symm.imp fun _ _ hr => hr.imp Eq.symm Eq.symm

/-- Steps that are alike one step are alike. -/
theorem Alike.trans {x y z : Render α} (h : Alike x y) (h' : Alike y z) : Alike x z := by
  refine alike_iff.2 fun bound bound' hsize => ?_
  have hboth := (alike_iff.1 h bound bound' hsize).trans (alike_iff.1 h' bound' bound' rfl)
  refine hboth.imp fun _ _ hr => ?_
  obtain ⟨_, ⟨hresult, hafter⟩, hresult', hafter'⟩ := hr
  exact ⟨hresult.trans hresult', hafter.trans hafter'⟩

/-- A step that is like another one is like itself: it looks at the number of the values bound
before and not at the values. -/
theorem Alike.left {x y : Render α} (h : Alike x y) : Alike x x := h.trans h.symm

/-- A result by itself is alike to itself. -/
theorem Alike.pure (a : α) : Alike (pure a : Render α) (pure a) := fun _ _ h => ⟨rfl, h⟩

/-- An error is alike to itself. -/
theorem Alike.throw (e : RenderError) : Alike (throw e : Render α) (throw e) := fun _ _ _ => rfl

/-- A result that is known before rendering is alike to itself. -/
theorem Alike.lift (result : Except RenderError α) :
    Alike (liftM result : Render α) (liftM result) := by
  intro bound bound' h
  cases result with
  | error e => exact rfl
  | ok a => exact ⟨rfl, h⟩

/-- Steps that are alike, with steps behind them that are alike for every result, are alike
together. -/
theorem Alike.bind {x y : Render α} {f g : α → Render β} (hx : Alike x y)
    (hf : ∀ a, Alike (f a) (g a)) : Alike (x >>= f) (y >>= g) := by
  refine alike_iff.2 fun bound bound' hsize => ?_
  rw [StateT.run_bind, StateT.run_bind]
  refine (alike_iff.1 hx bound bound' hsize).bind ?_
  rintro ⟨a, after⟩ ⟨_, after'⟩ ⟨rfl, hafter⟩
  exact alike_iff.1 (hf a) after after' hafter

/-- Steps that are alike stay so with a function of their results. -/
theorem Alike.map {x y : Render α} (f : α → β) (hx : Alike x y) :
    Alike (do return f (← x)) (do return f (← y)) :=
  hx.bind fun a => .pure (f a)

/-- Two values are bound in the same way, whatever they are. -/
theorem alike_bind (v w : Value) : Alike (Render.bind d v) (Render.bind d w) := by
  intro bound bound' h
  exact ⟨by rw [h], by simp [h]⟩

/-- From no values, steps that are alike give the same text with equally many values, or the same
error. -/
theorem Alike.run {x y : Render String} (h : Alike x y) :
    (∃ text values values', Render.run x = .ok ⟨text, values⟩ ∧
        Render.run y = .ok ⟨text, values'⟩ ∧ values.length = values'.length) ∨
      ∃ e, Render.run x = .error e ∧ Render.run y = .error e := by
  have hrun := alike_iff.1 h #[] #[] rfl
  rw [Render.run, Render.run]
  generalize StateT.run x #[] = first at hrun
  generalize StateT.run y #[] = second at hrun
  cases hrun with
  | @ok r r' hr =>
      obtain ⟨text, bound⟩ := r
      obtain ⟨_, bound'⟩ := r'
      obtain ⟨rfl, hsize⟩ := hr
      exact .inl ⟨text, bound.toList, bound'.toList, rfl, rfl,
        by rw [Array.length_toList, Array.length_toList, hsize]⟩
  | error e => exact .inr ⟨e, rfl, rfl⟩

/-- Fragments with the same text and equally many values are bound alike. -/
theorem alike_bindAll {fragment fragment' : Nat → String × List Value}
    (h : ∀ first, (fragment first).1 = (fragment' first).1 ∧
      (fragment first).2.length = (fragment' first).2.length) :
    Alike (bindAll fragment) (bindAll fragment') := by
  intro bound bound' hsize
  obtain ⟨htext, hlength⟩ := h (bound'.size + 1)
  refine ⟨by rw [hsize]; exact htext, ?_⟩
  show (bound ++ (fragment (bound.size + 1)).2.toArray).size =
    (bound' ++ (fragment' (bound'.size + 1)).2.toArray).size
  rw [Array.size_append, Array.size_append, hsize]
  exact congrArg (bound'.size + ·) hlength

end Render

/-- The text of a list of placeholders depends on its length alone. -/
theorem Dialect.placeholders_map (d : Dialect) (first : Nat) (values : List Value)
    (f : Value → Value) : d.placeholders first (values.map f) = d.placeholders first values := by
  induction values generalizing first with
  | nil => rfl
  | cons v rest ih => simp only [List.map_cons, placeholders, ih]

/-- A test for membership in a list is written from the length of the list alone. -/
theorem Dialect.isIn_map (d : Dialect) (field : String) (values : List Value) (f : Value → Value)
    (first : Nat) : (d.isIn field (values.map f) first).1 = (d.isIn field values first).1 ∧
      (d.isIn field (values.map f) first).2.length = (d.isIn field values first).2.length := by
  cases d <;> simp only [isIn, placeholders_map, List.length_map, List.length_cons,
    List.length_nil, and_self]

/-- The text of a test against a list depends on the length of the list alone. -/
theorem Dialect.isNotIn_map (d : Dialect) (field : String) (values : List Value)
    (f : Value → Value) (first : Nat) :
    (d.isNotIn field (values.map f) first).1 = (d.isNotIn field values first).1 ∧
      (d.isNotIn field (values.map f) first).2.length =
        (d.isNotIn field values first).2.length := by
  cases d <;> simp only [isNotIn, placeholders_map, List.length_map, List.length_cons,
    List.length_nil, and_self]

/-- A path and its shape are rendered alike. -/
theorem JsonPath.render_shape (d : Dialect) (path : JsonPath) :
    Render.Alike (path.render d) (path.shape.render d) := by
  cases path with
  | fixed path => exact .pure _
  | bound text => exact Render.alike_bind _ _

mutual

/-- An expression and its shape are rendered alike. -/
theorem Expr.render_shape (d : Dialect) (n : Namespaces) (expr : Expr) :
    Render.Alike (expr.render d n) (expr.shape.render d n) := by
  match expr with
  | .column column => exact .lift _
  | .param value => exact Render.alike_bind _ _
  | .null => exact .pure _
  | .keyword text => exact .pure _
  | .lower expr => exact (expr.render_shape d n).map _
  | .cast expr type => exact (expr.render_shape d n).map _
  | .jsonExtract target path =>
      exact (target.render_shape d n).bind fun _ => (path.render_shape d).map _
  | .jsonUnquote expr => exact (expr.render_shape d n).map _
  | .jsonString column path => exact Render.Alike.map _ (.lift _)
  | .countRows => exact .pure _
  | .count expr => exact (expr.render_shape d n).map _
  | .sum expr => exact (expr.render_shape d n).map _
  | .coalesce exprs => exact (Expr.renderAll_shapes d n exprs).map _
  | .subquery query => exact (query.render_shape d n).map _
  | .exists query => exact (query.render_shape d n).map _
termination_by structural expr

/-- Expressions and their shapes are rendered alike. -/
theorem Expr.renderAll_shapes (d : Dialect) (n : Namespaces) (exprs : List Expr) :
    Render.Alike (Expr.renderAll d n exprs) (Expr.renderAll d n (Expr.shapes exprs)) := by
  match exprs with
  | [] => exact .pure _
  | expr :: rest =>
      exact (expr.render_shape d n).bind fun _ => (Expr.renderAll_shapes d n rest).map _
termination_by structural exprs

/-- A condition and its shape are rendered alike. -/
theorem Condition.render_shape (d : Dialect) (n : Namespaces) (condition : Condition) :
    Render.Alike (condition.render d n) (condition.shape.render d n) := by
  match condition with
  | .compare left op right =>
      exact (left.render_shape d n).bind fun _ => (right.render_shape d n).map _
  | .nullSafeEq left right =>
      exact (left.render_shape d n).bind fun _ => (right.render_shape d n).map _
  | .isNull expr negated => exact (expr.render_shape d n).map _
  | .isJsonNull expr => exact (expr.render_shape d n).map _
  | .oneOf expr values negated =>
      rw [Condition.shape, Condition.render, Condition.render]
      refine (expr.render_shape d n).bind fun field => ?_
      cases values with
      | nil => exact .pure _
      | cons v rest =>
          rw [List.map_cons, List.isEmpty_cons, List.isEmpty_cons, if_neg Bool.false_ne_true,
            if_neg Bool.false_ne_true]
          refine Render.alike_bindAll fun first => ?_
          have hin := d.isIn_map field (v :: rest) (fun _ => .null) first
          have hout := d.isNotIn_map field (v :: rest) (fun _ => .null) first
          cases negated with
          | false => exact hin.imp Eq.symm Eq.symm
          | true => exact hout.imp Eq.symm Eq.symm
  | .like expr pattern negated =>
      exact (expr.render_shape d n).bind fun _ => (Render.alike_bind _ _).map _
  | .arrayContains column value foldCase =>
      exact (column.render_shape d n).bind fun _ => (Render.alike_bind _ _).map _
  | .overlaps column values =>
      exact (column.render_shape d n).bind fun _ => (Render.alike_bind _ _).map _
  | .exists query negated => exact (query.render_shape d n).map _
  | .requires join => exact .pure _
  | .joined join inner => exact inner.render_shape d n
  | .all conditions => exact (Condition.renderConjuncts_shapes d n conditions).map _
  | .any conditions =>
      have hdisjuncts := Condition.renderDisjuncts_shapes d n conditions
      cases conditions with
      | nil => exact .pure _
      | cons c rest => exact hdisjuncts.map _
  | .not condition => exact (condition.render_shape d n).map _
termination_by structural condition

/-- The parts of a conjunction and their shapes are rendered alike. -/
theorem Condition.renderConjuncts_shapes (d : Dialect) (n : Namespaces)
    (conditions : List Condition) :
    Render.Alike (Condition.renderConjuncts d n conditions)
      (Condition.renderConjuncts d n (Condition.shapes conditions)) := by
  match conditions with
  | [] => exact .pure _
  | c :: rest =>
      have hrest := Condition.renderConjuncts_shapes d n rest
      rw [Condition.shapes, Condition.renderConjuncts, Condition.renderConjuncts,
        c.isVacuous_shape]
      split
      · exact hrest
      · refine (c.render_shape d n).bind fun text => ?_
        rw [Condition.enclosed, Condition.enclosed, c.isSingle_shape]
        exact hrest.map _
termination_by structural conditions

/-- The parts of a disjunction and their shapes are rendered alike. -/
theorem Condition.renderDisjuncts_shapes (d : Dialect) (n : Namespaces)
    (conditions : List Condition) :
    Render.Alike (Condition.renderDisjuncts d n conditions)
      (Condition.renderDisjuncts d n (Condition.shapes conditions)) := by
  match conditions with
  | [] => exact .pure _
  | c :: rest =>
      have hrest := Condition.renderDisjuncts_shapes d n rest
      rw [Condition.shapes, Condition.renderDisjuncts, Condition.renderDisjuncts]
      refine (c.render_shape d n).bind fun text => ?_
      rw [Condition.enclosed, Condition.enclosed, c.isSingle_shape]
      exact hrest.map _
termination_by structural conditions

/-- The joins of a condition are those of its shape, and they are rendered alike. -/
theorem Condition.renderJoins_shape (d : Dialect) (n : Namespaces) (found : List Join)
    (condition : Condition) :
    Render.Alike (condition.renderJoins d n found) (condition.shape.renderJoins d n found) := by
  match condition with
  | .requires join =>
      rw [Condition.shape, Condition.renderJoins]
      split
      · exact .pure _
      · exact (join.render_alike d n).map _
  | .joined join inner =>
      rw [Condition.shape, Condition.renderJoins, Condition.renderJoins]
      split
      · exact inner.renderJoins_shape d n found
      · refine (join.render_alike d n).bind fun text => ?_
        exact (inner.renderJoins_shape d n (found ++ [join])).map _
  | .all conditions => exact Condition.renderJoinsAll_shapes d n found conditions
  | .any conditions => exact Condition.renderJoinsAll_shapes d n found conditions
  | .not condition => exact condition.renderJoins_shape d n found
  | .compare .. | .nullSafeEq .. | .isNull .. | .isJsonNull .. | .oneOf .. | .like ..
  | .arrayContains .. | .overlaps .. | .exists .. => exact .pure _
termination_by structural condition

/-- The joins of a list of conditions are those of the shapes, and they are rendered alike. -/
theorem Condition.renderJoinsAll_shapes (d : Dialect) (n : Namespaces) (found : List Join)
    (conditions : List Condition) :
    Render.Alike (Condition.renderJoinsAll d n found conditions)
      (Condition.renderJoinsAll d n found (Condition.shapes conditions)) := by
  match conditions with
  | [] => exact .pure _
  | c :: rest =>
      refine (c.renderJoins_shape d n found).bind fun r => ?_
      exact (Condition.renderJoinsAll_shapes d n r.2 rest).map _
termination_by structural conditions

/-- A `HAVING` clause and its shape are rendered alike. -/
theorem Condition.renderHaving_shape (d : Dialect) (n : Namespaces) (having : Option Condition) :
    Render.Alike (Select.renderHaving d n having)
      (Select.renderHaving d n (Condition.shapeOption having)) := by
  match having with
  | none => exact .pure _
  | some c => exact (c.render_shape d n).map _
termination_by structural having

/-- The joins of a predicate are those of its shape, and they are rendered alike. -/
theorem Predicate.renderJoins_shape (d : Dialect) (n : Namespaces) (found : List Join)
    (p : Predicate) :
    Render.Alike (p.renderJoins d n found) (p.shape.renderJoins d n found) := by
  match p with
  | .always => exact .pure _
  | .never => exact .pure _
  | .condition c => exact (c.renderJoins_shape d n found).map _
termination_by structural p

/-- A `WHERE` clause and its shape are rendered alike. -/
theorem Predicate.renderWhere_shape (d : Dialect) (n : Namespaces) (p : Predicate) :
    Render.Alike (p.renderWhere d n) (p.shape.renderWhere d n) := by
  match p with
  | .always => exact .pure _
  | .never => exact .pure _
  | .condition c =>
      rw [Predicate.shape, Predicate.renderWhere, Predicate.renderWhere, c.isVacuous_shape]
      split
      · exact .pure _
      · exact (c.render_shape d n).map _
termination_by structural p

/-- The text of a join does not depend on the values bound before. -/
theorem Join.render_alike (d : Dialect) (n : Namespaces) (join : Join) :
    Render.Alike (join.render d n) (join.render d n) := by
  match join with
  | ⟨kind, table, on⟩ => exact (on.render_shape d _).left.map _
termination_by structural join

/-- A list of joins is rendered alike behind any values. -/
theorem Join.renderAll_alike (d : Dialect) (n : Namespaces) (joins : List Join) :
    Render.Alike (Join.renderAll d n joins) (Join.renderAll d n joins) := by
  match joins with
  | [] => exact .pure _
  | join :: rest =>
      exact (join.render_alike d n).bind fun _ => (Join.renderAll_alike d n rest).map _
termination_by structural joins

/-- Items and their shapes are rendered alike. -/
theorem SelectItem.renderAll_shapes (d : Dialect) (n : Namespaces) (items : List SelectItem) :
    Render.Alike (SelectItem.renderAll d n items)
      (SelectItem.renderAll d n (SelectItem.shapes items)) := by
  match items with
  | [] => exact .pure _
  | ⟨expr, asName⟩ :: rest =>
      exact (expr.render_shape d n).bind fun _ => (SelectItem.renderAll_shapes d n rest).map _
termination_by structural items

/-- The terms of an order and their shapes are rendered alike. -/
theorem OrderTerm.renderAll_shapes (d : Dialect) (n : Namespaces) (terms : List OrderTerm) :
    Render.Alike (OrderTerm.renderAll d n terms)
      (OrderTerm.renderAll d n (OrderTerm.shapes terms)) := by
  match terms with
  | [] => exact .pure _
  | ⟨expr, direction⟩ :: rest =>
      exact (expr.render_shape d n).bind fun _ => (OrderTerm.renderAll_shapes d n rest).map _
termination_by structural terms

/-- The text of a statement does not depend on its bound values. -/
theorem Select.render_shape (d : Dialect) (n : Namespaces) (s : Select) :
    Render.Alike (s.render d n) (s.shape.render d n) := by
  match s with
  | ⟨items, source, joins, filter, groupBy, having, orderBy, limit, offset, timeout⟩ =>
      have hlacks : (⟨items, source, joins, filter, groupBy, having, orderBy, limit, offset,
          timeout⟩ : Select).shape.lacksTable = Select.lacksTable ⟨items, source, joins, filter,
            groupBy, having, orderBy, limit, offset, timeout⟩ := by
        cases filter <;> rfl
      rw [Select.render_eq, Select.render_eq, hlacks]
      split
      · exact .throw _
      refine (SelectItem.renderAll_shapes d _ items).bind fun _ => ?_
      refine (Join.renderAll_alike d _ joins).bind fun _ => ?_
      refine (filter.renderJoins_shape d _ joins).bind fun _ => ?_
      refine (filter.renderWhere_shape d _).bind fun _ => ?_
      refine (Expr.renderAll_shapes d _ groupBy).bind fun _ => ?_
      refine (Condition.renderHaving_shape d _ having).bind fun _ => ?_
      exact (OrderTerm.renderAll_shapes d _ orderBy).map _
termination_by structural s

end

/-- Statements of one shape are rendered to the same text with equally many values, or to the same
error. -/
theorem Select.render_run_of_shape {s t : Select} (h : s.shape = t.shape) (d : Dialect)
    (n : Namespaces) :
    (∃ text values values', Render.run (s.render d n) = .ok ⟨text, values⟩ ∧
        Render.run (t.render d n) = .ok ⟨text, values'⟩ ∧ values.length = values'.length) ∨
      ∃ e, Render.run (s.render d n) = .error e ∧ Render.run (t.render d n) = .error e := by
  have halike : Render.Alike (s.render d n) (t.render d n) :=
    (s.render_shape d n).trans (h ▸ (t.render_shape d n).symm)
  exact halike.run

end FilterSql
