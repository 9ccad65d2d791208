import FilterSql.Proofs.Sql.Clauses
import FilterSql.Proofs.Sql.Placeholders
import Mathlib.Data.List.Forall2

/-!
# Rendering behind other values

The text of a tree does not depend on the values that are bound before it but for the numbers of its
placeholders, and neither do the values that it binds or the error it fails with
(`Select.render_shifts`). `Dialect.Shifted` relates a text to the same text behind `k` more values,
and `Render.Shifts` says it of a step of rendering; there is one rule for each way of putting steps
together.
-/

namespace FilterSql

variable {d : Dialect} {k : Nat}

/-! ## Texts with other numbers -/

namespace Dialect

/-- A text, and the same text behind `k` more values: each placeholder has a number that is larger
by `k`. -/
inductive Shifted (d : Dialect) (k : Nat) : String → String → Prop where
  | text (s : String) : Shifted d k s s
  | placeholder (n : Nat) : Shifted d k (d.placeholder n) (d.placeholder (n + k))
  | append {s s' t t' : String} (first : Shifted d k s s') (second : Shifted d k t t') :
      Shifted d k (s ++ t) (s' ++ t')

/-- Texts in turn and the same texts behind `k` more values. -/
abbrev ShiftedAll (d : Dialect) (k : Nat) : List String → List String → Prop :=
  List.Forall₂ (d.Shifted k)

variable {s s' t t' : String} {ss ss' : List String}

/-- A text may be put in front of texts that differ in their numbers. -/
theorem Shifted.after (h : d.Shifted k t t') (s : String) : d.Shifted k (s ++ t) (s ++ t') :=
  (Shifted.text s).append h

/-- A text may be put behind texts that differ in their numbers. -/
theorem Shifted.before (h : d.Shifted k s s') (t : String) : d.Shifted k (s ++ t) (s' ++ t) :=
  h.append (.text t)

/-- Two pairs of texts that differ in their numbers do so with a text between them. -/
theorem Shifted.between (hs : d.Shifted k s s') (middle : String) (ht : d.Shifted k t t') :
    d.Shifted k (s ++ middle ++ t) (s' ++ middle ++ t') :=
  (hs.before middle).append ht

/-- Texts that differ in their numbers do so within the same two texts. -/
theorem Shifted.wrap (h : d.Shifted k s s') (left right : String) :
    d.Shifted k (left ++ s ++ right) (left ++ s' ++ right) :=
  (h.after left).before right

/-- Lists of texts that differ in their numbers do so when they are joined. -/
theorem ShiftedAll.join (separator : String) (h : d.ShiftedAll k ss ss') :
    d.Shifted k (Text.join separator ss) (Text.join separator ss') := by
  induction h with
  | nil => exact .text _
  | cons first rest ih =>
      cases rest with
      | nil => exact first
      | cons => exact first.between separator ih

/-- Texts with a blank before each of them. -/
theorem ShiftedAll.blanks (h : d.ShiftedAll k ss ss') :
    d.Shifted k (String.join (ss.map (" " ++ ·))) (String.join (ss'.map (" " ++ ·))) := by
  induction h with
  | nil => exact .text _
  | cons first rest ih =>
      rw [List.map_cons, List.map_cons, String.join_cons, String.join_cons]
      exact (first.after " ").append ih

/-- Lists of texts that differ in their numbers are empty together. -/
theorem ShiftedAll.isEmpty (h : d.ShiftedAll k ss ss') : ss.isEmpty = ss'.isEmpty := by
  cases h <;> rfl

/-- Lists of texts that differ in their numbers do so when they are put together. -/
theorem ShiftedAll.append {ts ts' : List String} (h : d.ShiftedAll k ss ss')
    (h' : d.ShiftedAll k ts ts') : d.ShiftedAll k (ss ++ ts) (ss' ++ ts') :=
  List.rel_append h h'

/-- A list of placeholders from a later number on differs from the list in its numbers. -/
theorem shiftedAll_placeholders (first : Nat) (values : List Value) :
    d.ShiftedAll k (d.placeholders first values) (d.placeholders (first + k) values) := by
  induction values generalizing first with
  | nil => exact List.Forall₂.nil
  | cons v rest ih =>
      have hrest := ih (first + 1)
      rw [Nat.add_right_comm] at hrest
      exact List.Forall₂.cons (.placeholder first) hrest

/-! ## Fragments of a dialect -/

/-- The test for a list keeps the shift of the tested text. -/
theorem Shifted.isIn (h : d.Shifted k s s') (values : List Value) (first : Nat) :
    d.Shifted k (d.isIn s values first).1 (d.isIn s' values (first + k)).1 := by
  cases d with
  | postgres =>
      rw [postgres_isIn, postgres_isIn]
      exact ((h.before _).append (.placeholder first)).before _
  | mysql | sqlite =>
      exact ((h.before _).append ((shiftedAll_placeholders first values).join _)).before _

/-- The test against a list keeps the shift of the tested text. -/
theorem Shifted.isNotIn (h : d.Shifted k s s') (values : List Value) (first : Nat) :
    d.Shifted k (d.isNotIn s values first).1 (d.isNotIn s' values (first + k)).1 := by
  cases d with
  | postgres =>
      rw [postgres_isNotIn, postgres_isNotIn]
      exact ((h.before _).append (.placeholder first)).before _
  | mysql | sqlite =>
      exact ((h.before _).append ((shiftedAll_placeholders first values).join _)).before _

/-- Null-safe equality keeps the shift of both sides. -/
theorem Shifted.nullSafeEq (hs : d.Shifted k s s') (ht : d.Shifted k t t') :
    d.Shifted k (d.nullSafeEq s t) (d.nullSafeEq s' t') := by
  cases d <;> exact hs.between _ ht

/-- Taking a part of a document keeps the shift of the document and the path. -/
theorem Shifted.jsonExtract (hs : d.Shifted k s s') (ht : d.Shifted k t t') :
    d.Shifted k (d.jsonExtract s t) (d.jsonExtract s' t') := by
  cases d <;> exact ((hs.after _).between _ ht).before _

/-- Reading a part of a document as text keeps the shift. -/
theorem Shifted.jsonUnquote (h : d.Shifted k s s') :
    d.Shifted k (d.jsonUnquote s) (d.jsonUnquote s') := by
  cases d with
  | mysql | postgres => exact h.wrap _ _
  | sqlite => exact h

/-- The test for a JSON null keeps the shift. -/
theorem Shifted.jsonNullTest (h : d.Shifted k s s') :
    d.Shifted k ((d.jsonNullTest? s).getD (s ++ " IS NULL"))
      ((d.jsonNullTest? s').getD (s' ++ " IS NULL")) := by
  cases d <;> exact h.before _

/-- The test for an element of an array keeps the shift of both sides. -/
theorem Shifted.arrayContains (hs : d.Shifted k s s') (ht : d.Shifted k t t') (foldCase : Bool) :
    d.Shifted k (d.arrayContains s t foldCase) (d.arrayContains s' t' foldCase) := by
  cases d <;> cases foldCase
  case postgres.false => exact (hs.between _ ht).before _
  all_goals exact ((hs.after _).between _ ht).before _

/-- The test for a common element keeps the shift of both sides. -/
theorem Shifted.overlaps (hs : d.Shifted k s s') (ht : d.Shifted k t t') :
    d.Shifted k (d.overlaps s t) (d.overlaps s' t') := by
  cases d <;> exact ((hs.after _).between _ ht).before _

/-- The test with a pattern keeps the shift of both sides. -/
theorem Shifted.like (hs : d.Shifted k s s') (ht : d.Shifted k t t') (negated : Bool) :
    d.Shifted k (d.like s t negated) (d.like s' t' negated) :=
  (hs.between _ ht).before _

end Dialect

/-- Parentheses around a condition keep the shift. -/
theorem Condition.shifted_enclosed (c : Condition) {s s' : String} (h : d.Shifted k s s') :
    d.Shifted k (c.enclosed s) (c.enclosed s') := by
  unfold Condition.enclosed
  split
  · exact h
  · exact h.wrap _ _

namespace Select

/-- The items of a statement keep the shift of their texts. -/
theorem shifted_itemsText {ss ss' : List String} (h : d.ShiftedAll k ss ss') :
    d.Shifted k (itemsText ss) (itemsText ss') := by
  unfold itemsText
  rw [h.isEmpty]
  split
  · exact .text _
  · exact h.join _

/-- A clause with a list keeps the shift of its texts. -/
theorem shifted_listText (keyword : String) {ss ss' : List String} (h : d.ShiftedAll k ss ss') :
    d.Shifted k (listText keyword ss) (listText keyword ss') := by
  unfold listText
  rw [h.isEmpty]
  split
  · exact .text _
  · exact (h.join _).after _

/-- A statement is put together from shifted clauses. -/
theorem shifted_assemble (s : Select) {items items' joins joins' : List String}
    {filter filter' : String} {groups groups' : List String} {having having' : String}
    {terms terms' : List String} (hitems : d.ShiftedAll k items items')
    (hjoins : d.ShiftedAll k joins joins') (hfilter : d.Shifted k filter filter')
    (hgroups : d.ShiftedAll k groups groups') (hhaving : d.Shifted k having having')
    (hterms : d.ShiftedAll k terms terms') :
    d.Shifted k (s.assemble d items joins filter groups having terms)
      (s.assemble d items' joins' filter' groups' having' terms') := by
  have hhead := ((shifted_itemsText hitems).after ("SELECT " ++ hintText d s.timeout)).before
    (sourceText s.source)
  have hrows := (hhead.append hjoins.blanks).append hfilter
  have hgroup := (hrows.append (shifted_listText " GROUP BY " hgroups)).append hhaving
  have horder := hgroup.append (shifted_listText " ORDER BY " hterms)
  rw [assemble_eq, assemble_eq]
  exact (horder.before (countText " LIMIT " s.limit)).before (countText " OFFSET " s.offset)

end Select

/-! ## Steps of rendering -/

namespace Render

variable {α β γ δ : Type}

/-- Two steps of rendering, the second one behind `k` more values, give results that are related
and bind the same values, or fail with the same error. -/
def Shifts (k : Nat) (R : α → β → Prop) (x : Render α) (y : Render β) : Prop :=
  ∀ bound bound' : Array Value, bound'.size = bound.size + k →
    (∃ a b values, StateT.run x bound = .ok (a, bound ++ values) ∧
      StateT.run y bound' = .ok (b, bound' ++ values) ∧ R a b) ∨
    ∃ e, StateT.run x bound = .error e ∧ StateT.run y bound' = .error e

variable {R : α → β → Prop} {S : γ → δ → Prop} {x : Render α} {y : Render β}

/-- Results that are related are so behind more values. -/
theorem Shifts.pure {a : α} {b : β} (h : R a b) :
    Shifts k R (pure a : Render α) (pure b : Render β) :=
  fun bound bound' _ => .inl ⟨a, b, #[], by rw [Array.append_empty]; rfl,
    by rw [Array.append_empty]; rfl, h⟩

/-- An error is the same behind more values. -/
theorem Shifts.throw (e : RenderError) : Shifts k R (throw e : Render α) (throw e : Render β) :=
  fun _ _ _ => .inr ⟨e, rfl, rfl⟩

/-- A result that is known before rendering is the same behind more values. -/
theorem Shifts.lift (result : Except RenderError α) :
    Shifts k (· = ·) (liftM result : Render α) (liftM result : Render α) := by
  cases result with
  | error e => exact .throw e
  | ok a => exact .pure rfl

/-- Steps that are shifted, with steps behind them that are shifted for related results, are shifted
together. -/
theorem Shifts.bind {f : α → Render γ} {g : β → Render δ} (hx : Shifts k R x y)
    (hf : ∀ a b, R a b → Shifts k S (f a) (g b)) : Shifts k S (x >>= f) (y >>= g) := by
  intro bound bound' hsize
  rw [StateT.run_bind, StateT.run_bind]
  obtain ⟨a, b, values, hrun, hrun', hab⟩ | ⟨e, hrun, hrun'⟩ := hx bound bound' hsize
  · have hsize' : (bound' ++ values).size = (bound ++ values).size + k := by
      rw [Array.size_append, Array.size_append, hsize, Nat.add_right_comm]
    rw [hrun, hrun']
    obtain ⟨c, e, more, hrest, hrest', hce⟩ | hfail := hf a b hab _ _ hsize'
    · rw [Array.append_assoc] at hrest hrest'
      exact .inl ⟨c, e, values ++ more, hrest, hrest', hce⟩
    · exact .inr hfail
  · rw [hrun, hrun']
    exact .inr ⟨e, rfl, rfl⟩

/-- A function of the results that keeps the relation keeps the shift. -/
theorem Shifts.map {f : α → γ} {g : β → δ} (hx : Shifts k R x y)
    (hf : ∀ a b, R a b → S (f a) (g b)) :
    Shifts k S (do return f (← x)) (do return g (← y)) :=
  hx.bind fun a b hab => .pure (hf a b hab)

/-- Results that are related are so in every weaker way. -/
theorem Shifts.imp {R' : α → β → Prop} (hx : Shifts k R x y) (h : ∀ a b, R a b → R' a b) :
    Shifts k R' x y := by
  intro bound bound' hsize
  obtain ⟨a, b, values, hrun, hrun', hab⟩ | hfail := hx bound bound' hsize
  · exact .inl ⟨a, b, values, hrun, hrun', h a b hab⟩
  · exact .inr hfail

/-- A value that is bound behind more values has a placeholder with a higher number. -/
theorem shifts_bind (v : Value) : Shifts k (d.Shifted k) (Render.bind d v) (Render.bind d v) := by
  intro bound bound' hsize
  refine .inl ⟨_, _, #[v], rfl, rfl, ?_⟩
  rw [hsize, Nat.add_right_comm]
  exact .placeholder _

/-- A text that numbers its placeholders itself. -/
theorem shifts_bindAll {fragment fragment' : Nat → String × List Value}
    (htext : ∀ first, d.Shifted k (fragment first).1 (fragment' (first + k)).1)
    (hvalues : ∀ first, (fragment first).2 = (fragment' (first + k)).2) :
    Shifts k (d.Shifted k) (bindAll fragment) (bindAll fragment') := by
  intro bound bound' hsize
  have hfirst : bound'.size + 1 = bound.size + 1 + k := by omega
  refine .inl ⟨_, _, _, rfl, ?_, htext (bound.size + 1)⟩
  rw [hvalues, ← hfirst]
  rfl

end Render

/-! ## Trees -/

/-- The text of a path behind more values differs in its numbers. -/
theorem JsonPath.render_shifts (path : JsonPath) :
    Render.Shifts k (d.Shifted k) (path.render d) (path.render d) := by
  cases path with
  | fixed path => exact .pure (.text _)
  | bound text => exact Render.shifts_bind _

/-- A column binds nothing and shows no placeholder. -/
theorem Column.render_shifts (n : Namespaces) (c : Column) :
    Render.Shifts k (d.Shifted k) (liftM (c.render n) : Render String)
      (liftM (c.render n) : Render String) := by
  refine (Render.Shifts.lift (c.render n)).imp ?_
  rintro text _ rfl
  exact .text text

mutual

/-- The text of an expression behind more values differs in its numbers, and the values are the
same. -/
theorem Expr.render_shifts (k : Nat) (d : Dialect) (n : Namespaces) (expr : Expr) :
    Render.Shifts k (d.Shifted k) (expr.render d n) (expr.render d n) := by
  match expr with
  | .column column => exact column.render_shifts n
  | .param value => exact Render.shifts_bind value
  | .null => exact .pure (.text _)
  | .keyword text => exact .pure (.text _)
  | .lower expr => exact (expr.render_shifts k d n).map fun _ _ h => h.wrap _ _
  | .cast expr type =>
      exact (expr.render_shifts k d n).map fun _ _ h => ((h.wrap _ _).before type).before ")"
  | .jsonExtract target path =>
      exact (target.render_shifts k d n).bind fun _ _ htarget =>
        path.render_shifts.map fun _ _ hpath => htarget.jsonExtract hpath
  | .jsonUnquote expr => exact (expr.render_shifts k d n).map fun _ _ h => h.jsonUnquote
  | .jsonString column path =>
      refine (Render.Shifts.lift (column.render n)).map ?_
      rintro text _ rfl
      exact .text _
  | .countRows => exact .pure (.text _)
  | .count expr => exact (expr.render_shifts k d n).map fun _ _ h => h.wrap _ _
  | .sum expr => exact (expr.render_shifts k d n).map fun _ _ h => h.wrap _ _
  | .coalesce exprs =>
      exact (Expr.renderAll_shifts k d n exprs).map fun _ _ h => (h.join _).wrap _ _
  | .subquery query => exact (query.render_shifts k d n).map fun _ _ h => h.wrap _ _
  | .exists query => exact (query.render_shifts k d n).map fun _ _ h => h.wrap _ _
termination_by structural expr

/-- The texts of a list of expressions behind more values differ in their numbers. -/
theorem Expr.renderAll_shifts (k : Nat) (d : Dialect) (n : Namespaces) (exprs : List Expr) :
    Render.Shifts k (d.ShiftedAll k) (Expr.renderAll d n exprs) (Expr.renderAll d n exprs) := by
  match exprs with
  | [] => exact .pure .nil
  | expr :: rest =>
      exact (expr.render_shifts k d n).bind fun _ _ hfirst =>
        (Expr.renderAll_shifts k d n rest).map fun _ _ hrest => .cons hfirst hrest
termination_by structural exprs

/-- The text of a condition behind more values differs in its numbers, and the values are the same.
-/
theorem Condition.render_shifts (k : Nat) (d : Dialect) (n : Namespaces) (condition : Condition) :
    Render.Shifts k (d.Shifted k) (condition.render d n) (condition.render d n) := by
  match condition with
  | .compare left op right =>
      exact (left.render_shifts k d n).bind fun _ _ hleft =>
        (right.render_shifts k d n).map fun _ _ hright =>
          ((hleft.before _).before op.symbol).between _ hright
  | .nullSafeEq left right =>
      exact (left.render_shifts k d n).bind fun _ _ hleft =>
        (right.render_shifts k d n).map fun _ _ hright => hleft.nullSafeEq hright
  | .isNull expr negated => exact (expr.render_shifts k d n).map fun _ _ h => h.before _
  | .isJsonNull expr => exact (expr.render_shifts k d n).map fun _ _ h => h.jsonNullTest
  | .oneOf expr values negated =>
      rw [Condition.render]
      refine (expr.render_shifts k d n).bind fun field field' hfield => ?_
      split
      · exact .pure (.text _)
      · refine Render.shifts_bindAll (fun first => ?_) fun first => ?_
        · cases negated
          · exact hfield.isIn values first
          · exact hfield.isNotIn values first
        · cases d <;> cases negated <;> rfl
  | .like expr pattern negated =>
      exact (expr.render_shifts k d n).bind fun _ _ hexpr =>
        (Render.shifts_bind pattern).map fun _ _ hpattern => hexpr.like hpattern negated
  | .arrayContains column value foldCase =>
      exact (column.render_shifts k d n).bind fun _ _ hcolumn =>
        (Render.shifts_bind _).map fun _ _ hvalue => hcolumn.arrayContains hvalue foldCase
  | .overlaps column values =>
      exact (column.render_shifts k d n).bind fun _ _ hcolumn =>
        (Render.shifts_bind _).map fun _ _ hvalues => hcolumn.overlaps hvalues
  | .exists query negated => exact (query.render_shifts k d n).map fun _ _ h => h.wrap _ _
  | .requires join => exact .pure (.text _)
  | .joined join inner => exact inner.render_shifts k d n
  | .all conditions =>
      refine (Condition.renderConjuncts_shifts k d n conditions).map fun parts parts' h => ?_
      rw [h.isEmpty]
      split
      · exact .text _
      · exact h.join _
  | .any conditions =>
      refine (Condition.renderDisjuncts_shifts k d n conditions).map fun parts parts' h => ?_
      split
      · exact .text _
      · exact h.join _
  | .not condition => exact (condition.render_shifts k d n).map fun _ _ h => h.wrap _ _
termination_by structural condition

/-- The texts of a conjunction behind more values differ in their numbers. -/
theorem Condition.renderConjuncts_shifts (k : Nat) (d : Dialect) (n : Namespaces)
    (conditions : List Condition) :
    Render.Shifts k (d.ShiftedAll k) (Condition.renderConjuncts d n conditions)
      (Condition.renderConjuncts d n conditions) := by
  match conditions with
  | [] => exact .pure .nil
  | c :: rest =>
      have hrest := Condition.renderConjuncts_shifts k d n rest
      rw [Condition.renderConjuncts]
      split
      · exact hrest
      · exact (c.render_shifts k d n).bind fun _ _ hfirst =>
          hrest.map fun _ _ hmore => .cons (c.shifted_enclosed hfirst) hmore
termination_by structural conditions

/-- The texts of a disjunction behind more values differ in their numbers. -/
theorem Condition.renderDisjuncts_shifts (k : Nat) (d : Dialect) (n : Namespaces)
    (conditions : List Condition) :
    Render.Shifts k (d.ShiftedAll k) (Condition.renderDisjuncts d n conditions)
      (Condition.renderDisjuncts d n conditions) := by
  match conditions with
  | [] => exact .pure .nil
  | c :: rest =>
      exact (c.render_shifts k d n).bind fun _ _ hfirst =>
        (Condition.renderDisjuncts_shifts k d n rest).map fun _ _ hmore =>
          .cons (c.shifted_enclosed hfirst) hmore
termination_by structural conditions

/-- The joins that are found do not depend on the values bound before either. -/
theorem Condition.renderJoins_shifts (k : Nat) (d : Dialect) (n : Namespaces) (found : List Join)
    (condition : Condition) :
    Render.Shifts k (fun r r' => d.ShiftedAll k r.1 r'.1 ∧ r.2 = r'.2)
      (condition.renderJoins d n found) (condition.renderJoins d n found) := by
  match condition with
  | .requires join =>
      rw [Condition.renderJoins]
      split
      · exact .pure ⟨.nil, rfl⟩
      · exact (join.render_shifts k d n).map fun _ _ h => ⟨.cons h .nil, rfl⟩
  | .joined join inner =>
      rw [Condition.renderJoins]
      split
      · exact inner.renderJoins_shifts k d n found
      · refine (join.render_shifts k d n).bind fun _ _ hfirst => ?_
        exact (inner.renderJoins_shifts k d n (found ++ [join])).map fun _ _ h =>
          ⟨.cons hfirst h.1, h.2⟩
  | .all conditions => exact Condition.renderJoinsAll_shifts k d n found conditions
  | .any conditions => exact Condition.renderJoinsAll_shifts k d n found conditions
  | .not condition => exact condition.renderJoins_shifts k d n found
  | .compare .. | .nullSafeEq .. | .isNull .. | .isJsonNull .. | .oneOf .. | .like ..
  | .arrayContains .. | .overlaps .. | .exists .. => exact .pure ⟨.nil, rfl⟩
termination_by structural condition

/-- The joins of a list of conditions are found behind more values as well, and their texts differ
in their numbers. -/
theorem Condition.renderJoinsAll_shifts (k : Nat) (d : Dialect) (n : Namespaces)
    (found : List Join) (conditions : List Condition) :
    Render.Shifts k (fun r r' => d.ShiftedAll k r.1 r'.1 ∧ r.2 = r'.2)
      (Condition.renderJoinsAll d n found conditions)
      (Condition.renderJoinsAll d n found conditions) := by
  match conditions with
  | [] => exact .pure ⟨.nil, rfl⟩
  | c :: rest =>
      refine (c.renderJoins_shifts k d n found).bind ?_
      rintro ⟨texts, found⟩ ⟨texts', _⟩ ⟨hfirst, rfl⟩
      exact (Condition.renderJoinsAll_shifts k d n found rest).map fun _ _ h =>
        ⟨hfirst.append h.1, h.2⟩
termination_by structural conditions

/-- A `HAVING` clause behind more values differs in its numbers. -/
theorem Select.renderHaving_shifts (k : Nat) (d : Dialect) (n : Namespaces)
    (having : Option Condition) :
    Render.Shifts k (d.Shifted k) (Select.renderHaving d n having)
      (Select.renderHaving d n having) := by
  match having with
  | none => exact .pure (.text _)
  | some c => exact (c.render_shifts k d n).map fun _ _ h => h.after _
termination_by structural having

/-- The joins of a predicate behind more values differ in their numbers. -/
theorem Predicate.renderJoins_shifts (k : Nat) (d : Dialect) (n : Namespaces)
    (found : List Join) (p : Predicate) :
    Render.Shifts k (d.ShiftedAll k) (p.renderJoins d n found) (p.renderJoins d n found) := by
  match p with
  | .always => exact .pure .nil
  | .never => exact .pure .nil
  | .condition c => exact (c.renderJoins_shifts k d n found).map fun _ _ h => h.1
termination_by structural p

/-- A `WHERE` clause behind more values differs in its numbers. -/
theorem Predicate.renderWhere_shifts (k : Nat) (d : Dialect) (n : Namespaces) (p : Predicate) :
    Render.Shifts k (d.Shifted k) (p.renderWhere d n) (p.renderWhere d n) := by
  match p with
  | .always => exact .pure (.text _)
  | .never => exact .pure (.text _)
  | .condition c =>
      rw [Predicate.renderWhere]
      split
      · exact .pure (.text _)
      · exact (c.render_shifts k d n).map fun _ _ h => h.after _
termination_by structural p

/-- The text of a join behind more values differs in its numbers. -/
theorem Join.render_shifts (k : Nat) (d : Dialect) (n : Namespaces) (join : Join) :
    Render.Shifts k (d.Shifted k) (join.render d n) (join.render d n) := by
  match join with
  | ⟨kind, table, on⟩ => exact (on.render_shifts k d _).map fun _ _ h => h.after _
termination_by structural join

/-- The texts of a list of joins behind more values differ in their numbers. -/
theorem Join.renderAll_shifts (k : Nat) (d : Dialect) (n : Namespaces) (joins : List Join) :
    Render.Shifts k (d.ShiftedAll k) (Join.renderAll d n joins) (Join.renderAll d n joins) := by
  match joins with
  | [] => exact .pure .nil
  | join :: rest =>
      exact (join.render_shifts k d n).bind fun _ _ hfirst =>
        (Join.renderAll_shifts k d n rest).map fun _ _ hrest => .cons hfirst hrest
termination_by structural joins

/-- The texts of the items behind more values differ in their numbers. -/
theorem SelectItem.renderAll_shifts (k : Nat) (d : Dialect) (n : Namespaces)
    (items : List SelectItem) :
    Render.Shifts k (d.ShiftedAll k) (SelectItem.renderAll d n items)
      (SelectItem.renderAll d n items) := by
  match items with
  | [] => exact .pure .nil
  | ⟨expr, asName⟩ :: rest =>
      refine (expr.render_shifts k d n).bind fun _ _ hfirst => ?_
      refine (SelectItem.renderAll_shifts k d n rest).map fun _ _ hrest => .cons ?_ hrest
      cases asName with
      | none => exact hfirst
      | some name => exact (hfirst.before _).before _
termination_by structural items

/-- The texts of an order behind more values differ in their numbers. -/
theorem OrderTerm.renderAll_shifts (k : Nat) (d : Dialect) (n : Namespaces)
    (terms : List OrderTerm) :
    Render.Shifts k (d.ShiftedAll k) (OrderTerm.renderAll d n terms)
      (OrderTerm.renderAll d n terms) := by
  match terms with
  | [] => exact .pure .nil
  | ⟨expr, direction⟩ :: rest =>
      exact (expr.render_shifts k d n).bind fun _ _ hfirst =>
        (OrderTerm.renderAll_shifts k d n rest).map fun _ _ hrest =>
          .cons (((hfirst.before _).before _).before _) hrest
termination_by structural terms

/-- A statement is rendered behind other values as it is rendered alone, but for the numbers. -/
theorem Select.render_shifts (k : Nat) (d : Dialect) (n : Namespaces) (s : Select) :
    Render.Shifts k (d.Shifted k) (s.render d n) (s.render d n) := by
  match s with
  | ⟨items, source, joins, filter, groupBy, having, orderBy, limit, offset, timeout⟩ =>
      rw [Select.render_eq]
      split
      · exact .throw _
      refine (SelectItem.renderAll_shifts k d _ items).bind fun _ _ hitems => ?_
      refine (Join.renderAll_shifts k d _ joins).bind fun _ _ hexplicit => ?_
      refine (filter.renderJoins_shifts k d _ joins).bind fun _ _ hneeded => ?_
      refine (filter.renderWhere_shifts k d _).bind fun _ _ hfilter => ?_
      refine (Expr.renderAll_shifts k d _ groupBy).bind fun _ _ hgroups => ?_
      refine (Select.renderHaving_shifts k d _ having).bind fun _ _ hhaving => ?_
      refine (OrderTerm.renderAll_shifts k d _ orderBy).map fun _ _ hterms => ?_
      exact Select.shifted_assemble _ hitems (hexplicit.append hneeded) hfilter hgroups hhaving
        hterms
termination_by structural s

end

end FilterSql
