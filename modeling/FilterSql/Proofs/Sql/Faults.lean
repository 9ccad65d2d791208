import FilterSql.Proofs.Basic
import FilterSql.Proofs.Sql.Clauses
import FilterSql.Proofs.Sql.Conditions
import FilterSql.Proofs.Sql.Emission
import FilterSql.Proofs.Sql.Renumbering

/-!
# What keeps a statement from being rendered

Whether a tree can be rendered, and why not, does not depend on the values that are bound before it
(`Select.render_steady`). So a condition that can always be rendered may be put beside the filter of
a statement: the statement is then rendered, or fails with the same error, as it was without it
(`Select.render_restrictBy`).
-/

namespace FilterSql

variable {α β γ δ : Type} {d : Dialect} {n : Namespaces}

/-! ## Steps that fail together -/

namespace Render

/-- Two steps of rendering both give results, of which something holds, or both the same error,
whatever is bound before them. -/
def Together (R : α → β → Prop) (x : Render α) (y : Render β) : Prop :=
  ∀ bound bound' : Array Value,
    match StateT.run x bound, StateT.run y bound' with
    | .ok (a, _), .ok (b, _) => R a b
    | .error e, .error e' => e = e'
    | _, _ => False

/-- Two steps of rendering both succeed, or both fail with the same error. -/
abbrev FailsAs (x : Render α) (y : Render β) : Prop :=
  Together (fun _ _ => True) x y

variable {R : α → β → Prop} {S : γ → δ → Prop} {x : Render α} {y : Render β}

/-- Two steps go together exactly if they have the same outcome, with results of which it holds. -/
theorem together_iff :
    Together R x y ↔ ∀ bound bound',
      SameOutcome (fun r r' => R r.1 r'.1) (StateT.run x bound) (StateT.run y bound') := by
  refine forall₂_congr fun bound bound' => ?_
  cases StateT.run x bound <;> cases StateT.run y bound' <;> simp

/-- Two texts that are rendered without values go together if it holds of them. -/
theorem Together.pure {a : α} {b : β} (h : R a b) :
    Together R (pure a : Render α) (pure b : Render β) :=
  fun _ _ => h

/-- Two pairs of steps in turn go together if they do one by one. -/
theorem Together.bind {f : α → Render γ} {g : β → Render δ} (hx : Together R x y)
    (hf : ∀ a b, R a b → Together S (f a) (g b)) : Together S (x >>= f) (y >>= g) := by
  refine together_iff.2 fun bound bound' => ?_
  rw [StateT.run_bind, StateT.run_bind]
  exact (together_iff.1 hx bound bound').bind fun r r' hr =>
    together_iff.1 (hf r.1 r'.1 hr) r.2 r'.2

/-- Two steps that do nothing succeed. -/
theorem FailsAs.pure (a : α) (b : β) : FailsAs (pure a : Render α) (pure b : Render β) :=
  Together.pure trivial

/-- Two pairs of steps in turn fail alike if they do one by one. -/
theorem FailsAs.bind {f : α → Render γ} {g : β → Render δ} (hx : FailsAs x y)
    (hf : ∀ a b, FailsAs (f a) (g b)) : FailsAs (x >>= f) (y >>= g) :=
  Together.bind hx fun a b _ => hf a b

/-- What is made of two results does not change whether they fail. -/
theorem FailsAs.map (f : α → γ) (g : β → δ) (hx : FailsAs x y) :
    FailsAs (do return f (← x)) (do return g (← y)) :=
  hx.bind fun _ _ => .pure _ _

/-- The steps may change places. -/
theorem FailsAs.symm (h : FailsAs x y) : FailsAs y x :=
  together_iff.2 fun bound bound' => (together_iff.1 h bound' bound).symm

/-- Steps that fail as one step does fail as each other. -/
theorem FailsAs.trans {z : Render γ} (h : FailsAs x y) (h' : FailsAs y z) : FailsAs x z := by
  refine together_iff.2 fun bound bound' => ?_
  have hboth := (together_iff.1 h bound bound').trans (together_iff.1 h' bound' bound')
  exact hboth.imp fun _ _ _ => trivial

/-- Steps that cannot fail may follow. -/
theorem FailsAs.followed {f : α → Render γ} (h : FailsAs x y)
    (hf : ∀ a, FailsAs (f a) (Pure.pure () : Render Unit)) : FailsAs (x >>= f) y := by
  rw [← bind_pure y]
  exact h.bind fun a b => (hf a).trans (.pure _ _)

/-- A statement can be rendered if another one that fails alike can be. -/
theorem FailsAs.exists_run {x y : Render String} (h : FailsAs x y)
    (hx : ∃ s, Render.run x = .ok s) : ∃ s, Render.run y = .ok s := by
  obtain ⟨s, hs⟩ := hx
  have hrun := together_iff.1 h #[] #[]
  rw [Render.run] at hs ⊢
  cases hrun' : StateT.run y #[] with
  | ok r => exact ⟨_, rfl⟩
  | error e =>
      rw [hrun'] at hrun
      cases hx : StateT.run x #[] <;> simp [hx] at hs hrun

/-- A step that is the same behind other values fails whatever is bound before it. -/
theorem FailsAs.of_shifts {R : Nat → α → α → Prop} (hx : ∀ k, Shifts k (R k) x x) :
    FailsAs x x := by
  -- the difference of the two sizes is a shift in one direction or in the other one
  have hle : ∀ bound bound' : Array Value, bound.size ≤ bound'.size →
      SameOutcome (fun _ _ => True) (StateT.run x bound) (StateT.run x bound') := by
    intro bound bound' hsize
    obtain ⟨a, b, values, hrun, hrun', -⟩ | ⟨e, hrun, hrun'⟩ :=
      hx (bound'.size - bound.size) bound bound' (by omega)
    · rw [hrun, hrun']
      exact .ok trivial
    · rw [hrun, hrun']
      exact .error e
  refine together_iff.2 fun bound bound' => ?_
  rcases Nat.le_total bound.size bound'.size with hsize | hsize
  · exact hle bound bound' hsize
  · exact (hle bound' bound hsize).symm

end Render

/-! ## Trees fail whatever is bound before them -/

/-- Whether a condition can be rendered does not depend on the values before it. -/
theorem Condition.render_steady (d : Dialect) (n : Namespaces) (c : Condition) :
    Render.FailsAs (c.render d n) (c.render d n) :=
  .of_shifts fun k => c.render_shifts k d n

/-- Whether the parts of a conjunction can be rendered does not depend on the values before them. -/
theorem Condition.renderConjuncts_steady (d : Dialect) (n : Namespaces)
    (conditions : List Condition) :
    Render.FailsAs (Condition.renderConjuncts d n conditions)
      (Condition.renderConjuncts d n conditions) :=
  .of_shifts fun k => Condition.renderConjuncts_shifts k d n conditions

/-- Whether a statement can be rendered does not depend on the values bound before it. -/
theorem Select.render_steady (d : Dialect) (n : Namespaces) (s : Select) :
    Render.FailsAs (s.render d n) (s.render d n) :=
  .of_shifts fun k => s.render_shifts k d n

/-! ## A condition beside a filter -/

namespace Condition

/-- The parts of two lists are rendered one after the other. -/
theorem renderConjuncts_append (conditions more : List Condition) :
    renderConjuncts d n (conditions ++ more) = do
      let texts ← renderConjuncts d n conditions
      return texts ++ (← renderConjuncts d n more) := by
  induction conditions with
  | nil => simp [renderConjuncts]
  | cons c rest ih =>
      rw [List.cons_append, renderConjuncts, renderConjuncts]
      split
      · exact ih
      · simp [ih]

/-- Conditions that ask nothing have no texts. -/
theorem renderConjuncts_vacuous {conditions : List Condition}
    (h : allVacuous conditions = true) : renderConjuncts d n conditions = pure [] := by
  induction conditions with
  | nil => rfl
  | cons c rest ih =>
      rw [allVacuous, Bool.and_eq_true] at h
      rw [renderConjuncts, if_pos h.1, ih h.2]

/-- A filter is rendered if what it is flattened to is. -/
theorem renderWhere_conjuncts (c : Condition) :
    Render.FailsAs ((Predicate.condition c).renderWhere d n)
      (renderConjuncts d n c.conjuncts) := by
  have hsingle : Render.FailsAs ((Predicate.condition c).renderWhere d n)
      (renderConjuncts d n [c]) := by
    rw [Predicate.renderWhere, renderConjuncts]
    split
    · exact .pure _ _
    · exact (c.render_steady d n).map _ _
  -- all but a conjunction are flattened to themselves alone
  match c, hsingle with
  | .all conditions, _ =>
      rw [Predicate.renderWhere, conjuncts]
      split
      next hvacuous =>
        rw [isVacuous, Bool.and_eq_true] at hvacuous
        rw [renderConjuncts_vacuous hvacuous.2]
        exact .pure _ _
      next =>
        have hall : Render.FailsAs ((Condition.all conditions).render d n)
            (renderConjuncts d n conditions) :=
          (renderConjuncts_steady d n conditions).followed fun _ => .pure _ _
        exact hall.followed fun _ => .pure _ _
  | .compare .., h | .nullSafeEq .., h | .isNull .., h | .isJsonNull .., h | .oneOf .., h
  | .like .., h | .arrayContains .., h | .overlaps .., h | .exists .., h | .requires _, h
  | .joined .., h | .any _, h | .not _, h => exact h

/-- The joins that two lists name are those of the one and then those of the other. -/
theorem wantedAll_append (conditions more : List Condition) :
    wantedAll (conditions ++ more) = wantedAll conditions ++ wantedAll more := by
  induction conditions with
  | nil => rfl
  | cons c rest ih => rw [List.cons_append, wantedAll, wantedAll, ih, List.append_assoc]

/-- The conjuncts of a condition name its joins. -/
theorem wantedAll_conjuncts (c : Condition) : wantedAll c.conjuncts = c.wanted := by
  cases c <;> simp [conjuncts, wantedAll, wanted]

/-- A conjunction names the joins of both sides. -/
theorem wanted_and (a b : Condition) : (a.and b).wanted = a.wanted ++ b.wanted := by
  rw [and_eq_all, wanted, wantedAll_append, wantedAll_conjuncts, wantedAll_conjuncts]

end Condition

/-- A condition that can always be rendered is so beside a filter. -/
theorem Predicate.renderWhere_and {p : Predicate} {c : Condition} (hp : p ≠ .never)
    (hc : Render.FailsAs (c.render d n) (pure () : Render Unit)) :
    Render.FailsAs ((p.and (.condition c)).renderWhere d n) (p.renderWhere d n) := by
  have halone : Render.FailsAs ((Predicate.condition c).renderWhere d n)
      (pure () : Render Unit) := by
    rw [Predicate.renderWhere]
    split
    · exact .pure _ _
    · exact hc.followed fun _ => .pure _ _
  cases p with
  | always => exact halone.trans (.pure _ _)
  | never => exact absurd rfl hp
  | condition a =>
      have hconjuncts : Render.FailsAs ((Predicate.condition (a.and c)).renderWhere d n)
          (Condition.renderConjuncts d n (a.conjuncts ++ c.conjuncts)) := by
        rw [Condition.and_eq_all]
        exact Condition.renderWhere_conjuncts (.all (a.conjuncts ++ c.conjuncts))
      refine hconjuncts.trans ?_
      rw [Condition.renderConjuncts_append]
      -- what stands beside the filter is rendered behind it and cannot fail
      refine (Condition.renderWhere_conjuncts a).symm.followed fun _ => ?_
      exact ((Condition.renderWhere_conjuncts c).symm.trans halone).followed fun _ => .pure _ _

/-- A condition beside a predicate adds its joins, unless the predicate is settled against every
row. -/
theorem Predicate.wanted_and {p : Predicate} {c : Condition} (hp : p ≠ .never) :
    (p.and (.condition c)).wanted = p.wanted ++ c.wanted := by
  cases p with
  | always => rfl
  | never => exact absurd rfl hp
  | condition a => exact a.wanted_and c

/-- A condition that can always be rendered and needs no join keeps nothing from being rendered. -/
theorem Select.render_restrictBy {s : Select} {c : Condition} (hsource : s.source ≠ none)
    (hfilter : s.filter ≠ .never) (hwanted : c.wanted = [])
    (hc : ∀ n, Render.FailsAs (c.render d n) (pure () : Render Unit)) :
    Render.FailsAs ((s.restrictBy c).render d n) (s.render d n) := by
  have htable : s.source.isNone = false := by
    rw [Option.isNone_eq_false_iff, ← Option.ne_none_iff_isSome]
    exact hsource
  have hlacks : s.lacksTable = false := by rw [lacksTable, htable, Bool.false_and]
  have hlacks' : (s.restrictBy c).lacksTable = false := by
    rw [lacksTable, show (s.restrictBy c).source = s.source from rfl, htable, Bool.false_and]
  have hjoins : ∀ n, (s.restrictBy c).filter.renderJoins d n s.joins =
      s.filter.renderJoins d n s.joins := by
    intro n
    rw [Predicate.renderJoins_eq, Predicate.renderJoins_eq]
    show Join.renderAll d n (Join.fresh s.joins (s.filter.and (.condition c)).wanted) = _
    rw [Predicate.wanted_and hfilter, hwanted, List.append_nil]
  rw [render_eq, render_eq, hlacks, hlacks', if_neg Bool.false_ne_true, if_neg Bool.false_ne_true]
  refine Render.FailsAs.bind (.of_shifts fun k => SelectItem.renderAll_shifts k d _ s.items)
    fun _ _ => ?_
  refine Render.FailsAs.bind (.of_shifts fun k => Join.renderAll_shifts k d _ s.joins)
    fun _ _ => ?_
  refine Render.FailsAs.bind ?_ fun _ _ => ?_
  · rw [show (s.restrictBy c).joins = s.joins from rfl, hjoins]
    exact .of_shifts fun k => s.filter.renderJoins_shifts k d _ s.joins
  refine (Predicate.renderWhere_and hfilter (hc _)).bind fun _ _ => ?_
  refine Render.FailsAs.bind (.of_shifts fun k => Expr.renderAll_shifts k d _ s.groupBy)
    fun _ _ => ?_
  refine Render.FailsAs.bind (.of_shifts fun k => renderHaving_shifts k d _ s.having)
    fun _ _ => ?_
  exact (Render.FailsAs.of_shifts fun k => OrderTerm.renderAll_shifts k d _ s.orderBy).map _ _

end FilterSql
