import FilterSql.Proofs.Sql.Sight

/-!
# Subqueries and what is seen in them

A subquery sees its own tables and what is seen around it, and it does not see the joins that the
predicates put into it may add (`Sight.within`). `Sight.Admits` says that this is true of a
statement. Then the subquery does not tell rows apart that look the same (`Sight.Fits.exists`), and
with a predicate that restricts another one it finds rows only where it finds some with the other
(`Sight.Restricts.exists`).
-/

namespace FilterSql

variable {db : Database}

/-- To a member of the first list there is one of the second that it is related to. -/
theorem exists_of_mem_left {α β : Type} {R : α → β → Prop} {as : List α} {bs : List β} {a : α}
    (h : List.Forall₂ R as bs) (ha : a ∈ as) : ∃ b ∈ bs, R a b := by
  induction h with
  | nil => cases ha
  | @cons a' b _ _ hab _ ih =>
      rcases List.mem_cons.1 ha with rfl | ha
      · exact ⟨b, List.mem_cons_self, hab⟩
      · obtain ⟨b', hb', hab'⟩ := ih ha
        exact ⟨b', List.mem_cons_of_mem b hb', hab'⟩

/-! ## Groups -/

/-- Two groups have rows that are related in turn, and are represented by such rows if they are not
empty. -/
def RowGroup.Rel (R : Env → Env → Prop) (g g' : RowGroup) : Prop :=
  List.Forall₂ R g.rows g'.rows ∧ (g.rows = [] ∨ R g.env g'.env)

section Groups

variable {R : Env → Env → Prop} {same same' : Env → Env → Bool} {rows rows' : List Env}

/-- Groups of one row each are related as the rows are. -/
theorem RowGroup.rel_single {a b : Env} (h : R a b) : RowGroup.Rel R (.single a) (.single b) :=
  ⟨.cons h .nil, .inr h⟩

/-- Groups that are represented by their first rows are related if their rows are in turn. -/
theorem RowGroup.rel_headD {a b : Env} (h : List.Forall₂ R rows rows') :
    RowGroup.Rel R ⟨rows.headD a, rows⟩ ⟨rows'.headD b, rows'⟩ := by
  refine ⟨h, ?_⟩
  cases h with
  | nil => exact .inl rfl
  | cons hab _ => exact .inr hab

/-- A row is found in a group exactly if the related row is in the related one. -/
theorem rel_any {a b : Env} (hab : R a b)
    (hsame : ∀ a b c d, R a b → R c d → same a c = same' b d)
    (h : List.Forall₂ R rows rows') : rows.any (same a) = rows'.any (same' b) := by
  induction h with
  | nil => rfl
  | cons hcd _ ih => rw [List.any_cons, List.any_cons, ih, hsame _ _ _ _ hab hcd]

/-- Related rows are added to related groups. -/
theorem rel_addToGroups {a b : Env} {groups groups' : List (List Env)} (hab : R a b)
    (hsame : ∀ a b c d, R a b → R c d → same a c = same' b d)
    (h : List.Forall₂ (List.Forall₂ R) groups groups') :
    List.Forall₂ (List.Forall₂ R) (addToGroups same a groups) (addToGroups same' b groups') := by
  induction h with
  | nil => exact .cons (.cons hab .nil) .nil
  | cons hgroup hrest ih =>
      rw [addToGroups, addToGroups, rel_any hab hsame hgroup]
      split
      · exact .cons (List.rel_append hgroup (.cons hab .nil)) hrest
      · exact .cons hgroup ih

/-- Rows that are related are grouped in the same way. -/
theorem rel_makeGroups {grouped hasKeys : Bool} {a b : Env}
    (hsame : ∀ a b c d, R a b → R c d → same a c = same' b d) (h : List.Forall₂ R rows rows') :
    List.Forall₂ (RowGroup.Rel R) (makeGroups grouped hasKeys same a rows)
      (makeGroups grouped hasKeys same' b rows') := by
  unfold makeGroups
  split
  · have hgroups : List.Forall₂ (List.Forall₂ R)
        (rows.foldl (fun groups row => addToGroups same row groups) [])
        (rows'.foldl (fun groups row => addToGroups same' row groups) []) :=
      List.rel_foldl (fun _ _ hgroups _ _ hrow => rel_addToGroups hrow hsame hgroups) .nil h
    rw [List.forall₂_map_left_iff, List.forall₂_map_right_iff]
    exact hgroups.imp fun _ _ hgroup => RowGroup.rel_headD hgroup
  · exact .cons (RowGroup.rel_headD h) .nil
  · rw [List.forall₂_map_left_iff, List.forall₂_map_right_iff]
    exact h.imp fun _ _ hrow => RowGroup.rel_single hrow

/-- Rows that are related give groups that are related, and the same groups are kept. -/
theorem rel_groups {s : Select} {a b : Env}
    (hkeys : ∀ a b, R a b →
      Expr.evalAll db (.single a) s.groupBy = Expr.evalAll db (.single b) s.groupBy)
    (hhaving : ∀ g g' : RowGroup, g.Rel R g' →
      Condition.evalOption db g s.having = Condition.evalOption db g' s.having)
    (h : List.Forall₂ R (s.matched db a) (s.matched db b)) :
    List.Forall₂ (RowGroup.Rel R) (s.groups db a) (s.groups db b) := by
  refine List.rel_filter (fun g g' hg => ?_) (rel_makeGroups (fun a b c d hab hcd => ?_) h)
  · show decide (Condition.evalOption db g s.having = .holds) = true ↔
      decide (Condition.evalOption db g' s.having = .holds) = true
    rw [hhaving g g' hg]
  · rw [hkeys a b hab, hkeys c d hcd]

end Groups

/-- A row that is added is in a group. -/
theorem addToGroups_ne_nil (same : Env → Env → Bool) (row : Env) (groups : List (List Env)) :
    addToGroups same row groups ≠ [] := by
  cases groups with
  | nil => exact List.cons_ne_nil _ _
  | cons group rest =>
      rw [addToGroups]
      split <;> exact List.cons_ne_nil _ _

/-- There are no groups exactly where there are no rows, unless all rows make one group. -/
theorem makeGroups_eq_nil {grouped hasKeys : Bool} {same : Env → Env → Bool} {outside : Env}
    {rows : List Env} :
    makeGroups grouped hasKeys same outside rows = [] ↔
      rows = [] ∧ (grouped = true → hasKeys = true) := by
  unfold makeGroups
  split
  · rw [List.map_eq_nil_iff]
    simp only [implies_true, and_true]
    refine ⟨fun h => ?_, fun h => by rw [h, List.foldl_nil]⟩
    cases hrows : rows.reverse with
    | nil => exact List.reverse_eq_nil_iff.1 hrows
    | cons row before =>
        rw [List.reverse_eq_cons_iff.1 hrows, List.foldl_append] at h
        exact absurd h (addToGroups_ne_nil same row _)
  · simp
  · simp

/-- A statement asks whether there are any rows: it has no condition on groups and skips none. -/
structure Select.AsksAny (s : Select) : Prop where
  having : s.having = none
  offset : s.offset.getD 0 = 0

/-! ## The sight within a subquery -/

/-- The names of the tables of a statement. -/
def Select.shown (db : Database) (s : Select) : Set String :=
  {name | s.source.map Table.namespaceText = some name} ∪ Join.names (s.known db)

namespace Sight

variable {S : Sight} {base : Select} {joins : Set Join} {p q : Predicate} {a b : Env}

/-- What is seen of the rows of a statement's own table. -/
def atSource (S : Sight) (base : Select) : Sight where
  own := base.source.map Table.namespaceText
  hidden := some (S.hidden.getD ∅ \ {name | base.source.map Table.namespaceText = some name})
  joins := ∅

/-- What is seen within a statement to which some joins may be added. -/
def within (S : Sight) (db : Database) (base : Select) (joins : Set Join) : Sight where
  own := base.source.map Table.namespaceText
  hidden := some ((S.hidden.getD ∅ ∪ Join.name '' joins) \ base.shown db)
  joins := joins

/-- A statement can be asked for rows, with some joins added to it. It has a table, it sees the
tables that it has, and the joins are told apart by their names, which are not those of the tables
of the statement or that of the statement around it. -/
structure Admits (db : Database) (S : Sight) (base : Select) (joins : Set Join) : Prop where
  table : base.source.isSome
  grounds : (S.atSource base).Grounds db (base.known db)
  filter : (S.within db base joins).Sees fun row => base.filter.truth db row
  keys : ∀ key ∈ base.groupBy, (S.within db base joins).Sees fun row => key.value db row
  having : ∀ g g' : RowGroup, g.Rel (S.within db base joins).Agree g' →
    Condition.evalOption db g base.having = Condition.evalOption db g' base.having
  unique : ∀ join ∈ joins, ∀ other ∈ joins, join.name = other.name → join = other
  same : ∀ join ∈ joins, (join == join) = true
  apart : ∀ join ∈ joins, join.name ∈ base.shown db → (base.known db).contains join = true
  outside : ∀ join ∈ joins, S.own ≠ some join.name

/-- A predicate needs joins that may be added, and sees nothing else that is hidden. -/
structure Fits (db : Database) (S : Sight) (p : Predicate) : Prop where
  joins : ∀ join ∈ p.needs db, join ∈ S.joins
  grounds : S.Grounds db (p.needs db)
  sees : (S.past (p.needs db)).Sees fun row => p.truth db row

/-- A predicate holds only on rows on which another one holds, and needs its joins. -/
structure Restricts (db : Database) (S : Sight) (p q : Predicate) : Prop where
  never : q = .never → p = .never
  always : p = .always → q = .always
  joins : p ≠ .never → ∀ join ∈ q.needs db, join ∈ p.needs db
  holds : ∀ a b, (S.past (q.needs db)).Agree a b → p.truth db a = .holds → q.truth db b = .holds

/-- The rows of the own table look the same from rows that do. -/
theorem rel_start (htable : base.source.isSome) (h : S.Agree a b) :
    List.Forall₂ (S.atSource base).Agree (db.start a base.source) (db.start b base.source) := by
  obtain ⟨table, hsource⟩ := Option.isSome_iff_exists.1 htable
  have hshown : {name | base.source.map Table.namespaceText = some name} =
      {table.namespaceText} := by
    ext name
    simp [hsource, eq_comm]
  rw [hsource, Database.start, Database.start, List.forall₂_map_left_iff,
    List.forall₂_map_right_iff, List.forall₂_same]
  intro row _
  refine ⟨by rw [atSource, hsource]; rfl, ?_⟩
  simp only [atSource, hshown]
  exact (h.same _ subset_rfl).onRow table.namespaceText row

/-- What is seen within a statement is there once the statement's own joins are. -/
theorem agree_within (h : ((S.atSource base).past (base.known db)).Agree a b) :
    (S.within db base joins).Agree a b := by
  refine ⟨h.1, h.2.mono fun name hname => ?_⟩
  simp only [Set.mem_sdiff, Set.mem_ofPred_eq] at hname
  exact ⟨.inl hname.1.1, fun hshown => hshown.elim hname.1.2 hname.2⟩

/-- Rows that look the same around a statement have rows within it that look the same. -/
theorem Admits.rel_joinedRows (hbase : S.Admits db base joins) (h : S.Agree a b) :
    List.Forall₂ (S.within db base joins).Agree (base.joinedRows db a) (base.joinedRows db b) := by
  rw [Select.joinedRows_eq, Select.joinedRows_eq]
  exact (rel_follow hbase.grounds (rel_start hbase.table h)).imp fun _ _ => agree_within

/-- The joins of the statement are seen within it anyway. -/
theorem past_known {join : Join} (h : join ∈ base.known db) :
    (S.within db base joins).past [join] = S.within db base joins := by
  simp only [past, within, Option.map_some, mk.injEq, Option.some.injEq, true_and, and_true]
  rw [sdiff_eq_left]
  refine Set.disjoint_left.2 fun name hname hjoin => hname.2 (.inr ?_)
  obtain ⟨other, hother, rfl⟩ := hjoin
  exact ⟨join, h, by rw [List.mem_singleton.1 hother]⟩

/-- The joins that are added for a predicate do not hide what is seen. -/
theorem Fits.fresh (hp : (S.within db base joins).Fits db p) :
    (S.within db base joins).Grounds db (Join.fresh (base.known db) (p.needs db)) ∧
      (S.within db base joins).past (Join.fresh (base.known db) (p.needs db)) =
        (S.within db base joins).past (p.needs db) :=
  ⟨hp.grounds.fresh fun _ => past_known, past_fresh (fun _ => past_known) _⟩

/-! ## Which rows a subquery finds -/

/-- With a predicate that settles its filter the statement matches nothing. -/
theorem matched_of_never {env : Env} (h : base.filter.and p = .never) :
    (base.restrict p).matched db env = [] :=
  Select.matched_eq_nil h env

/-- A row has to meet both the filter and the predicate. -/
theorem truth_and_holds {row : Env} :
    (base.filter.and p).truth db row = .holds ↔
      base.filter.truth db row = .holds ∧ p.truth db row = .holds := by
  rw [Predicate.truth_and, Truth.and_eq_holds]

/-- The matched rows look the same from rows that do. -/
theorem rel_matched (hbase : S.Admits db base joins) (hp : (S.within db base joins).Fits db p)
    (h : S.Agree a b) :
    List.Forall₂ ((S.within db base joins).past (p.needs db)).Agree
      ((base.restrict p).matched db a) ((base.restrict p).matched db b) := by
  by_cases hnever : base.filter.and p = .never
  · rw [matched_of_never hnever, matched_of_never hnever]
    exact .nil
  · obtain ⟨hgrounds, hpast⟩ := hp.fresh
    have hrows := rel_follow hgrounds (hbase.rel_joinedRows h)
    rw [hpast, ← Select.joinedRows_restrict hnever, ← Select.joinedRows_restrict hnever] at hrows
    refine List.rel_filter (fun row row' hrow => ?_) hrows
    have hfilter : base.filter.truth db row = base.filter.truth db row' :=
      hbase.filter row row' hrow.of_past
    have hsees : p.truth db row = p.truth db row' := hp.sees row row' hrow
    show decide ((base.filter.and p).truth db row = .holds) = true ↔
      decide ((base.filter.and p).truth db row' = .holds) = true
    rw [decide_eq_true_iff, decide_eq_true_iff, truth_and_holds, truth_and_holds, hfilter, hsees]

/-- The values of keys that are seen are seen. -/
theorem sees_evalAll {keys : List Expr} (h : ∀ key ∈ keys, S.Sees fun row => key.value db row) :
    S.Sees fun row => Expr.evalAll db (.single row) keys := by
  intro a b hab
  induction keys with
  | nil => rfl
  | cons key rest ih =>
      obtain ⟨hkey, hrest⟩ := List.forall_mem_cons.1 h
      have hvalue : key.value db a = key.value db b := hkey a b hab
      exact congrArg₂ List.cons hvalue (ih hrest)

/-- The values of items that are seen are seen. -/
theorem sees_items {items : List SelectItem}
    (h : ∀ item ∈ items, S.Sees fun row => item.expr.value db row) :
    S.Sees fun row => SelectItem.evalAll db (.single row) items := by
  intro a b hab
  induction items with
  | nil => rfl
  | cons item rest ih =>
      obtain ⟨expr, asName⟩ := item
      obtain ⟨hitem, hrest⟩ := List.forall_mem_cons.1 h
      have hvalue : expr.value db a = expr.value db b := hitem a b hab
      exact congrArg₂ List.cons hvalue (ih hrest)

/-- Rows that look the same are the same to a subquery. -/
theorem Fits.exists (hbase : S.Admits db base joins) (hp : (S.within db base joins).Fits db p) :
    S.Sees fun row => ((base.restrict p).eval db row).isEmpty := by
  intro a b hab
  have hkept : List.Forall₂ (RowGroup.Rel ((S.within db base joins).past (p.needs db)).Agree)
      ((base.restrict p).groups db a) ((base.restrict p).groups db b) :=
    rel_groups (fun a b hab => sees_evalAll hbase.keys a b hab.of_past)
      (fun g g' hg => hbase.having g g'
        ⟨hg.1.imp fun _ _ => Agree.of_past, hg.2.imp_right Agree.of_past⟩)
      (rel_matched hbase hp hab)
  show ((base.restrict p).eval db a).isEmpty = ((base.restrict p).eval db b).isEmpty
  rw [Select.eval_isEmpty, Select.eval_isEmpty, hkept.length_eq]

/-- A statement that asks for any rows gives none where its limit is zero, or where it matches none
and does not sum up without groups. -/
theorem isEmpty_of_asksAny {s : Select} (h : s.AsksAny) (env : Env) :
    (s.eval db env).isEmpty = true ↔
      s.limit = some 0 ∨ s.matched db env = [] ∧
        (s.items.any (·.expr.aggregates) = true → s.groupBy ≠ []) := by
  have hgroups : s.groups db env = makeGroups (s.items.any (·.expr.aggregates))
      (!s.groupBy.isEmpty) (fun a b => db.sameValues (Expr.evalAll db (.single a) s.groupBy)
        (Expr.evalAll db (.single b) s.groupBy)) env.inside (s.matched db env) := by
    rw [Select.groups, h.having]
    exact List.filter_eq_self.2 fun _ _ => rfl
  rw [Select.eval_isEmpty, decide_eq_true_iff, h.offset, Nat.le_zero, List.length_eq_zero_iff,
    hgroups, makeGroups_eq_nil]
  simp

/-- The joins that are added behind those of the statement are hidden from it. -/
theorem Admits.conceals {found needed : List Join} {row : Env} (hbase : S.Admits db base joins)
    (hfound : base.known db ⊆ found) (hneeded : ∀ join ∈ needed, join ∈ joins)
    (hown : row.own = base.source.map Table.namespaceText) (henclosing : row.enclosing = S.own) :
    (S.within db base joins).Conceals row (Join.fresh found needed) := by
  have hjoins : ∀ join ∈ Join.fresh found needed, join ∈ joins ∧ join.name ∉ base.shown db := by
    intro join hjoin
    refine ⟨hneeded join (Join.mem_of_mem_fresh hjoin), fun hshown => ?_⟩
    obtain ⟨other, hother, hsame⟩ := Join.exists_of_contains
      (hbase.apart join (hneeded join (Join.mem_of_mem_fresh hjoin)) hshown)
    rw [Join.not_contains_of_mem_fresh hjoin other (hfound hother)] at hsame
    cases hsame
  refine ⟨⟨_, rfl, fun join hjoin => ?_⟩, ?_, fun join hjoin hname => ?_, fun join hjoin => ?_⟩
  · obtain ⟨hadded, hshown⟩ := hjoins join hjoin
    exact ⟨.inr ⟨join, hadded, rfl⟩, hshown⟩
  · -- joins of one name are one join, which is equal to itself
    refine (Join.pairwise_fresh found needed).imp_of_mem ?_
    intro join later hjoin hlater hdiffer hname
    have heq := hbase.unique join (hjoins join hjoin).1 later (hjoins later hlater).1 hname
    rw [heq, hbase.same later (hjoins later hlater).1] at hdiffer
    cases hdiffer
  · exact (hjoins join hjoin).2 (.inl (hown.symm.trans hname))
  · rw [henclosing]
    exact hbase.outside join (hjoins join hjoin).1

/-- Where a statement matches a row with a predicate, it matches one with each predicate that this
one restricts. -/
theorem Restricts.exists_matched (hbase : S.Admits db base joins)
    (hp : (S.within db base joins).Fits db p) (hq : (S.within db base joins).Fits db q)
    (h : (S.within db base joins).Restricts db p q) (hab : S.Agree a b) {row : Env}
    (hrow : row ∈ (base.restrict p).matched db a) :
    ∃ row', row' ∈ (base.restrict q).matched db b := by
  obtain ⟨hrow, hholds⟩ := List.mem_filter.1 hrow
  have hholds : (base.filter.and p).truth db row = .holds := of_decide_eq_true hholds
  have hnever : base.filter.and p ≠ .never := by
    intro hnever
    rw [hnever] at hholds
    cases hholds
  obtain ⟨hfilter, hnever⟩ := not_or.1 (mt Predicate.and_eq_never.2 hnever)
  have hneverp : base.filter.and p ≠ .never :=
    fun hand => (Predicate.and_eq_never.1 hand).elim hfilter hnever
  have hneverq : base.filter.and q ≠ .never :=
    fun hand => (Predicate.and_eq_never.1 hand).elim hfilter (hnever ∘ h.never)
  rw [truth_and_holds] at hholds
  -- the row before the joins of the predicate, on both sides
  rw [Select.joinedRows_restrict hneverp, Join.mem_follow] at hrow
  obtain ⟨before, hbefore, hrow⟩ := hrow
  obtain ⟨before', hbefore', hagree⟩ := exists_of_mem_left (hbase.rel_joinedRows hab) hbefore
  obtain ⟨hown, henclosing⟩ := Select.own_of_mem_joinedRows hbefore
  have hconceals := hbase.conceals (List.Subset.refl _) hp.joins hown (henclosing.trans hab.1)
  obtain ⟨hgrounds, hpast⟩ := hq.fresh
  obtain ⟨hkept, hpicks⟩ := exists_pick hown hconceals hp.fresh.1 hrow
  have hfewer : ∀ join ∈ Join.fresh (base.known db) (q.needs db),
      join ∈ Join.fresh (base.known db) (p.needs db) := by
    intro join hjoin
    have hneeded := h.joins hnever join (Join.mem_of_mem_fresh hjoin)
    obtain ⟨kept, hkept, hname⟩ :=
      Join.exists_mem_fresh hneeded (Join.not_contains_of_mem_fresh hjoin)
    rwa [hbase.unique join (hp.joins join hneeded) kept
      (hp.joins kept (Join.mem_of_mem_fresh hkept)) hname]
  obtain ⟨row', hrow', hagree⟩ := exists_follow rfl hgrounds (hkept.symm.trans hagree)
    fun join hjoin => hpicks join (hfewer join hjoin)
  rw [hpast] at hagree
  have hsame : base.filter.truth db row = base.filter.truth db row' :=
    hbase.filter row row' hagree.of_past
  refine ⟨row', List.mem_filter.2 ⟨?_, decide_eq_true ?_⟩⟩
  · rw [Select.joinedRows_restrict hneverq, Join.mem_follow]
    exact ⟨before', hbefore', hrow'⟩
  · exact truth_and_holds.2 ⟨hsame ▸ hholds.1, h.holds row row' hagree hholds.2⟩

/-- Where a statement that asks for any rows matches one whenever it matches one with another
predicate, it finds rows whenever it finds some with that predicate. -/
theorem some_of_matched (hany : base.AsksAny)
    (h : ∀ row ∈ (base.restrict p).matched db a, ∃ row', row' ∈ (base.restrict q).matched db b)
    (hrows : ((base.restrict p).eval db a).isEmpty = false) :
    ((base.restrict q).eval db b).isEmpty = false := by
  have hanyp : (base.restrict p).AsksAny := ⟨hany.having, hany.offset⟩
  have hanyq : (base.restrict q).AsksAny := ⟨hany.having, hany.offset⟩
  rw [← Bool.not_eq_true, isEmpty_of_asksAny hanyp] at hrows
  rw [← Bool.not_eq_true, isEmpty_of_asksAny hanyq]
  refine fun hnone => hrows (hnone.imp_right fun ⟨hmatched, hgrouped⟩ => ⟨?_, hgrouped⟩)
  refine List.eq_nil_iff_forall_not_mem.2 fun row hrow => ?_
  obtain ⟨row', hrow'⟩ := h row hrow
  rw [hmatched] at hrow'
  cases hrow'

/-- Where a statement that asks for any rows finds some with a predicate, it finds some with each
predicate that this one restricts. -/
theorem Restricts.exists (hbase : S.Admits db base joins) (hany : base.AsksAny)
    (hp : (S.within db base joins).Fits db p) (hq : (S.within db base joins).Fits db q)
    (h : (S.within db base joins).Restricts db p q) (hab : S.Agree a b)
    (hrows : ((base.restrict p).eval db a).isEmpty = false) :
    ((base.restrict q).eval db b).isEmpty = false :=
  some_of_matched hany (fun _ hrow => h.exists_matched hbase hp hq hab hrow) hrows

/-! ## Subqueries without joins -/

/-- What is seen within a statement to which no joins are added: its rows as they are. -/
def inside (base : Select) : Sight where
  own := base.source.map Table.namespaceText
  hidden := none
  joins := ∅

/-- A predicate that fits within a statement without added joins needs none. -/
theorem Fits.joinless (hp : (inside base).Fits db p) : p.joinSteps db = [] :=
  List.map_eq_nil_iff.1 (List.eq_nil_iff_forall_not_mem.2 hp.joins)

/-- Without joins a statement has the same rows for all predicates. -/
theorem Restricts.exists_inside (hany : base.AsksAny) (hp : (inside base).Fits db p)
    (hq : (inside base).Fits db q) (h : (inside base).Restricts db p q)
    (hrows : ((base.restrict p).eval db a).isEmpty = false) :
    ((base.restrict q).eval db a).isEmpty = false := by
  refine some_of_matched hany (fun row hrow => ⟨row, ?_⟩) hrows
  rw [Select.matched_restrict hp.joinless, List.mem_filter] at hrow
  rw [Select.matched_restrict hq.joinless, List.mem_filter]
  obtain ⟨hmatched, hholds⟩ := hrow
  obtain ⟨hown, -⟩ := Select.own_of_mem_joinedRows (List.mem_filter.1 hmatched).1
  exact ⟨hmatched, decide_eq_true (h.holds row row ⟨hown, rfl⟩ (of_decide_eq_true hholds))⟩

end Sight

end FilterSql
