import FilterSql.Proofs.Sql.Joins
import Mathlib.Data.List.Forall2
import Mathlib.Data.Set.Basic

/-!
# What is seen of a row

The rows within a subquery carry the rows of the joins that its predicate needs, and another
predicate on the same subquery may need other joins. A `Sight` says which tables may be there for a
part of a statement or not, and `Sight.Sees` that the part does not look at them. Rows that agree in
a sight stay so through joins (`Sight.rel_follow`), and of a row with many joins there is one with
fewer that agrees with it (`Sight.exists_follow`). So a predicate that asks more of the related rows
finds some only where one that asks less does (`Sight.Restricts.exists`).
-/

namespace FilterSql

variable {db : Database}

/-- Two rows have the same tables, but for those of some names. The table of the statement and that
of the enclosing one are the same under all names. -/
structure Env.SameBut (hidden : Set String) (a b : Env) : Prop where
  own : a.own = b.own
  enclosing : a.enclosing = b.enclosing
  tables : ∀ name, (name ∉ hidden ∨ a.own = some name ∨ a.enclosing = some name) →
    a.tables.find? (·.1 = name) = b.tables.find? (·.1 = name)

namespace Env.SameBut

variable {hidden : Set String} {a b c : Env}

/-- A row is the same as itself. -/
theorem refl (hidden : Set String) (a : Env) : a.SameBut hidden a :=
  ⟨rfl, rfl, fun _ _ => rfl⟩

/-- The rows may change places. -/
theorem symm (h : a.SameBut hidden b) : b.SameBut hidden a :=
  ⟨h.own.symm, h.enclosing.symm,
    fun name hname => (h.tables name (by rwa [h.own, h.enclosing])).symm⟩

/-- Rows that are the same as one row are the same as each other. -/
theorem trans (h : a.SameBut hidden b) (h' : b.SameBut hidden c) : a.SameBut hidden c :=
  ⟨h.own.trans h'.own, h.enclosing.trans h'.enclosing, fun name hname =>
    (h.tables name hname).trans (h'.tables name (by rwa [← h.own, ← h.enclosing]))⟩

/-- With more names set aside, rows stay the same. -/
theorem mono {fewer : Set String} (h : a.SameBut fewer b) (hsubset : fewer ⊆ hidden) :
    a.SameBut hidden b :=
  ⟨h.own, h.enclosing, fun name hname =>
    h.tables name (hname.imp_left fun hnot hmem => hnot (hsubset hmem))⟩

/-- One more table on both sides is seen. -/
theorem joined (h : a.SameBut hidden b) (table : String) (added : TableRow) :
    (a.joined table added).SameBut (hidden \ {table}) (b.joined table added) := by
  refine ⟨h.own, h.enclosing, fun name hname => ?_⟩
  simp only [Env.joined, List.find?_cons]
  by_cases htable : table = name
  · simp only [htable, decide_true]
  · simp only [htable, decide_false]
    refine h.tables name (hname.imp_left fun hnot hmem => hnot ⟨hmem, ?_⟩)
    exact fun hname => htable hname.symm

/-- One more table on one side is not seen if its name is hidden. -/
theorem joined_right {table : String} (htable : table ∈ hidden) (hown : a.own ≠ some table)
    (henclosing : a.enclosing ≠ some table) (added : TableRow) :
    a.SameBut hidden (a.joined table added) := by
  refine ⟨rfl, rfl, fun name hname => ?_⟩
  have hne : table ≠ name := by
    rintro rfl
    rcases hname with hname | hname | hname
    · exact hname htable
    · exact hown hname
    · exact henclosing hname
  simp only [Env.joined, List.find?_cons, hne, decide_false]

/-- A table that is there on one side is seen once it is put on the other. -/
theorem joined_of_find {table : String} {added : TableRow} (h : a.SameBut hidden b)
    (hfind : a.tables.find? (·.1 = table) = some (table, added)) :
    a.SameBut (hidden \ {table}) (b.joined table added) := by
  refine ⟨h.own, h.enclosing, fun name hname => ?_⟩
  simp only [Env.joined, List.find?_cons]
  by_cases htable : table = name
  · simp only [← htable, hfind, decide_true]
  · simp only [htable, decide_false]
    refine h.tables name (hname.imp_left fun hnot hmem => hnot ⟨hmem, ?_⟩)
    exact fun hname => htable hname.symm

/-- A table added to both rows is the same in both. -/
theorem onRow (h : a.SameBut hidden b) (table : String) (row : TableRow) :
    (a.onRow table row).SameBut (hidden \ {table}) (b.onRow table row) := by
  refine ⟨rfl, h.own, fun name hname => ?_⟩
  simp only [Env.onRow, Option.some.injEq] at hname ⊢
  simp only [List.find?_cons]
  by_cases htable : table = name
  · simp only [htable, decide_true]
  · simp only [htable, decide_false]
    refine h.tables name ?_
    rcases hname with hname | hname | hname
    · refine Or.inl fun hmem => hname ⟨hmem, ?_⟩
      exact fun hname => htable hname.symm
    · exact absurd hname htable
    · exact Or.inr (Or.inl hname)

end Env.SameBut

/-! ## Sights -/

/-- What a part of a statement can tell of the rows that it is evaluated on. -/
structure Sight where
  /-- The name of the own table. -/
  own : Option String
  /-- The names of the tables that may be there or not; there are none where rows are seen as they
  are. -/
  hidden : Option (Set String)
  /-- The joins that may be added to the rows. -/
  joins : Set Join

/-- The names of some joins. -/
def Join.names (joins : List Join) : Set String :=
  {name | ∃ join ∈ joins, join.name = name}

/-- One join has one name. -/
theorem Join.names_singleton (join : Join) : Join.names [join] = {join.name} := by
  ext name
  simp [Join.names, eq_comm]

namespace Sight

/-- Two rows look the same. -/
def Agree (S : Sight) (a b : Env) : Prop :=
  a.own = S.own ∧
    match S.hidden with
    | none => a = b
    | some hidden => a.SameBut hidden b

/-- The sight of a row as it is. -/
def whole (own : Option String) : Sight :=
  ⟨own, none, Set.univ⟩

/-- What is computed of a row is the same for rows that look the same. -/
def Sees {α : Type} (S : Sight) (f : Env → α) : Prop :=
  ∀ a b, S.Agree a b → f a = f b

/-- The sight behind some joins. -/
def past (S : Sight) (joins : List Join) : Sight :=
  { S with hidden := S.hidden.map (· \ Join.names joins) }

/-- Each of some joins adds rows by what is seen before it. -/
def Grounds (db : Database) (S : Sight) : List Join → Prop
  | [] => True
  | join :: rest => S.Sees (join.picks db) ∧ Grounds db (S.past [join]) rest

variable {S T : Sight} {a b c : Env}

/-- What it is to look the same where tables are hidden. -/
theorem agree_some {hidden : Set String} (hS : S.hidden = some hidden) :
    S.Agree a b ↔ a.own = S.own ∧ a.SameBut hidden b := by
  rw [Agree, hS]

/-- Rows that look the same are the same but for what is hidden. -/
theorem Agree.same (h : S.Agree a b) (hidden : Set String) (hS : S.hidden.getD ∅ ⊆ hidden) :
    a.SameBut hidden b := by
  obtain ⟨-, h⟩ := h
  cases hhidden : S.hidden with
  | none =>
      rw [hhidden] at h
      rw [h]
      exact .refl hidden b
  | some fewer =>
      rw [hhidden] at h hS
      exact h.mono hS

/-- Rows that look the same as one row look the same as each other. -/
theorem Agree.trans (h : S.Agree a b) (h' : S.Agree b c) : S.Agree a c := by
  obtain ⟨hown, h⟩ := h
  obtain ⟨-, h'⟩ := h'
  refine ⟨hown, ?_⟩
  split
  next hS =>
    rw [hS] at h h'
    exact Eq.trans h h'
  next hidden hS =>
    rw [hS] at h h'
    exact Env.SameBut.trans h h'

/-- Rows that look the same may change places. -/
theorem Agree.symm (h : S.Agree a b) : S.Agree b a := by
  obtain ⟨hown, h⟩ := h
  unfold Agree
  split
  next hS =>
    rw [hS] at h
    exact ⟨h ▸ hown, Eq.symm h⟩
  next hidden hS =>
    rw [hS] at h
    exact ⟨h.own ▸ hown, Env.SameBut.symm h⟩

/-! ## Behind joins -/

/-- Without joins the sight stays as it is. -/
theorem past_nil (S : Sight) : S.past [] = S := by
  obtain ⟨own, hidden, joins⟩ := S
  cases hidden <;> simp [past, Join.names]

/-- The sight behind two lists of joins, one after the other. -/
theorem past_past (S : Sight) (joins more : List Join) :
    (S.past joins).past more = S.past (joins ++ more) := by
  obtain ⟨own, hidden, admitted⟩ := S
  cases hidden with
  | none => rfl
  | some hidden =>
      simp only [past, Option.map_some, mk.injEq, Option.some.injEq, true_and, and_true]
      ext name
      simp only [Join.names, Set.mem_sdiff, Set.mem_ofPred_eq, List.mem_append, or_and_right,
        exists_or, not_or, and_assoc]

/-- The sight behind joins is that behind the first and then behind the rest. -/
theorem past_cons (S : Sight) (join : Join) (rest : List Join) :
    S.past (join :: rest) = (S.past [join]).past rest :=
  (S.past_past [join] rest).symm

/-- It does not matter which joins come first. -/
theorem past_comm (S : Sight) (joins more : List Join) :
    (S.past joins).past more = (S.past more).past joins := by
  rw [past_past, past_past]
  have hnames : Join.names (joins ++ more) = Join.names (more ++ joins) := by
    ext name
    simp only [Join.names, Set.mem_ofPred_eq, List.mem_append, or_comm]
  rw [past, past, hnames]

/-- A join whose name is seen already changes nothing. -/
theorem past_of_name_eq {join other : Join} (h : join.name = other.name)
    (hother : S.past [other] = S) : S.past [join] = S := by
  have hnames : Join.names [join] = Join.names [other] := by
    simp only [Join.names, List.mem_singleton, exists_eq_left, h]
  rw [past, hnames]
  exact hother

/-- A join among those before changes nothing. -/
theorem past_of_mem {before : List Join} {join : Join} (h : join ∈ before) :
    (S.past before).past [join] = S.past before := by
  have hnames : Join.names (before ++ [join]) = Join.names before := by
    ext name
    simp only [Join.names, List.mem_append, List.mem_singleton, Set.mem_ofPred_eq]
    refine ⟨?_, fun ⟨other, hother, hname⟩ => ⟨other, .inl hother, hname⟩⟩
    rintro ⟨other, hother | rfl, hname⟩
    · exact ⟨other, hother, hname⟩
    · exact ⟨other, h, hname⟩
  rw [past_past, past, past, hnames]

/-- A join that is passed twice shows no more than one that is passed once. -/
theorem past_self (S : Sight) (join : Join) : (S.past [join]).past [join] = S.past [join] :=
  past_of_mem (List.mem_singleton_self join)

/-- Rows that look the same behind joins look the same before them. -/
theorem Agree.of_past {joins : List Join} (h : (S.past joins).Agree a b) : S.Agree a b := by
  obtain ⟨own, hidden, admitted⟩ := S
  cases hidden with
  | none => exact h
  | some hidden => exact ⟨h.1, Env.SameBut.mono h.2 Set.sdiff_subset⟩

/-- What is seen is still seen behind joins. -/
theorem Sees.past {α : Type} {f : Env → α} (h : S.Sees f) (joins : List Join) :
    (S.past joins).Sees f :=
  fun a b hab => h a b hab.of_past

/-- Joins that add rows by what is seen do so behind other joins too. -/
theorem Grounds.past {joins : List Join} (h : S.Grounds db joins) (before : List Join) :
    (S.past before).Grounds db joins := by
  induction joins generalizing S with
  | nil => trivial
  | cons join rest ih =>
      refine ⟨h.1.past before, ?_⟩
      rw [past_comm]
      exact ih h.2

/-- Joins and then others add rows by what is seen, if each list does. -/
theorem Grounds.append {joins more : List Join} (h : S.Grounds db joins)
    (hmore : S.Grounds db more) : S.Grounds db (joins ++ more) := by
  induction joins generalizing S with
  | nil => exact hmore
  | cons join rest ih => exact ⟨h.1, ih h.2 (hmore.past [join])⟩

/-- Leaving out the joins whose names are seen already makes no difference. -/
theorem past_fresh {found : List Join} (hfound : ∀ join ∈ found, S.past [join] = S)
    (joins : List Join) : S.past (Join.fresh found joins) = S.past joins := by
  induction joins generalizing S found with
  | nil => rfl
  | cons join rest ih =>
      rw [Join.fresh, past_cons S join rest]
      split
      next hcontains =>
        obtain ⟨other, hother, hsame⟩ := Join.exists_of_contains hcontains
        rw [past_of_name_eq (Join.name_eq_of_beq hsame) (hfound other hother)]
        exact ih hfound
      next =>
        rw [past_cons]
        refine ih fun other hother => ?_
        rcases List.mem_append.1 hother with hother | hother
        · rw [past_comm, hfound other hother]
        · rw [List.mem_singleton.1 hother]
          exact past_self S join

/-- Joins whose names are in sight can be left out of a list. -/
theorem Grounds.fresh {found joins : List Join} (hfound : ∀ join ∈ found, S.past [join] = S)
    (h : S.Grounds db joins) : S.Grounds db (Join.fresh found joins) := by
  induction joins generalizing S found with
  | nil => trivial
  | cons join rest ih =>
      obtain ⟨hfirst, hrest⟩ := h
      rw [Join.fresh]
      split
      next hcontains =>
        obtain ⟨other, hother, hsame⟩ := Join.exists_of_contains hcontains
        rw [past_of_name_eq (Join.name_eq_of_beq hsame) (hfound other hother)] at hrest
        exact ih hfound hrest
      next =>
        refine ⟨hfirst, ih (fun other hother => ?_) hrest⟩
        rcases List.mem_append.1 hother with hother | hother
        · rw [past_comm, hfound other hother]
        · rw [List.mem_singleton.1 hother]
          exact past_self S join

/-! ## Rows with joins -/

/-- Rows that look the same do so with the row of a join added to both. -/
theorem Agree.joined (h : S.Agree a b) (join : Join) (added : TableRow) :
    (S.past [join]).Agree (a.joined join.name added) (b.joined join.name added) := by
  obtain ⟨own, hidden, admitted⟩ := S
  refine ⟨h.1, ?_⟩
  cases hidden with
  | none => exact congrArg (Env.joined · join.name added) h.2
  | some hidden =>
      simp only [Sight.past, Option.map_some, Join.names_singleton]
      exact Env.SameBut.joined h.2 join.name added

/-- Rows that look the same are joined to rows that look the same. -/
theorem rel_follow {joins : List Join} {rows rows' : List Env} (hjoins : S.Grounds db joins)
    (h : List.Forall₂ S.Agree rows rows') :
    List.Forall₂ (S.past joins).Agree (Join.follow db joins rows) (Join.follow db joins rows') := by
  induction joins generalizing S rows rows' with
  | nil =>
      rw [past_nil]
      exact h
  | cons join rest ih =>
      obtain ⟨hpicks, hrest⟩ := hjoins
      rw [past_cons, Join.follow_cons, Join.follow_cons]
      refine ih hrest (List.rel_flatMap h fun a b hab => ?_)
      rw [Join.step_eq, Join.step_eq, hpicks a b hab, List.forall₂_map_left_iff,
        List.forall₂_map_right_iff, List.forall₂_same]
      exact fun added _ => hab.joined join added

/-- The names of some joins are hidden, and each of them stands for one join. -/
structure Conceals (S : Sight) (row : Env) (joins : List Join) : Prop where
  hidden : ∃ hidden, S.hidden = some hidden ∧ ∀ join ∈ joins, join.name ∈ hidden
  distinct : joins.Pairwise fun join later => join.name ≠ later.name
  own : ∀ join ∈ joins, row.own ≠ some join.name
  enclosing : ∀ join ∈ joins, row.enclosing ≠ some join.name

/-- Behind a join its name is no longer hidden. -/
theorem hidden_past {hidden : Set String} (hS : S.hidden = some hidden) (join : Join) :
    (S.past [join]).hidden = some (hidden \ {join.name}) := by
  rw [Sight.past, hS, Option.map_some, Join.names_singleton]

/-- Behind the first join the names of the rest are still hidden. -/
theorem Conceals.rest {join : Join} {rest : List Join} (h : S.Conceals a (join :: rest))
    (added : TableRow) : (S.past [join]).Conceals (a.joined join.name added) rest := by
  obtain ⟨hfirst, hdistinct⟩ := List.pairwise_cons.1 h.distinct
  obtain ⟨hidden, hS, hnames⟩ := h.hidden
  refine ⟨⟨_, hidden_past hS join, fun other hother => ?_⟩, hdistinct,
    fun other hother => h.own other (List.mem_cons_of_mem _ hother),
    fun other hother => h.enclosing other (List.mem_cons_of_mem _ hother)⟩
  exact ⟨hnames other (List.mem_cons_of_mem _ hother),
    fun hname => hfirst other hother (Eq.symm hname)⟩

/-- Behind joins with other names the names stay hidden. -/
theorem Conceals.past {row : Env} {needed before : List Join} (h : S.Conceals row needed)
    (hnames : ∀ join ∈ needed, join.name ∉ Join.names before) :
    (S.past before).Conceals row needed := by
  obtain ⟨⟨hidden, hS, hmem⟩, distinct, own, enclosing⟩ := h
  refine ⟨⟨hidden \ Join.names before, ?_, fun join hjoin => ?_⟩, distinct, own, enclosing⟩
  · rw [Sight.past, hS, Option.map_some]
  · exact ⟨hmem join hjoin, hnames join hjoin⟩

/-- Each join has added its row to a row that all of them have been added to, and to that row it
could add it again. -/
theorem exists_pick {joins : List Join} {before row : Env} (hown : before.own = S.own)
    (hconceals : S.Conceals before joins) (hgrounds : S.Grounds db joins)
    (h : row ∈ Join.follow db joins [before]) :
    S.Agree before row ∧ ∀ join ∈ joins, ∃ added ∈ join.picks db row,
      row.tables.find? (·.1 = join.name) = some (join.name, added) := by
  induction joins generalizing S before with
  | nil =>
      obtain ⟨hidden, hS, -⟩ := hconceals.hidden
      rw [Join.follow_nil, List.mem_singleton] at h
      rw [h, agree_some hS]
      exact ⟨⟨hown, .refl _ _⟩, by simp⟩
  | cons join rest ih =>
      obtain ⟨hidden, hS, hnames⟩ := hconceals.hidden
      obtain ⟨added, hadded, hrow⟩ := Join.mem_follow_cons.1 h
      have hnext : (before.joined join.name added).own = (S.past [join]).own := hown
      obtain ⟨hagree, hrest⟩ := ih hnext (hconceals.rest added) hgrounds.2 hrow
      have hfirst : S.Agree before (before.joined join.name added) := by
        rw [agree_some hS]
        exact ⟨hown, .joined_right (hnames join List.mem_cons_self)
          (hconceals.own join List.mem_cons_self)
          (hconceals.enclosing join List.mem_cons_self) added⟩
      have hbefore : S.Agree before row := hfirst.trans hagree.of_past
      refine ⟨hbefore, List.forall_mem_cons.2 ⟨⟨added, ?_, ?_⟩, hrest⟩⟩
      · rwa [← hgrounds.1 before row hbefore]
      · rw [agree_some (hidden_past hS join)] at hagree
        rw [← hagree.2.tables join.name (.inl (by simp))]
        simp [Env.joined]

/-- The joins whose rows a row has can be added to a row that looks the same before them, so that it
looks the same behind them. -/
theorem exists_follow {hidden : Set String} {joins : List Join} {before row : Env}
    (hhidden : S.hidden = some hidden) (hgrounds : S.Grounds db joins) (h : S.Agree row before)
    (hpicks : ∀ join ∈ joins, ∃ added ∈ join.picks db row,
      row.tables.find? (·.1 = join.name) = some (join.name, added)) :
    ∃ after ∈ Join.follow db joins [before], (S.past joins).Agree row after := by
  induction joins generalizing S hidden before with
  | nil =>
      rw [past_nil]
      exact ⟨before, List.mem_singleton_self before, h⟩
  | cons join rest ih =>
      obtain ⟨⟨added, hadded, hfind⟩, hrest⟩ := List.forall_mem_cons.1 hpicks
      have hpast := hidden_past hhidden join
      have hnext : (S.past [join]).Agree row (before.joined join.name added) := by
        rw [agree_some hpast]
        rw [agree_some hhidden] at h
        exact ⟨h.1, h.2.joined_of_find hfind⟩
      obtain ⟨after, hafter, hagree⟩ := ih hpast hgrounds.2 hnext hrest
      refine ⟨after, Join.mem_follow_cons.2 ⟨added, ?_, hafter⟩, ?_⟩
      · rwa [← hgrounds.1 row before h]
      · rwa [past_cons]

/-! ## Columns and conditions of joins -/

/-- The table of a column is seen. -/
def Shows (S : Sight) (c : Column) : Prop :=
  match c.qualifier with
  | .own => S.own.isSome
  | .enclosing => True
  | .named table => table.text ∉ S.hidden.getD ∅

/-- A column of a table that is seen is seen. -/
theorem sees_column {column : Column} (h : S.Shows column) :
    S.Sees fun row => (Expr.column column).value db row := by
  intro a b hab
  have hsame : a.SameBut (S.hidden.getD ∅) b := hab.same _ subset_rfl
  obtain ⟨qualifier, name⟩ := column
  show a.column ⟨qualifier, name⟩ = b.column ⟨qualifier, name⟩
  cases qualifier with
  | own =>
      obtain ⟨table, hown⟩ := Option.isSome_iff_exists.1 h
      have htable : a.own = some table := hab.1.trans hown
      simp only [Env.column, ← hsame.own, htable, Env.qualified,
        hsame.tables table (.inr (.inl htable))]
  | enclosing =>
      cases htable : a.enclosing with
      | none => simp only [Env.column, ← hsame.enclosing, htable]
      | some table =>
          simp only [Env.column, ← hsame.enclosing, htable, Env.qualified,
            hsame.tables table (.inr (.inr htable))]
  | named table =>
      simp only [Env.column, Env.qualified, hsame.tables table.text (.inl h)]

/-- The comparison of two columns that are seen is seen. -/
theorem sees_compare {left right : Column} (op : CompareOp) (hleft : S.Shows left)
    (hright : S.Shows right) :
    S.Sees fun row => (Condition.compare (.column left) op (.column right)).truth db row :=
  fun a b hab => congrArg₂ (db.test op) (sees_column hleft a b hab) (sees_column hright a b hab)

/-- What the condition of a join sees: its table as the own one. -/
def atJoin (S : Sight) (join : Join) : Sight where
  own := some join.name
  hidden := (S.past [join]).hidden
  joins := ∅

/-- At a join the rows look the same to its condition. -/
theorem Agree.atJoin {join : Join} (h : S.Agree a b) (added : TableRow) :
    (S.atJoin join).Agree ((a.joined join.name added).atJoin join.name)
      ((b.joined join.name added).atJoin join.name) := by
  have hjoined := h.joined join added
  refine ⟨rfl, ?_⟩
  unfold Agree at hjoined
  cases hhidden : (S.past [join]).hidden with
  | none =>
      simp only [hhidden] at hjoined
      simp only [Sight.atJoin, hhidden]
      rw [hjoined.2]
  | some hidden =>
      simp only [hhidden] at hjoined
      simp only [Sight.atJoin, hhidden]
      obtain ⟨-, hown, -, htables⟩ := hjoined
      refine ⟨rfl, hown, fun name hname => ?_⟩
      rcases hname with hname | hname | hname
      · exact htables name (.inl hname)
      · obtain rfl := Option.some.inj hname
        simp [Env.joined, Env.atJoin]
      · exact htables name (.inr (.inl hname))

/-- The rows that a join adds depend on what its condition sees. -/
theorem sees_picks {join : Join} (h : (S.atJoin join).Sees fun row => join.on.truth db row) :
    S.Sees (join.picks db) := by
  intro a b hab
  refine congrArg join.kind.filled (List.filter_congr fun added _ => ?_)
  have htruth : join.on.truth db ((a.joined join.name added).atJoin join.name) =
      join.on.truth db ((b.joined join.name added).atJoin join.name) := h _ _ (hab.atJoin added)
  rw [htruth]

end Sight

end FilterSql
