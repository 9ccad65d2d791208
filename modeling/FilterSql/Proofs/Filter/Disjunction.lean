import FilterSql.Proofs.Filter.Visibility
import Mathlib.Data.List.Flatten

/-!
# Disjunctions and the joins of their parts

The joins that a part of a disjunction needs are made for the statement as a whole, so the part may
change the rows that another part is asked about. Where each join that is added finds some row for
every row, a disjunction gives all that its first part gives (`Filter.any_gives`). A left join does
so always; an inner join that finds nothing drops rows of which the first part holds
(`Filter.any_drops_orphans`).
-/

namespace FilterSql

variable {db : Database}

/-! ## Joins from row to row -/

namespace Join

variable {P : Join → Env → Prop} {joins : List Join} {rows : List Env}

/-- Each of some joins has a property with each row that the joins before it make. -/
def Along (db : Database) (P : Join → Env → Prop) : List Join → List Env → Prop
  | [], _ => True
  | join :: rest, rows => (∀ row ∈ rows, P join row) ∧ Along db P rest (follow db [join] rows)

/-- A join finds at most one row for a row. -/
def ToOne (db : Database) (join : Join) (row : Env) : Prop :=
  (join.picks db row).length ≤ 1

/-- A join does not drop a row: if it is an inner join, it finds a row for it. -/
def Keeps (db : Database) (join : Join) (row : Env) : Prop :=
  join.kind = .inner → join.picks db row ≠ []

/-- What joins have along some rows they have along fewer. -/
theorem Along.subset {fewer : List Env} (h : Along db P joins rows) (hfewer : fewer ⊆ rows) :
    Along db P joins fewer := by
  induction joins generalizing rows fewer with
  | nil => trivial
  | cons join rest ih =>
      refine ⟨fun row hrow => h.1 row (hfewer hrow), ih h.2 fun row hrow => ?_⟩
      obtain ⟨before, hbefore, hrow⟩ := mem_follow.1 hrow
      exact mem_follow.2 ⟨before, hfewer hbefore, hrow⟩

/-- What joins make of rows they make of each of them in turn. -/
theorem follow_eq_flatMap (joins : List Join) (rows : List Env) :
    follow db joins rows = rows.flatMap fun row => follow db joins [row] := by
  induction joins generalizing rows with
  | nil => simp
  | cons join rest ih =>
      simp only [follow_cons, List.flatMap_singleton]
      rw [ih, List.flatMap_assoc]
      exact congrArg rows.flatMap (funext fun row => (ih _).symm)

/-- A left join finds a row for every row. -/
theorem Keeps.picks_ne_nil {join : Join} {row : Env} (h : join.Keeps db row) :
    join.picks db row ≠ [] := by
  cases hkind : join.kind with
  | inner => exact h hkind
  | left =>
      rw [picks, hkind]
      generalize (db.rows join.table.name.text).filter _ = found
      cases found <;> exact List.cons_ne_nil _ _

/-- Joins that drop no row leave some. -/
theorem follow_ne_nil (h : Along db (Keeps db) joins rows) (hrows : rows ≠ []) :
    follow db joins rows ≠ [] := by
  induction joins generalizing rows with
  | nil => exact hrows
  | cons join rest ih =>
      obtain ⟨row, more, rfl⟩ := List.exists_cons_of_ne_nil hrows
      have hpicks := (h.1 row List.mem_cons_self).picks_ne_nil
      have hnext : follow db [join] (row :: more) ≠ [] := by
        rw [follow_cons, follow_nil, List.flatMap_cons, step_eq]
        exact List.append_ne_nil_of_left_ne_nil (mt List.map_eq_nil_iff.1 hpicks) _
      exact ih h.2 hnext

/-- Joins that find at most one row for a row make at most one of it. -/
theorem length_follow_le_one (h : Along db (ToOne db) joins rows) (hrows : rows.length ≤ 1) :
    (follow db joins rows).length ≤ 1 := by
  induction joins generalizing rows with
  | nil => exact hrows
  | cons join rest ih =>
      have hnext : (follow db [join] rows).length ≤ 1 := by
        match rows, hrows with
        | [], _ => exact Nat.zero_le 1
        | [row], _ =>
            rw [follow_cons, follow_nil, List.flatMap_singleton, step_eq, List.length_map]
            exact h.1 row List.mem_cons_self
      exact ih h.2 hnext

end Join

/-! ## Rows of a disjunction -/

namespace Select

variable {s : Select} {p : Predicate} {before row : Env}

/-- The rows that a statement matches with a predicate and that the joins of the predicate make of
one row. -/
def matchedFrom (db : Database) (s : Select) (p : Predicate) (before : Env) : List Env :=
  (Join.follow db (Join.fresh (s.known db) (p.needs db)) [before]).filter fun row =>
    (s.filter.and p).truth db row = .holds

/-- What the joins make of one row is matched if filter and predicate hold of it. -/
theorem mem_matchedFrom :
    row ∈ s.matchedFrom db p before ↔
      row ∈ Join.follow db (Join.fresh (s.known db) (p.needs db)) [before] ∧
        (s.filter.and p).truth db row = .holds := by
  rw [matchedFrom, List.mem_filter, decide_eq_true_iff]

/-- The matched rows are made of one row after the other. -/
theorem matched_eq_flatMap (h : s.filter.and p ≠ .never) (env : Env) :
    (s.restrict p).matched db env = (s.joinedRows db env).flatMap (s.matchedFrom db p) := by
  rw [matched, joinedRows_restrict h, Join.follow_eq_flatMap, List.filter_flatMap]
  rfl

/-- Joins that find at most one row make at most one match of a row. -/
theorem length_matchedFrom_le_one
    (h : Join.Along db (Join.ToOne db) (Join.fresh (s.known db) (p.needs db)) [before]) :
    (s.matchedFrom db p before).length ≤ 1 :=
  (List.length_filter_le _ _).trans (Join.length_follow_le_one h List.length_singleton.le)

end Select

namespace Sight

variable {S : Sight} {base : Select} {joins : Set Join} {p q : Predicate} {env : Env}

/-- The joins that a predicate adds behind those of another one have names of their own. -/
theorem Admits.name_notMem (hbase : S.Admits db base joins) {found before more : List Join}
    (hbefore : ∀ join ∈ before, join ∈ joins) (hmore : ∀ join ∈ more, join ∈ joins) {join : Join}
    (hjoin : join ∈ Join.fresh (found ++ Join.fresh found before) more) :
    join.name ∉ Join.names before := by
  rintro ⟨other, hother, hname⟩
  have hadded := hmore join (Join.mem_of_mem_fresh hjoin)
  obtain rfl := hbase.unique other (hbefore other hother) join hadded hname
  have hdiffer := Join.not_contains_of_mem_fresh hjoin
  obtain ⟨kept, hkept, hname⟩ := Join.exists_mem_fresh hother fun known hknown =>
    hdiffer known (List.mem_append_left _ hknown)
  obtain rfl := hbase.unique other hadded kept (hbefore kept (Join.mem_of_mem_fresh hkept)) hname
  have hself := hdiffer other (List.mem_append_right _ hkept)
  rw [hbase.same other hadded] at hself
  cases hself

/-- The joins that a second predicate adds behind those of a first one change nothing that the first
one sees. -/
theorem Admits.agree_more {row after : Env} (hbase : S.Admits db base joins)
    (hp : (S.within db base joins).Fits db p) (hq : (S.within db base joins).Fits db q)
    (hown : row.own = base.source.map Table.namespaceText) (henclosing : row.enclosing = S.own)
    (hafter : after ∈ Join.follow db
      (Join.fresh (base.known db ++ Join.fresh (base.known db) (p.needs db)) (q.needs db)) [row]) :
    ((S.within db base joins).past (p.needs db)).Agree row after := by
  have hconceals := hbase.conceals (List.subset_append_left (base.known db)
    (Join.fresh (base.known db) (p.needs db))) hq.joins hown henclosing
  have hgrounds := hq.grounds.past (p.needs db)
  refine (exists_pick hown (hconceals.past fun join hjoin => ?_) (hgrounds.fresh ?_) hafter).1
  · exact hbase.name_notMem hp.joins hq.joins hjoin
  · intro join hjoin
    rcases List.mem_append.1 hjoin with hjoin | hjoin
    · rw [past_comm, past_known hjoin]
    · exact past_of_mem (Join.mem_of_mem_fresh hjoin)

/-- A row that is given with a predicate is there with a disjunction, unless a join that the other
predicate adds drops it. -/
theorem Admits.exists_or {before row : Env} (hbase : S.Admits db base joins)
    (hp : (S.within db base joins).Fits db p) (hq : (S.within db base joins).Fits db q)
    (hbefore : before ∈ base.joinedRows db env) (henv : env.own = S.own)
    (hrow : row ∈ base.matchedFrom db p before)
    (hkept : Join.Along db (Join.Keeps db)
      (Join.fresh (base.known db ++ Join.fresh (base.known db) (p.needs db)) (q.needs db)) [row]) :
    ∃ after ∈ base.matchedFrom db (p.or q) before, (S.within db base joins).Agree row after := by
  obtain ⟨hrow, hholds⟩ := Select.mem_matchedFrom.1 hrow
  obtain ⟨hown, henclosing⟩ := Select.own_of_mem_joinedRows hbefore
  rw [truth_and_holds] at hholds
  by_cases halways : p.or q = .always
  · -- it is settled that every row matches, so no joins are made
    have hconceals := hbase.conceals (List.Subset.refl _) hp.joins hown (henclosing.trans henv)
    have hagree := (exists_pick hown hconceals hp.fresh.1 hrow).1
    refine ⟨before, Select.mem_matchedFrom.2 ⟨?_, ?_⟩, hagree.symm⟩
    · rw [halways]
      exact List.mem_singleton_self before
    · rw [truth_and_holds, halways]
      exact ⟨(hbase.filter before row hagree).trans hholds.1, rfl⟩
  · have hnext := Join.follow_own hrow
    obtain ⟨after, hafter⟩ := List.exists_mem_of_ne_nil _
      (Join.follow_ne_nil hkept (List.cons_ne_nil row []))
    have hagree := hbase.agree_more hp hq (hnext.1.trans hown)
      (hnext.2.trans (henclosing.trans henv)) hafter
    refine ⟨after, Select.mem_matchedFrom.2 ⟨?_, ?_⟩, hagree.of_past⟩
    · rw [Predicate.needs_or halways, Join.fresh_append, Join.follow_append]
      exact Join.mem_follow.2 ⟨row, hrow, hafter⟩
    · have hsame : p.truth db row = p.truth db after := hp.sees row after hagree
      have hor : (p.or q).truth db after = .holds := by
        rw [Predicate.truth_or, Truth.or_eq_holds]
        exact .inl (hsame.symm.trans hholds.2)
      rw [truth_and_holds]
      exact ⟨(hbase.filter row after hagree.of_past).symm.trans hholds.1, hor⟩

/-- Where joins find at most one row for a row, and the inner joins that another predicate adds find
one for every row that is matched, a disjunction matches what its first part does. -/
theorem Admits.sublist_matched_or {α : Type} {f : Env → α} (hbase : S.Admits db base joins)
    (hp : (S.within db base joins).Fits db p) (hq : (S.within db base joins).Fits db q)
    (hf : (S.within db base joins).Sees f) (henv : env.own = S.own)
    (hone : Join.Along db (Join.ToOne db) (Join.fresh (base.known db) (p.needs db))
      (base.joinedRows db env))
    (hkept : Join.Along db (Join.Keeps db) (Join.fresh ((base.restrict p).known db) (q.needs db))
      ((base.restrict p).matched db env)) :
    (((base.restrict p).matched db env).map f).Sublist
      (((base.restrict (p.or q)).matched db env).map f) := by
  by_cases hnever : base.filter.and p = .never
  · rw [matched_of_never hnever]
    exact List.nil_sublist _
  have hor : base.filter.and (p.or q) ≠ .never := by
    obtain ⟨hfilter, hp⟩ := not_or.1 (mt Predicate.and_eq_never.2 hnever)
    exact fun hand => (Predicate.and_eq_never.1 hand).elim hfilter
      fun hnone => hp (Predicate.or_eq_never.1 hnone).1
  rw [Select.known_restrict hnever, Select.matched_eq_flatMap hnever] at hkept
  rw [Select.matched_eq_flatMap hnever, Select.matched_eq_flatMap hor, List.map_flatMap,
    List.map_flatMap]
  -- each row before the joins comes to at most one row
  refine List.Sublist.flatMap_right _ fun before hbefore => ?_
  have hlength : (base.matchedFrom db p before).length ≤ 1 :=
    Select.length_matchedFrom_le_one
      (hone.subset (List.cons_subset.2 ⟨hbefore, List.nil_subset _⟩))
  cases hrows : base.matchedFrom db p before with
  | nil => exact List.nil_sublist _
  | cons row more =>
      obtain rfl : more = [] := by simpa [hrows] using hlength
      have hrow : row ∈ base.matchedFrom db p before := hrows ▸ List.mem_singleton_self row
      have hmatched := List.mem_flatMap.2 ⟨before, hbefore, hrow⟩
      obtain ⟨after, hafter, hagree⟩ := hbase.exists_or hp hq hbefore henv hrow
        (hkept.subset (List.cons_subset.2 ⟨hmatched, List.nil_subset _⟩))
      rw [List.map_singleton, List.singleton_sublist, hf row after hagree]
      exact List.mem_map_of_mem hafter

end Sight

/-! ## Filters -/

namespace Filter

variable {limits : Limits} {now : Instant}

/-- A disjunction of two filters is compiled to the disjunction of their predicates. -/
theorem compile_any_pair {schema : Schema} {first second : Filter} {p q r : Predicate}
    (hp : first.compile limits now schema = .ok p) (hq : second.compile limits now schema = .ok q)
    (hr : (Filter.any [first, second]).compile limits now schema = .ok r) : r = p.or q := by
  obtain ⟨r, hr, rfl⟩ := compileAt_any hr
  obtain ⟨p', hp', hr⟩ := compileAny_cons hr
  obtain rfl := compileAt_above first hp hp'
  have hfirst : Predicate.never.or p = p := by cases p <;> rfl
  rw [hfirst] at hr
  rcases hr with ⟨rfl, rfl⟩ | ⟨-, hr⟩
  · rfl
  · obtain ⟨q', hq', hr⟩ := compileAny_cons hr
    obtain rfl := compileAt_above second hq hq'
    rcases hr with ⟨halways, rfl⟩ | ⟨-, hr⟩
    · exact halways.symm
    · exact (Except.ok.inj hr).symm

/-- Where joins find at most one row for a row, and the inner joins that the second filter adds find
one for every row that the first one chooses, a statement gives with a disjunction all that it gives
with the first filter. -/
theorem any_gives {base : Select} {joins : Set Join} {schema : Schema} {first second : Filter}
    {p q r : Predicate} {env : Env} (hplain : base.IsPlain)
    (hbase : (Sight.whole env.own).Admits db base joins)
    (hschema : schema.Orderly db ((Sight.whole env.own).within db base joins))
    (hitems : ∀ item ∈ base.items,
      ((Sight.whole env.own).within db base joins).Sees fun row => item.expr.value db row)
    (hp : first.compile limits now schema = .ok p) (hq : second.compile limits now schema = .ok q)
    (hr : (Filter.any [first, second]).compile limits now schema = .ok r)
    (hone : Join.Along db (Join.ToOne db) (Join.fresh (base.known db) (p.needs db))
      (base.joinedRows db env))
    (hkept : Join.Along db (Join.Keeps db) (Join.fresh ((base.restrict p).known db) (q.needs db))
      ((base.restrict p).matched db env)) :
    ((base.restrict p).eval db env).Subperm ((base.restrict r).eval db env) := by
  have hplace : (Scope.ofSchema schema).Orderly db ((Sight.whole env.own).within db base joins) :=
    ⟨.schema hschema, nofun⟩
  obtain rfl := compile_any_pair hp hq hr
  have hsublist := hbase.sublist_matched_or (compileAt_fits first .row hplace hp)
    (compileAt_fits second .row hplace hq) (Sight.sees_items hitems) rfl hone hkept
  have heval : ∀ r : Predicate, ((base.restrict r).eval db env).Perm
      (((base.restrict r).matched db env).map fun row =>
        SelectItem.evalAll db (.single row) base.items) := by
    intro r
    have hrestrict := hplain.restrict r
    rw [Select.eval_of_ungrouped hrestrict.ungrouped, Select.run, hrestrict.limit, hrestrict.offset]
    exact (stableSort_perm _).map _
  exact (heval p).subperm.trans (hsublist.subperm.trans (heval _).symm.subperm)

namespace Sample

/-- A column of the table of a statement. -/
def own (name : String) (valid : Identifier.isValid name.toList = true) : Expr :=
  .column ⟨.own, ⟨name, valid⟩⟩

/-- The name that the writer of an article is joined under. -/
def writer : Identifier := ⟨"writer", .refl true⟩

/-- The user who wrote an article. -/
def byWriter (kind : JoinKind) : Join :=
  ⟨kind, ⟨⟨"users", .refl true⟩, some writer⟩,
    .compare (own "id" (.refl true)) .eq (.column ⟨.enclosing, writer⟩)⟩

/-- The likes of an article. -/
def likesOfArticle : FilterColumn := .ofExpr (own "likes" (.refl true)) .number

/-- The team of the writer of an article. -/
def teamOfWriter : FilterColumn :=
  .ofExpr (.column ⟨.named writer, ⟨"team", .refl true⟩⟩) .number

/-- The user who corrected an article, under the name of the writer. -/
def byEditor : Join :=
  ⟨.left, ⟨⟨"users", .refl true⟩, some writer⟩,
    .compare (own "id" (.refl true)) .eq (.column ⟨.enclosing, ⟨"editor", .refl true⟩⟩)⟩

/-- Articles with likes and writers. -/
def articles (kind : JoinKind) : Schema :=
  .ofFields [("likes", .column likesOfArticle none),
    ("writer", .joined (byWriter kind) (.ofFields [("team", .column teamOfWriter none)]) false)]

/-- Articles with editors and writers. -/
def proofs : Schema :=
  .ofFields [
    ("editor", .joined byEditor (.ofFields [("team", .column teamOfWriter none)]) false),
    ("writer", .joined (byWriter .left) (.ofFields [("team", .column teamOfWriter none)]) false)]

/-- The numbers of the articles. -/
def listing : Select :=
  { Select.empty with
    items := [⟨own "id" (.refl true), none⟩]
    source := some ⟨⟨"articles", .refl true⟩, none⟩ }

/-- A row of numbers. -/
def ofNumbers (values : List (String × Int64)) : TableRow :=
  fun name => (values.find? (·.1 = name)).map fun value => .int value.2

/-- Two articles, of which the writer of the second is not known. -/
def library : Database :=
  .plain fun table =>
    if table = "articles" then
      [ofNumbers [("id", 1), ("writer", 7), ("editor", 9), ("likes", 5)],
        ofNumbers [("id", 2), ("writer", 8), ("editor", 9), ("likes", 5)]]
    else if table = "users" then [ofNumbers [("id", 7), ("team", 1)]]
    else []

/-- Articles with five likes. -/
def popular : Filter := .field "likes" (.compare .eq (.int 5))

/-- Articles by writers of the first team. -/
def ofTeam : Filter := .field "writer" (.field "team" (.compare .eq (.int 1)))

/-- What the filter for likes is compiled to. -/
def popularPredicate : Predicate :=
  .condition (.compare likesOfArticle.expr .eq (.param (.int 5)))

/-- What the filter for the team is compiled to. -/
def ofTeamPredicate (kind : JoinKind) : Predicate :=
  .condition (.joined (byWriter kind) (.compare teamOfWriter.expr .eq (.param (.int 1))))

/-- Articles with editors of the second team. -/
def corrected : Filter := .field "editor" (.field "team" (.compare .eq (.int 2)))

/-- What the filter for the team of the editor is compiled to. -/
def correctedPredicate : Predicate :=
  .condition (.joined byEditor (.compare teamOfWriter.expr .eq (.param (.int 2))))

/-- An article has at most one writer. -/
theorem byWriter_toOne (kind : JoinKind) (row : Env) : (byWriter kind).ToOne library row := by
  have hfound : ∀ found : List TableRow, found.length ≤ 1 → (kind.filled found).length ≤ 1 := by
    intro found hfound
    cases kind <;> cases found <;> simp_all [JoinKind.filled]
  exact hfound _ ((List.length_filter_le _ _).trans le_rfl)

/-- The articles join no tables, so the writer can be joined. -/
theorem listing_admits : (Sight.whole none).Admits library listing {byWriter .left} where
  table := rfl
  grounds := trivial
  filter := fun _ _ _ => rfl
  keys := nofun
  having := fun _ _ _ => rfl
  unique := fun _ hjoin _ hother _ => hjoin.trans hother.symm
  same := by
    rintro _ rfl
    rfl
  apart := by
    rintro _ rfl (hname | ⟨_, ⟨⟩, -⟩)
    exact absurd hname (by decide)
  outside := by
    rintro _ rfl
    decide

/-- The columns of articles and of their writers keep to what they can see. -/
theorem articles_orderly : (articles .left).Orderly library
    ((Sight.whole none).within library listing {byWriter .left}) := by
  have hwriter : ((Sight.whole none).within library listing {byWriter .left}).Sees
      ((byWriter .left).picks library) :=
    Sight.sees_picks (Sight.sees_compare .eq rfl trivial)
  have hteam : (((Sight.whole none).within library listing {byWriter .left}).past
      [byWriter .left]).Sees fun row => teamOfWriter.expr.value library row :=
    Sight.sees_column fun hname => hname.2 ⟨byWriter .left, List.mem_singleton_self _, rfl⟩
  refine ⟨fun name field hget => ?_⟩
  rcases List.mem_cons.1 (mem_of_find?_name hget) with hget | hget
  · obtain ⟨-, rfl⟩ := Prod.mk.inj hget
    exact .column (Sight.sees_column rfl) nofun
  · obtain ⟨-, rfl⟩ := Prod.mk.inj (List.mem_singleton.1 hget)
    refine .joined (.joined rfl hwriter) ⟨fun name field hget => ?_⟩
    obtain ⟨-, rfl⟩ := Prod.mk.inj (List.mem_singleton.1 (mem_of_find?_name hget))
    exact .column hteam nofun

end Sample

open Sample in
/-- All popular articles are among those that are popular or by the team. -/
theorem any_gives_articles :
    (Sight.whole none).Admits library listing {byWriter .left} ∧
      (articles .left).Orderly library
        ((Sight.whole none).within library listing {byWriter .left}) ∧
      popular.compile {} default (articles .left) = .ok popularPredicate ∧
      ofTeam.compile {} default (articles .left) = .ok (ofTeamPredicate .left) ∧
      (Filter.any [popular, ofTeam]).compile {} default (articles .left) =
        .ok (popularPredicate.or (ofTeamPredicate .left)) ∧
      ((listing.restrict popularPredicate).eval library .top).Subperm
        ((listing.restrict (popularPredicate.or (ofTeamPredicate .left))).eval library .top) := by
  have hplain : listing.IsPlain := ⟨rfl, rfl, rfl⟩
  have hitems : ∀ item ∈ listing.items,
      ((Sight.whole none).within library listing {byWriter .left}).Sees
        fun row => item.expr.value library row :=
    fun item hitem => by
      rw [List.mem_singleton.1 hitem]
      exact Sight.sees_column rfl
  have hkept : Join.Along library (Join.Keeps library)
      (Join.fresh ((listing.restrict popularPredicate).known library)
        ((ofTeamPredicate .left).needs library))
      ((listing.restrict popularPredicate).matched library .top) :=
    ⟨fun _ _ => nofun, trivial⟩
  have hp : popular.compile {} default (articles .left) = .ok popularPredicate := rfl
  have hq : ofTeam.compile {} default (articles .left) = .ok (ofTeamPredicate .left) := rfl
  have hr : (Filter.any [popular, ofTeam]).compile {} default (articles .left) =
      .ok (popularPredicate.or (ofTeamPredicate .left)) := rfl
  exact ⟨listing_admits, articles_orderly, hp, hq, hr,
    any_gives hplain listing_admits articles_orderly hitems hp hq hr trivial hkept⟩

/-- What a statement gives with a filter. -/
def Gives (db : Database) (base : Select) (schema : Schema) (filter : Filter)
    (given : List (List Value)) : Prop :=
  ∃ p, filter.compile {} default schema = .ok p ∧ (base.restrict p).eval db .top = given

open Sample in
/-- An inner join that finds nothing, and two joins of one name: in each case the disjunction does
not give a row that its first part gives. -/
theorem any_drops_orphans :
    (∀ kind row, (byWriter kind).ToOne library row) ∧
      Gives library listing (articles .inner) popular [[.int 1], [.int 2]] ∧
      Gives library listing (articles .inner) (.any [popular, ofTeam]) [[.int 1]] ∧
      Gives library listing proofs ofTeam [[.int 1]] ∧
      Gives library listing proofs (.any [ofTeam, corrected]) [] := by
  exact ⟨byWriter_toOne, ⟨popularPredicate, rfl, rfl⟩,
    ⟨popularPredicate.or (ofTeamPredicate .inner), rfl, rfl⟩, ⟨ofTeamPredicate .left, rfl, rfl⟩,
    ⟨(ofTeamPredicate .left).or correctedPredicate, rfl, rfl⟩⟩

end Filter

end FilterSql
