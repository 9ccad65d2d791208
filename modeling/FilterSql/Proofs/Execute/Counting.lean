import FilterSql.Proofs.Binary64.Monotone
import FilterSql.Proofs.Execute.Skipping
import FilterSql.Proofs.Sql.Aggregates

/-!
# Counting against fetching

`Executor.count` and `Executor.hasRows` send the statement with another item in place of its own
ones, and read the first value of the first row. Without groups the one row has the number of the
rows that match. With groups there is a row for each of them, and the number in the first one is
that of its members (`Select.firstNumber_toCount`), while the statement gives as many rows as there
are groups. The test for a row is true exactly if there is a group (`Select.firstNumber_toExists`);
the executor leaves it out, though, where the filter is settled against every row, and then misses
the group of no rows. `Executor.count_hasRows_iff` puts this together.
-/

namespace FilterSql

variable {db : Database}

/-! ## One number of an answer -/

/-- The number that a driver reads of a value. -/
def Value.number? : Value → Option Binary64
  | .int n => some (.ofInt n.toInt)
  | .float x => some x
  | .bool b => some (.ofInt (if b then 1 else 0))
  | _ => none

/-- The number in the first column of the first row, none where there is no row. -/
def firstNumber? (rows : List (List Value)) : Option Binary64 :=
  rows.head?.bind fun row => row.head?.bind Value.number?

/-! ## The groups of the aggregates -/

/-- Where all rows tie, a list is sorted already. -/
theorem stableSort_of_ties {α : Type} {compare : α → α → Ordering}
    (h : ∀ a b, compare a b = .eq) (l : List α) : stableSort compare l = l := by
  have hput : ∀ done item, putBack compare item done = item :: done := by
    intro done item
    cases done with
    | nil => rfl
    | cons last before => rw [putBack, h item last, if_neg (by decide)]
  have hfold : ∀ done, l.foldl (fun sorted item => putBack compare item sorted) done =
      l.reverse ++ done := by
    induction l with
    | nil => exact fun _ => rfl
    | cons item rest ih =>
        intro done
        rw [List.foldl_cons, hput, ih, List.reverse_cons, List.append_assoc, List.singleton_append]
  rw [stableSort, hfold, List.append_nil, List.reverse_reverse]

namespace Select

variable {s : Select} {env : Env}

/-- The statement without its order and its paging. -/
def unpaged (s : Select) : Select :=
  { s with orderBy := [], limit := none, offset := none }

/-- A statement without order and paging gives a row for each of its groups, in their order. -/
theorem eval_single (expr : Expr) (asName : Option Identifier) (timeout : Option Nat) :
    (s.single expr asName timeout).eval db env =
      ((s.single expr asName timeout).groups db env).map fun g => [expr.eval db g] := by
  have hties : ∀ a b : RowGroup, db.compareTerms (OrderTerm.evalAll db a [])
      (OrderTerm.evalAll db b []) = .eq := fun _ _ => rfl
  rw [eval_eq_groups]
  show (window none none (stableSort (fun a b => db.compareTerms (OrderTerm.evalAll db a [])
    (OrderTerm.evalAll db b [])) _)).map _ = _
  rw [stableSort_of_ties hties]
  rfl

/-- A statement without order and paging gives a row for each group. -/
theorem length_eval_unpaged : (s.unpaged.eval db env).length = (s.groups db env).length := by
  rw [eval_eq_groups, List.length_map]
  show (window none none (stableSort _ (s.groups db env))).length = _
  rw [window, Option.getD_none, List.drop_zero, length_stableSort]

/-- The number of members of the first group, nothing where there is no group. -/
def firstGroupSize (groups : List RowGroup) : Nat :=
  groups.head?.elim 0 (·.rows.length)

/-- Where no row matches, no group has members. -/
theorem firstGroupSize_of_never (h : s.filter = .never) :
    firstGroupSize (s.groups db env) = 0 := by
  by_cases hgroup : s.HasEmptyGroup db env
  · rw [groups_of_hasEmptyGroup h hgroup]
    rfl
  · rw [groups_eq_nil h hgroup]
    rfl

/-- Where no row matches, there are groups exactly if there is the one of no rows. -/
theorem length_groups_ne_zero_iff (h : s.filter = .never) :
    (s.groups db env).length ≠ 0 ↔ s.HasEmptyGroup db env := by
  by_cases hgroup : s.HasEmptyGroup db env
  · simp [groups_of_hasEmptyGroup h hgroup, hgroup]
  · simp [groups_eq_nil h hgroup, hgroup]

/-- The groups of a statement; without a list of keys, `whole` says whether all rows make one. -/
def groupsIf (db : Database) (env : Env) (whole : Bool) (s : Select) : List RowGroup :=
  (makeGroups whole (!s.groupBy.isEmpty)
    (fun a b => db.sameValues (Expr.evalAll db (.single a) s.groupBy)
      (Expr.evalAll db (.single b) s.groupBy))
    env.inside (s.matched db env)).filter fun g => Condition.evalOption db g s.having = .holds

/-- The groups of a statement are those where its items say whether all rows make one. -/
theorem groups_eq_groupsIf :
    s.groups db env = s.groupsIf db env (s.having.isSome || s.items.any (·.expr.aggregates)) := rfl

/-- A list of keys makes the groups by itself. -/
theorem groupsIf_of_keys (h : s.groupBy ≠ []) (whole whole' : Bool) :
    s.groupsIf db env whole = s.groupsIf db env whole' := by
  have hkeys : (!s.groupBy.isEmpty) = true := by simpa using h
  rw [groupsIf, groupsIf, hkeys]
  cases whole <;> cases whole' <;> rfl

/-- Another item leaves the groups as they are, unless it decides whether all rows make one. -/
theorem groups_single {expr : Expr} {asName : Option Identifier} {timeout : Option Nat}
    (h : s.groupBy ≠ [] ∨ s.having ≠ none ∨
      expr.aggregates = s.items.any (·.expr.aggregates)) :
    (s.single expr asName timeout).groups db env = s.groups db env := by
  have hsingle : (s.single expr asName timeout).groups db env =
      s.groupsIf db env (s.having.isSome || expr.aggregates) := by
    rw [← Bool.or_false expr.aggregates]
    rfl
  rw [hsingle, groups_eq_groupsIf]
  obtain hkeys | hhaving | hexpr := h
  · exact groupsIf_of_keys hkeys _ _
  · rw [Option.ne_none_iff_isSome.1 hhaving, Bool.true_or, Bool.true_or]
  · rw [hexpr]

/-- Without groups, the count is over one group of all rows that match. -/
theorem groups_toCount (hkeys : s.groupBy = []) (hhaving : s.having = none) :
    (s.toCount none).groups db env =
      [⟨(s.matched db env).headD env.inside, s.matched db env⟩] := by
  have hcount : (s.toCount none).groups db env =
      s.groupsIf db env (s.having.isSome || true) := rfl
  rw [hcount, groupsIf, hkeys, hhaving]
  rfl

/-- Without groups, there is a row for each row that matches. -/
theorem length_groups (hkeys : s.groupBy = []) (hhaving : s.having = none)
    (hplain : s.items.any (·.expr.aggregates) = false) :
    (s.groups db env).length = (s.matched db env).length := by
  rw [groups, hkeys, hhaving, hplain]
  show (((s.matched db env).map RowGroup.single).filter fun _ => true).length = _
  rw [List.filter_true, List.length_map]

/-- A count gives the number of members of its first group, if it has groups. -/
theorem firstNumber_toCount :
    firstNumber? ((s.toCount none).eval db env) =
      ((s.toCount none).groups db env).head?.map fun g =>
        .ofInt (Int64.ofNat g.rows.length).toInt := by
  have hcount : (s.toCount none).eval db env =
      ((s.toCount none).groups db env).map fun g => [Expr.countRows.eval db g] :=
    eval_single .countRows (some aggregateAlias) s.timeout
  rw [hcount]
  cases (s.toCount none).groups db env <;> rfl

/-- The number that the executor makes of it. -/
theorem toCount_firstNumber
    (hsize : ∀ g ∈ (s.toCount none).groups db env, g.rows.length < 2 ^ 53) :
    (firstNumber? ((s.toCount none).eval db env)).elim 0 (·.toCount) =
      firstGroupSize ((s.toCount none).groups db env) := by
  rw [firstNumber_toCount]
  cases hgroups : (s.toCount none).groups db env with
  | nil => rfl
  | cons g rest =>
      have hlt := hsize g (hgroups ▸ List.mem_cons_self)
      have hint : (Int64.ofNat g.rows.length).toInt = g.rows.length :=
        Int64.toInt_ofNat_of_lt (by omega)
      show (Binary64.ofInt (Int64.ofNat g.rows.length).toInt).toCount = g.rows.length
      rw [hint, Binary64.toCount_ofInt (by omega)]

/-- The count is the number of rows that a statement gives exactly if it makes no groups, or as many
of them as the first one has members. -/
theorem firstGroupSize_toCount_iff (hplain : s.items.any (·.expr.aggregates) = false) :
    firstGroupSize ((s.toCount none).groups db env) = (s.groups db env).length ↔
      (s.groupBy = [] ∧ s.having = none) ∨
        firstGroupSize (s.groups db env) = (s.groups db env).length := by
  by_cases h : s.groupBy = [] ∧ s.having = none
  · rw [groups_toCount h.1 h.2, length_groups h.1 h.2 hplain]
    exact ⟨fun _ => .inl h, fun _ => rfl⟩
  · have hgroups : (s.toCount none).groups db env = s.groups db env := by
      refine groups_single ?_
      rw [not_and_or] at h
      exact h.imp_right .inl
    rw [hgroups, or_iff_right h]

/-- The test for a row says whether there are groups. -/
theorem firstNumber_toExists (hplain : s.items.any (·.expr.aggregates) = false) :
    firstNumber? (s.toExists.eval db .top) =
      some (.ofInt (if (s.groups db .top).isEmpty then 0 else 1)) := by
  have hitem : (Expr.keyword "1").aggregates = s.items.any (·.expr.aggregates) := hplain.symm
  have hinner : ((s.single (.keyword "1") none none).eval db .top).isEmpty =
      (s.groups db .top).isEmpty := by
    rw [eval_single, List.isEmpty_map, groups_single (.inr (.inr hitem))]
  have houter : s.toExists.eval db .top =
      [[.bool !((s.single (.keyword "1") none none).eval db .top).isEmpty]] := rfl
  rw [houter, hinner]
  cases (s.groups db .top).isEmpty <;> rfl

/-- The number of rows and the test for a row can be asked for wherever a statement can. -/
theorem exists_toCount_toExists {d : Dialect} {n : Namespaces} {table : Table}
    {statement : Statement} (hsource : s.source = some table) (hown : n.own = none)
    (hrender : (s.render d n).run = .ok statement) :
    (∃ asked, ((s.toCount none).render d n).run = .ok asked) ∧
      ∃ tested, (s.toExists.render d n).run = .ok tested := by
  obtain ⟨_, _, _, _, _, _, _, -, -, hstart, -⟩ := exists_kept hsource hrender
  constructor
  · rw [toCount, render_aggregate hsource rfl]
    exact ⟨_, Render.run_map _ hstart⟩
  · rw [render_toExists hsource]
    rw [hown] at hstart
    exact ⟨_, Render.run_map _ hstart⟩

end Select

namespace Executor

variable {State : Type} {e : Executor State (List Value)} {s : Select} {session : Session State}

/-- A truth value is read back from the number that stands for it. -/
theorem not_same_zero (b : Bool) :
    (!(Binary64.ofInt (if b then 0 else 1)).same .zero) = !b := by
  cases b <;> decide

/-- The number that a statement gives is the one that the connection replies. -/
theorem scalar_result {t : Select} {sent : Statement} {x : Option Binary64}
    (hrender : (t.render e.connection.dialect .none).run = .ok sent)
    (hscalar : ((e.connection.scalar sent).run session.state).1.result = .ok x) :
    ((e.scalar t).run.run session).1 = .ok x := by
  rw [scalar, Execute.run_bind, run_rendered, hrender]
  show ((e.send sent e.connection.scalar).run.run session).1 = _
  rw [run_send]
  show Except.mapError ExecuteError.database
    ((e.connection.scalar sent).run session.state).1.result = _
  rw [hscalar]
  rfl

/-- What is made of a result. -/
theorem map_result {α β : Type} {x : Execute State α} {a : α} (f : α → β)
    (hx : (x.run.run session).1 = .ok a) :
    ((do return f (← x) : Execute State β).run.run session).1 = .ok (f a) := by
  rw [Execute.run_bind]
  cases hrun : x.run.run session with
  | mk result session' =>
      rw [hrun] at hx
      cases hx
      rfl

/-- Where the filter is settled against every row, zero is counted and nothing is sent. -/
theorem count_of_never (hnever : s.decided? = some false) :
    (e.count s).run.run session = (.ok 0, session) := by
  rw [count, if_pos hnever]
  rfl

/-- Where the filter is settled against every row, no row is found and nothing is sent. -/
theorem hasRows_of_never (hnever : s.decided? = some false) :
    (e.hasRows s).run.run session = (.ok false, session) := by
  rw [hasRows, if_pos hnever]
  rfl

/-- What is counted is the number that is read of the answer. -/
theorem count_result (hnever : s.decided? ≠ some false) {x : Option Binary64}
    (hx : ((e.scalar (s.toCount none)).run.run session).1 = .ok x) :
    ((e.count s).run.run session).1 = .ok (x.elim 0 (·.toCount)) := by
  rw [count, if_neg hnever]
  cases x <;> exact map_result _ hx

/-- A row is found if the number that is read of the answer is not zero. -/
theorem hasRows_result (hnever : s.decided? ≠ some false) {x : Option Binary64}
    (hx : ((e.scalar s.toExists).run.run session).1 = .ok x) :
    ((e.hasRows s).run.run session).1 = .ok (x.elim false (!·.same .zero)) := by
  rw [hasRows, if_neg hnever]
  cases x <;> exact map_result _ hx

/-- Counting against fetching, for a statement on a table whose items do not sum up. The count is
the number of the rows that the statement gives without order and paging exactly if it makes no
groups, or as many of them as the first one has members. The test for a row says whether there are
any exactly if it is sent, or there is no group of no rows. -/
theorem count_hasRows_iff {table : Table} {statement : Statement}
    (hsource : s.source = some table) (hplain : s.items.any (·.expr.aggregates) = false)
    (hrender : (s.render e.connection.dialect .none).run = .ok statement)
    (hsize : ∀ g ∈ (s.toCount none).groups db .top, g.rows.length < 2 ^ 53)
    (hscalar : ∀ t ∈ [s.toCount none, s.toExists], ∀ sent,
      (t.render e.connection.dialect .none).run = .ok sent →
      ((e.connection.scalar sent).run session.state).1.result =
        .ok (firstNumber? (t.eval db .top))) :
    ∃ counted found,
      ((e.count s).run.run session).1 = .ok counted ∧
      ((e.hasRows s).run.run session).1 = .ok found ∧
      (counted = (s.unpaged.eval db .top).length ↔
        (s.groupBy = [] ∧ s.having = none) ∨
          Select.firstGroupSize (s.groups db .top) = (s.groups db .top).length) ∧
      ((found = true ↔ (s.unpaged.eval db .top).length ≠ 0) ↔
        ¬ (s.decided? = some false ∧ s.HasEmptyGroup db .top)) := by
  rw [Select.length_eval_unpaged, ← Select.firstGroupSize_toCount_iff hplain]
  by_cases hnever : s.decided? = some false
  · have hfilter := Predicate.decided?_eq_false hnever
    refine ⟨0, false, by rw [count_of_never hnever], by rw [hasRows_of_never hnever], ?_, ?_⟩
    · rw [Select.firstGroupSize_of_never (s := s.toCount none) hfilter]
    · rw [Select.length_groups_ne_zero_iff hfilter]
      simp [hnever]
  · obtain ⟨⟨asked, hcount⟩, tested, hexists⟩ :=
      Select.exists_toCount_toExists hsource rfl hrender
    have hcounted := count_result hnever
      (scalar_result hcount (hscalar _ List.mem_cons_self _ hcount))
    have hfound := hasRows_result hnever
      (scalar_result hexists (hscalar _ (List.mem_cons_of_mem _ List.mem_cons_self) _ hexists))
    rw [Select.toCount_firstNumber hsize] at hcounted
    rw [Select.firstNumber_toExists hplain] at hfound
    refine ⟨_, _, hcounted, hfound, Iff.rfl, ?_⟩
    have hsent : ¬ (s.decided? = some false ∧ s.HasEmptyGroup db .top) := fun h => hnever h.1
    rw [iff_true_right hsent, Option.elim_some, not_same_zero, Bool.not_eq_true',
      List.isEmpty_eq_false_iff, ← List.length_pos_iff, Nat.pos_iff_ne_zero]

namespace Sample

/-- The members with their kinds: three cats and a dog. -/
def pets : Database :=
  .plain fun
    | "members" => ["cat", "cat", "dog", "cat"].map fun kind name =>
        if name = "kind" then some (.string kind) else none
    | _ => []

/-- The members that are cats. -/
def cats : Select :=
  (Select.empty.fromTable ⟨⟨"members", .refl true⟩, none⟩).restrictBy
    (.eq (.column ⟨.own, ⟨"kind", .refl true⟩⟩) (.param (.string "cat")))

/-- The kinds of the members. -/
def kinds : Select :=
  ((Select.empty.fromTable ⟨⟨"members", .refl true⟩, none⟩).select
    (.column ⟨.own, ⟨"kind", .refl true⟩⟩) none).groupedBy (.column ⟨.own, ⟨"kind", .refl true⟩⟩)

/-- A database that is asked for the cats in the two ways of asking for a number. -/
def petServer : Executor Unit (List Value) where
  connection :=
    { dialect := .mysql
      query := fun _ => return ⟨.ok (cats.eval pets .top), 0⟩
      scalar := fun sent =>
        return ⟨.ok (firstNumber?
          (if sent.text = "SELECT COUNT(*) AS c FROM members WHERE members.kind = ?" then
            (cats.toCount none).eval pets .top
          else cats.toExists.eval pets .top)), 0⟩
      execute := fun _ => return ⟨.ok 0, 0⟩
      plan := fun _ => return .ok [] }
  diagnostics := none

/-- A script that replies the number which the database gives for a statement. -/
def numbers (s : Select) : Session (Script (List Value)) :=
  ⟨⟨[{ scalar := firstNumber? (s.eval pets .top) }], []⟩, none⟩

end Sample

open Sample in
/-- The cats are counted. -/
theorem count_hasRows_iff_cats :
    ∃ counted found,
      ((petServer.count cats).run.run ⟨(), none⟩).1 = .ok counted ∧
      ((petServer.hasRows cats).run.run ⟨(), none⟩).1 = .ok found ∧
      counted = (cats.unpaged.eval pets .top).length ∧
      (found = true ↔ (cats.unpaged.eval pets .top).length ≠ 0) := by
  have hrender : (cats.render petServer.connection.dialect .none).run =
      .ok ⟨"SELECT * FROM members WHERE members.kind = ?", [.string "cat"]⟩ := rfl
  have hsize : ∀ g ∈ (cats.toCount none).groups pets .top, g.rows.length < 2 ^ 53 := by
    intro g hg
    obtain rfl := List.mem_singleton.1 hg
    decide
  have hscalar : ∀ t ∈ [cats.toCount none, cats.toExists], ∀ sent,
      (t.render petServer.connection.dialect .none).run = .ok sent →
      ((petServer.connection.scalar sent).run ()).1.result =
        .ok (firstNumber? (t.eval pets .top)) := by
    intro t ht sent hsent
    simp only [List.mem_cons, List.not_mem_nil, or_false] at ht
    obtain rfl | rfl := ht <;> cases hsent <;> rfl
  obtain ⟨counted, found, hcount, hfound, hcounted, htested⟩ :=
    count_hasRows_iff (s := cats) (e := petServer) rfl rfl hrender hsize hscalar
  exact ⟨counted, found, hcount, hfound, hcounted.2 (.inl ⟨rfl, rfl⟩),
    htested.2 fun h => nomatch h.1⟩

open Sample in
/-- There are two kinds, and three members of the first one: the count is 3. -/
theorem count_differs_kinds :
    kinds.source.isSome = true ∧ kinds.items.any (·.expr.aggregates) = false ∧
      (kinds.render .mysql .none).run =
        .ok ⟨"SELECT members.kind FROM members GROUP BY members.kind", []⟩ ∧
      ((replying.count kinds).run.run (numbers (kinds.toCount none))).1 = .ok 3 ∧
      (kinds.unpaged.eval pets .top).length = 2 :=
  ⟨rfl, rfl, rfl, rfl, rfl⟩

end Executor

end FilterSql
