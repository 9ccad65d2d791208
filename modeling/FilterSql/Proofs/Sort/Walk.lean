import FilterSql.Proofs.Sort.Preorder
import FilterSql.Proofs.Sort.Statement

/-!
# Walking through pages

A caller reads one page after the other, each from the request that the last page leads to, until
there is none. `Listing.walk_complete` says that the pages then hold every row once and in order.
What carries the induction is that the rows read so far are the first ones in order, and that the
cursor is that of the last of them.
-/

namespace FilterSql

/-- What pages are read from: the statement and the schemas that they are built from, and the
database that they are read from. -/
structure Listing (Row : Type) where
  limits : Limits
  now : Instant
  schema : Schema
  sorts : SortSchema Row
  base : Select
  db : Database
  env : Env
  /-- The row in memory that is made of a row of the database. -/
  decode : Env → Row

/-- Values that are the same are of one rank. -/
theorem Operand.rank_eq_of_same {a b : Operand} (h : a.same b = true) : a.rank = b.rank := by
  cases a <;> cases b <;> first | rfl | cases h

/-- Operands that the order tells apart are the same only where they are equal. -/
theorem Operand.eq_of_same {a b : Operand} (ha : a.IsExact) (hb : b.IsExact)
    (h : a.same b = true) : a = b := by
  induction ha, hb using IsExact.cases_two with
  | ranks a b _ _ hne => exact absurd (rank_eq_of_same h) hne
  | null => rfl
  | bool x y => simpa [same] using h
  | int x y => simpa [same] using h
  | string x y => simpa [same] using h
  | instant x y => simpa [same] using h

/-- Cursors of rows in one order are equal only where the rows have the same values. -/
theorem Cursor.same_of_mem {Row : Type} {rules : List (SortTerm × SortRule Row)} {a b : Row}
    (h : Cursor.same ⟨rules.map fun key => (key.1.key, key.2.value a)⟩
      ⟨rules.map fun key => (key.1.key, key.2.value b)⟩ = true)
    {key : SortTerm × SortRule Row} (hkey : key ∈ rules) :
    (key.2.value a).same (key.2.value b) = true := by
  induction rules with
  | nil => cases hkey
  | cons first rest ih =>
      simp only [Cursor.same, List.map_cons, Cursor.sameFields, Bool.and_eq_true] at h
      rcases List.mem_cons.1 hkey with rfl | hkey
      · exact h.1.2
      · exact ih h.2 hkey

namespace Listing

variable {Row : Type} {l : Listing Row} {p q : PageRequest}

/-- The rows of a page. -/
def page (l : Listing Row) (p : PageRequest) : Except PageError (List Env) :=
  (p.select l.limits l.now l.schema l.sorts l.base).map (·.run l.db l.env)

/-- The pages that are read from a request on. -/
inductive Walk (l : Listing Row) : PageRequest → List (List Env) → Prop where
  | last {p : PageRequest} {rows : List Env} (hpage : l.page p = .ok rows)
      (hnext : p.next? l.sorts (rows.map l.decode) = .ok none) : Walk l p [rows]
  | more {p q : PageRequest} {rows : List Env} {pages : List (List Env)}
      (hpage : l.page p = .ok rows)
      (hnext : p.next? l.sorts (rows.map l.decode) = .ok (some q)) (hrest : Walk l q pages) :
      Walk l p (rows :: pages)

/-- There is only one way to walk. -/
theorem Walk.unique {pages others : List (List Env)} (h : l.Walk p pages)
    (hother : l.Walk p others) : others = pages := by
  induction h generalizing others with
  | last hpage hnext =>
      cases hother with
      | last hpage' => rw [Except.ok.inj (hpage.symm.trans hpage')]
      | more hpage' hnext' =>
          obtain rfl := Except.ok.inj (hpage.symm.trans hpage')
          cases hnext.symm.trans hnext'
  | more hpage hnext _ ih =>
      cases hother with
      | last hpage' hnext' =>
          obtain rfl := Except.ok.inj (hpage.symm.trans hpage')
          cases hnext.symm.trans hnext'
      | more hpage' hnext' hrest' =>
          obtain rfl := Except.ok.inj (hpage.symm.trans hpage')
          obtain rfl := Option.some.inj (Except.ok.inj (hnext.symm.trans hnext'))
          rw [ih hrest']

/-- A request whose rows can be told apart and are ordered in the database as in memory; `all` is
the statement on all of its rows. -/
structure Ordered (l : Listing Row) (p : PageRequest) (all : Select) : Prop where
  unpaged : ∃ filter, p.filter.compile l.limits l.now l.schema = .ok filter ∧
    l.sorts.apply (l.base.restrict filter) p.sort = .ok all
  /-- The statement that pages are made from has no order and is not cut. -/
  orderBy : l.base.orderBy = []
  limit : l.base.limit = none
  offset : l.base.offset = none
  keepsDirection : ∀ key rule, l.sorts.get? key = some rule → rule.KeepsDirection
  fits : ∀ resolved, l.sorts.resolve p.sort = .ok resolved →
    l.sorts.Fits l.db l.decode (· ∈ all.joinedRows l.db l.env) resolved
  /-- No two rows have the same value for the tie-break. -/
  distinct : ∀ rule, l.sorts.get? l.sorts.tieBreak = some rule →
    ((all.joinedRows l.db l.env).map fun row => rule.value (l.decode row)).Nodup

variable {all : Select} {resolved : List SortTerm} {rules : List (SortTerm × SortRule Row)}
  {a b : Env}

/-- The cursor of a row in an order of some keys. -/
def cursorAt (l : Listing Row) (rules : List (SortTerm × SortRule Row)) (row : Env) : Cursor :=
  ⟨rules.map fun key => (key.1.key, key.2.value (l.decode row))⟩

/-- The request for the page behind the rows that have been read. -/
def requestAfter (l : Listing Row) (p : PageRequest) (rules : List (SortTerm × SortRule Row))
    (done : List Env) : PageRequest :=
  { p with cursor := done.getLast?.map (l.cursorAt rules) }

/-! ## The order of all rows -/

namespace Ordered

variable (h : l.Ordered p all) (hsort : l.sorts.resolve p.sort = .ok resolved)
  (hrules : l.sorts.HasRules resolved rules)

include h hsort hrules

/-- The statement on all rows has the terms of the order, and it is not cut. -/
theorem statement :
    all.orderBy = SortSchema.termsOf rules ∧ all.limit = none ∧ all.offset = none := by
  obtain ⟨filter, -, hall⟩ := h.unpaged
  rw [SortSchema.apply_eq hsort hrules] at hall
  cases hall
  refine ⟨?_, h.limit, h.offset⟩
  show l.base.orderBy ++ _ = _
  rw [h.orderBy, List.nil_append]

/-- The statement orders its rows as they are ordered in memory. -/
theorem compareRows_eq (ha : a ∈ all.joinedRows l.db l.env) (hb : b ∈ all.joinedRows l.db l.env) :
    Select.compareRows l.db all.orderBy a b =
      SortSchema.compareBy rules (l.decode a) (l.decode b) := by
  rw [(h.statement hsort hrules).1]
  exact SortSchema.compareRows_eq_compareBy ((h.fits resolved hsort).each hrules)
    (fun key hkey => h.keepsDirection _ _ (hrules.get? key hkey)) ha hb

/-- The values of a row for the keys are told apart from all others by the order. -/
theorem exact (ha : a ∈ all.joinedRows l.db l.env) : SortSchema.Exact rules (l.decode a) :=
  fun key hkey => ((h.fits resolved hsort).each hrules key hkey).exact a ha

/-- Different rows have different values for one of the keys, the tie-break. -/
theorem tieBreak_ne :
    ∃ key ∈ rules,
      ((all.joinedRows l.db l.env).map fun row => key.2.value (l.decode row)).Nodup := by
  obtain ⟨term, hterm, hkey⟩ := (SortSchema.isResolved_of_resolve hsort).tieBreak
  rw [← hrules.terms] at hterm
  obtain ⟨key, hmem, rfl⟩ := List.mem_map.1 hterm
  exact ⟨key, hmem, h.distinct key.2 (hkey ▸ hrules.get? key hmem)⟩

/-- No row is joined twice. -/
theorem nodup : (all.joinedRows l.db l.env).Nodup := by
  obtain ⟨key, -, hnodup⟩ := h.tieBreak_ne hsort hrules
  exact hnodup.of_map

/-- Every two of the rows are in a strict order. -/
theorem strictOn :
    StrictOn (Select.compareRows l.db all.orderBy) (· ∈ all.joinedRows l.db l.env) where
  asymm ha hb hlt := by
    rw [h.compareRows_eq hsort hrules ha hb] at hlt
    rw [h.compareRows_eq hsort hrules hb ha, SortSchema.compareBy_swap, hlt]
    decide
  trans ha hb hc hab hbc := by
    rw [h.compareRows_eq hsort hrules ha hb] at hab
    rw [h.compareRows_eq hsort hrules hb hc] at hbc
    rw [h.compareRows_eq hsort hrules ha hc]
    exact SortSchema.compareBy_trans (h.exact hsort hrules ha) (h.exact hsort hrules hb)
      (h.exact hsort hrules hc) hab hbc
  total {a b} ha hb hne := by
    rw [h.compareRows_eq hsort hrules ha hb, h.compareRows_eq hsort hrules hb ha,
      SortSchema.compareBy_swap rules (l.decode b)]
    -- different rows differ in the tie-break, so they do not tie for all keys
    obtain ⟨key, hkey, hnodup⟩ := h.tieBreak_ne hsort hrules
    have hapart := mt (SortSchema.compareBy_eq_iff (h.exact hsort hrules ha)
      (h.exact hsort hrules hb)).1 fun hsame =>
        hne (List.inj_on_of_nodup_map hnodup ha hb (hsame key hkey))
    revert hapart
    cases SortSchema.compareBy rules (l.decode a) (l.decode b) <;> simp

/-- The rows of the statement are the matched ones, sorted. -/
theorem run_eq :
    all.run l.db l.env =
      stableSort (Select.compareRows l.db all.orderBy) (all.matched l.db l.env) := by
  obtain ⟨-, hlimit, hoffset⟩ := h.statement hsort hrules
  rw [Select.run, hlimit, hoffset]
  rfl

omit h hsort hrules in
/-- A matched row is one of the joined rows. -/
theorem mem_joinedRows_of_matched (ha : a ∈ all.matched l.db l.env) :
    a ∈ all.joinedRows l.db l.env :=
  List.mem_of_mem_filter ha

/-- No row is matched twice. -/
theorem nodup_matched : (all.matched l.db l.env).Nodup :=
  (h.nodup hsort hrules).filter _

/-- The matched rows are strictly ordered. -/
theorem strictOn_matched :
    StrictOn (Select.compareRows l.db all.orderBy) (· ∈ all.matched l.db l.env) :=
  (h.strictOn hsort hrules).mono fun _ => mem_joinedRows_of_matched

/-- A row of the statement is one of the joined rows. -/
theorem mem_joinedRows_of_run (ha : a ∈ all.run l.db l.env) : a ∈ all.joinedRows l.db l.env := by
  rw [h.run_eq hsort hrules, mem_stableSort] at ha
  exact mem_joinedRows_of_matched ha

/-- The rows of the statement ascend. -/
theorem ascending_run :
    Ascending (Select.compareRows l.db all.orderBy) (all.run l.db l.env) := by
  rw [h.run_eq hsort hrules]
  exact stableSort_ascending (h.nodup_matched hsort hrules) (h.strictOn_matched hsort hrules)

/-- No row of the statement stands twice. -/
theorem nodup_run : (all.run l.db l.env).Nodup := by
  rw [h.run_eq hsort hrules]
  exact (stableSort_perm _).nodup_iff.2 (h.nodup_matched hsort hrules)

/-- The rows that are behind a row in order are those that come after it in memory. -/
theorem sort_after {done rest : List Env} {row : Env}
    (hrun : all.run l.db l.env = (done ++ [row]) ++ rest) {beyond : Predicate}
    (hbeyond : ∀ b ∈ all.joinedRows l.db l.env, (beyond.truth l.db b = .holds ↔
      SortSchema.compareBy rules (l.decode row) (l.decode b) = .lt)) :
    stableSort (Select.compareRows l.db all.orderBy) ((all.matched l.db l.env).filter fun b =>
      beyond.truth l.db b = .holds) = rest := by
  have hrow : row ∈ all.joinedRows l.db l.env :=
    h.mem_joinedRows_of_run hsort hrules (by simp [hrun])
  have hfilter : (all.matched l.db l.env).filter (fun b => beyond.truth l.db b = .holds) =
      (all.matched l.db l.env).filter fun b =>
        Select.compareRows l.db all.orderBy row b = .lt := by
    refine List.filter_congr fun b hb => ?_
    have hb := mem_joinedRows_of_matched hb
    rw [decide_eq_decide, hbeyond b hb, h.compareRows_eq hsort hrules hrow hb]
  have hsplit : all.run l.db l.env = done ++ row :: rest := by
    rw [hrun, List.append_assoc, List.singleton_append]
  rw [hfilter, stableSort_filter (h.nodup_matched hsort hrules) (h.strictOn_matched hsort hrules),
    ← h.run_eq hsort hrules, hsplit]
  refine Ascending.filter_after ((h.strictOn hsort hrules).mono fun b hb => ?_) ?_
  · exact h.mem_joinedRows_of_run hsort hrules (hsplit ▸ hb)
  · exact hsplit ▸ h.ascending_run hsort hrules

/-! ## One page -/

/-- The page behind the rows read so far holds the next ones. -/
theorem page_after {done rest : List Env} (hrun : all.run l.db l.env = done ++ rest) :
    l.page (l.requestAfter p rules done) = .ok (rest.take p.limit) := by
  obtain ⟨filter, hfilter, hall⟩ := h.unpaged
  have hoffset := (h.statement hsort hrules).2.2
  have hpage : ∀ beyond : Predicate, beyond.joinSteps l.db = [] →
      PageRequest.beyond l.sorts resolved (l.requestAfter p rules done).cursor = .ok beyond →
      stableSort (Select.compareRows l.db all.orderBy) ((all.matched l.db l.env).filter fun b =>
        beyond.truth l.db b = .holds) = rest →
      l.page (l.requestAfter p rules done) = .ok (rest.take p.limit) := by
    intro beyond hjoins hbeyond hrest
    have hselect := PageRequest.select_eq
      (show l.sorts.resolve (l.requestAfter p rules done).sort = .ok resolved from hsort) hrules
      hfilter hall hbeyond
    rw [page, hselect]
    refine congrArg Except.ok ((PageRequest.run_page hoffset hjoins).trans ?_)
    rw [hrest]
    rfl
  -- the cursor is that of the last row read, if there is one
  rcases List.eq_nil_or_concat done with rfl | ⟨before, last, rfl⟩
  · refine hpage .always rfl rfl ?_
    have hall : (all.matched l.db l.env).filter (fun b =>
        Predicate.always.truth l.db b = .holds) = all.matched l.db l.env :=
      List.filter_eq_self.2 fun _ _ => decide_eq_true rfl
    rw [hall, ← h.run_eq hsort hrules, hrun, List.nil_append]
  · have hlast : last ∈ all.joinedRows l.db l.env :=
      h.mem_joinedRows_of_run hsort hrules (by simp [hrun])
    obtain ⟨beyond, hbeyond, hjoins, htruth⟩ :=
      PageRequest.beyond_ofRow hrules (h.fits resolved hsort) hlast
    refine hpage beyond hjoins ?_ (h.sort_after hsort hrules (by simpa using hrun) htruth)
    simpa [requestAfter, cursorAt] using hbeyond

/-- The cursors of two rows differ. -/
theorem cursorAt_ne {a b : Env} (ha : a ∈ all.joinedRows l.db l.env)
    (hb : b ∈ all.joinedRows l.db l.env) (hne : a ≠ b) :
    (l.cursorAt rules a == l.cursorAt rules b) = false := by
  obtain ⟨key, hkey, hnodup⟩ := h.tieBreak_ne hsort hrules
  have hexact := (h.fits resolved hsort).each hrules key hkey
  rw [← Bool.not_eq_true]
  intro hsame
  have hvalue := Cursor.same_of_mem hsame hkey
  exact hne (List.inj_on_of_nodup_map hnodup ha hb
    (Operand.eq_of_same (hexact.exact a ha) (hexact.exact b hb) hvalue))

/-- The cursor moves on with every row that is read, so the walk does not stop early. -/
theorem cursor_moves {done rest : List Env} (hrun : all.run l.db l.env = done ++ rest) {last : Env}
    (hlast : last ∈ rest) {old : Cursor}
    (hold : (l.requestAfter p rules done).cursor = some old) :
    (old == l.cursorAt rules last) = false := by
  rcases List.eq_nil_or_concat done with rfl | ⟨earlier, row, rfl⟩
  · cases hold
  · obtain rfl : l.cursorAt rules row = old := by simpa [requestAfter] using hold
    refine h.cursorAt_ne hsort hrules ?_ ?_ ?_
    · exact h.mem_joinedRows_of_run hsort hrules (by simp [hrun])
    · exact h.mem_joinedRows_of_run hsort hrules (by simp [hrun, hlast])
    · -- the rows read so far and those still to be read are different ones
      have hnodup := h.nodup_run hsort hrules
      rw [hrun] at hnodup
      exact (List.nodup_append.1 hnodup).2.2 row (by simp) last hlast

/-- What is asked for behind a page: the rows behind it, if the page is full. -/
theorem next_after {done rest : List Env} (hrun : all.run l.db l.env = done ++ rest)
    (hlimit : 1 ≤ p.limit) :
    (l.requestAfter p rules done).next? l.sorts ((rest.take p.limit).map l.decode) =
      .ok (if rest.length < p.limit then none
        else some (l.requestAfter p rules (done ++ rest.take p.limit))) := by
  rcases List.eq_nil_or_concat (rest.take p.limit) with hnil | ⟨before, last, hlast⟩
  · -- an empty page has no last row to go on from, and there is nothing behind it
    obtain rfl : rest = [] := by
      rcases List.take_eq_nil_iff.1 hnil with h0 | hrest
      · omega
      · exact hrest
    have hshort : ([] : List Env).length < p.limit := hlimit
    rw [if_pos hshort]
    simp [PageRequest.next?]
  · have hgetLast : ((rest.take p.limit).map l.decode).getLast? = some (l.decode last) := by
      simp [hlast]
    have hfull : ((rest.take p.limit).map l.decode).length < p.limit ↔ rest.length < p.limit := by
      rw [List.length_map, List.length_take]
      omega
    have hmem : last ∈ rest.take p.limit := by simp [hlast]
    have hnew : l.requestAfter p rules (done ++ rest.take p.limit) =
        { p with cursor := some (l.cursorAt rules last) } := by
      simp [requestAfter, hlast]
    unfold PageRequest.next?
    rw [hgetLast]
    by_cases hshort : rest.length < p.limit
    · rw [if_pos hshort]
      exact if_pos (hfull.2 hshort)
    · rw [if_neg hshort, hnew]
      refine (if_neg (mt hfull.1 hshort)).trans ?_
      show (Cursor.ofRow l.sorts (l.decode last) p.sort >>= _) = _
      rw [Keyset.ofRow_eq hsort hrules]
      cases hcursor : (l.requestAfter p rules done).cursor with
      | none => rfl
      | some old =>
          have hmoves := h.cursor_moves hsort hrules hrun (List.mem_of_mem_take hmem) hcursor
          exact congrArg Except.ok (if_neg (Bool.eq_false_iff.1 hmoves))

end Ordered

/-- From the rows read so far the walk goes on through the rows that are left. -/
theorem walk_after (h : l.Ordered p all) (hsort : l.sorts.resolve p.sort = .ok resolved)
    (hrules : l.sorts.HasRules resolved rules) (hlimit : 1 ≤ p.limit) {done rest : List Env}
    (hrun : all.run l.db l.env = done ++ rest) :
    ∃ pages, l.Walk (l.requestAfter p rules done) pages ∧
      pages.length = rest.length / p.limit + 1 ∧ pages.flatten = rest := by
  -- a full page takes at least one of the rows that are left
  induction hn : rest.length using Nat.strong_induction_on generalizing done rest with
  | h n ih =>
      have hpage := h.page_after hsort hrules hrun
      have hnext := h.next_after hsort hrules hrun hlimit
      by_cases hshort : rest.length < p.limit
      · rw [if_pos hshort] at hnext
        refine ⟨_, .last hpage hnext, ?_, ?_⟩
        · rw [← hn, Nat.div_eq_of_lt hshort]
          rfl
        · simp [List.take_of_length_le (Nat.le_of_lt hshort)]
      · rw [if_neg hshort] at hnext
        have hrun' : all.run l.db l.env = (done ++ rest.take p.limit) ++ rest.drop p.limit := by
          rw [hrun, List.append_assoc, List.take_append_drop]
        have hlength : (rest.drop p.limit).length = rest.length - p.limit := List.length_drop
        obtain ⟨pages, hwalk, hcount, hflatten⟩ :=
          ih (rest.length - p.limit) (by omega) hrun' hlength
        refine ⟨_, .more hpage hnext hwalk, ?_, ?_⟩
        · rw [List.length_cons, hcount, ← hn,
            Nat.div_eq_sub_div hlimit (Nat.le_of_not_lt hshort)]
        · rw [List.flatten_cons, hflatten, List.take_append_drop]

/-- Walking from a request without a cursor reads `n / limit + 1` pages, where `n` is the number of
rows that match, and they hold these rows once each and in order. -/
theorem walk_complete (h : l.Ordered p all) (hstart : p.cursor = none) (hlimit : 1 ≤ p.limit) :
    ∃ pages, (∀ others, l.Walk p others ↔ others = pages) ∧
      pages.length = (all.matched l.db l.env).length / p.limit + 1 ∧
      pages.flatten = all.run l.db l.env := by
  obtain ⟨filter, -, hall⟩ := h.unpaged
  obtain ⟨resolved, hsort⟩ := SortSchema.resolve_of_apply hall
  obtain ⟨rules, hrules⟩ :=
    SortSchema.exists_hasRules (SortSchema.isResolved_of_resolve hsort).known
  have hrequest : l.requestAfter p rules [] = p := by
    obtain ⟨_, _, _, _⟩ := p
    cases hstart
    rfl
  obtain ⟨pages, hwalk, hcount, hflatten⟩ :=
    walk_after h hsort hrules hlimit (List.nil_append (all.run l.db l.env)).symm
  rw [hrequest] at hwalk
  refine ⟨pages, fun others => ⟨hwalk.unique, fun heq => heq ▸ hwalk⟩, ?_, hflatten⟩
  rw [hcount, h.run_eq hsort hrules, length_stableSort]

namespace Sample

open SortSchema.Sample

/-- The persons by name, the last one first. -/
def persons : Listing Person where
  limits := {}
  now := default
  schema := .empty
  sorts := people
  base := Select.empty.fromTable ⟨⟨"people", .refl true⟩, none⟩
  db := database
  env := .top
  decode := Person.ofRow

/-- The first page of one person, by falling names. -/
def request : PageRequest :=
  { PageRequest.first {} with
    sort := [⟨"name", .desc⟩]
    limit := 1 }

/-- The statement on all persons. -/
def everyone : Select :=
  { persons.base with
    orderBy :=
      [⟨.column ⟨.own, ⟨"name", .refl true⟩⟩, .desc⟩, ⟨.column ⟨.own, ⟨"id", .refl true⟩⟩, .asc⟩] }

/-- The persons are ordered in the database as in memory. -/
theorem persons_ordered : persons.Ordered request everyone where
  unpaged := ⟨.always, rfl, rfl⟩
  orderBy := rfl
  limit := rfl
  offset := rfl
  keepsDirection key rule hrule := by
    rcases List.mem_pair.1 (SortSchema.mem_rules_of_get? hrule) with h | h
    · obtain ⟨-, rfl⟩ := Prod.mk.inj h
      exact fun _ => rfl
    · obtain ⟨-, rfl⟩ := Prod.mk.inj h
      exact fun _ => rfl
  fits resolved _ term hterm rule hrule := by
    refine (fits _ resolved term hterm rule hrule).mono fun row hrow => ?_
    have hrow : row ∈ [anonymous.row, ada.row] := hrow
    rcases List.mem_pair.1 hrow with rfl | rfl
    · exact ⟨anonymous, rfl⟩
    · exact ⟨ada, rfl⟩
  distinct rule hrule := by
    cases hrule
    show [Operand.int 1, Operand.int 2].Nodup
    simp

end Sample

open Sample in
/-- The walk has three pages, as there are two persons. -/
theorem walk_complete_persons :
    persons.Ordered request everyone ∧ request.cursor = none ∧ 1 ≤ request.limit ∧
      ∃ pages, (∀ others, persons.Walk request others ↔ others = pages) ∧
        pages.length = (everyone.matched persons.db persons.env).length / request.limit + 1 ∧
        pages.flatten = everyone.run persons.db persons.env :=
  ⟨persons_ordered, rfl, by decide, walk_complete persons_ordered rfl (by decide)⟩

end Listing

end FilterSql
