import FilterSql.Proofs.Sort.Succession
import FilterSql.Proofs.Sort.Walk
import Mathlib.Data.List.Nodup
import Mathlib.Data.List.Perm.Subperm

/-!
# Walks that end

The rules of a sort schema may take other values from a row than the database orders by, so pages
can lead back to a request that was there before, and then they never end. `Listing.ends_iff` says
that this is the only way: every request behind the first has the cursor of one of finitely many
rows. The check of `PageRequest.next?` that the cursor moves keeps a request from leading to itself,
unless its cursor holds a NaN. So the pages end where no page brings rows back that were left behind
(`Listing.ends_of_narrows`), but not on a way round of two requests.
-/

namespace FilterSql

variable {Row : Type}

/-- No value of a row is a NaN. -/
def SortSchema.Reflexive (s : SortSchema Row) : Prop :=
  ∀ key rule, s.get? key = some rule → ∀ row, (rule.value row).same (rule.value row) = true

namespace PageRequest

/-- The request with another cursor. -/
def withCursor (p : PageRequest) (cursor : Option Cursor) : PageRequest :=
  { p with cursor }

/-- The cursor of the next request differs from that of this one. -/
theorem moves_of_next {sorts : SortSchema Row} {p next : PageRequest} {rows : List Row}
    {old cursor : Cursor} (h : p.next? sorts rows = .ok (some next)) (hold : p.cursor = some old)
    (hcursor : next.cursor = some cursor) : (old == cursor) = false := by
  unfold next? at h
  split at h
  · cases h
  · split at h
    · cases h
    obtain ⟨new, -, h⟩ := bind_eq_ok.1 h
    obtain ⟨hmoves, hnext⟩ := Option.ite_none_left_eq_some.1 (Except.ok.inj h)
    obtain rfl := Option.some.inj hnext
    obtain rfl := Option.some.inj hcursor
    simpa [hold] using hmoves

/-- No join is needed to find the rows behind a cursor. -/
theorem joinSteps_beyond {sorts : SortSchema Row} {sort : List SortTerm} {cursor : Option Cursor}
    {db : Database} {predicate : Predicate} (h : beyond sorts sort cursor = .ok predicate) :
    predicate.joinSteps db = [] := by
  unfold beyond at h
  split at h
  · cases h
    rfl
  next cursor =>
    obtain ⟨keyset, -, h⟩ := bind_eq_ok.1 h
    obtain ⟨condition, hcondition, h⟩ := bind_eq_ok.1 h
    split at h
    · cases h
      rfl
    · cases h
      obtain ⟨keys, -, hkeys⟩ := bind_eq_ok.1 (mapError_eq_ok.1 hcondition)
      cases hkeys
      exact Keyset.joinSteps_anyOf (Keyset.joinSteps_branches _ (by simp) keys)

end PageRequest

namespace Listing

variable {l : Listing Row} {p q r : PageRequest} {m n : Nat}

/-! ## One request after the other -/

/-- The request for the page behind that of a request. There is none behind the last page, or behind
one that cannot be read. -/
def turn? (l : Listing Row) (p : PageRequest) : Option PageRequest :=
  match l.page p with
  | .ok rows => (p.next? l.sorts (rows.map l.decode)).toOption.join
  | .error _ => none

/-- The request behind a number of pages. -/
def turns (l : Listing Row) : Nat → PageRequest → Option PageRequest
  | 0, p => some p
  | n + 1, p => (l.turn? p).bind (l.turns n)

/-- The pages from a request on come to an end. -/
def Ends (l : Listing Row) (p : PageRequest) : Prop :=
  ∃ n, l.turns n p = none

/-- There is a next request if the page can be read and is not the last. -/
theorem turn?_eq_some :
    l.turn? p = some q ↔
      ∃ rows, l.page p = .ok rows ∧ p.next? l.sorts (rows.map l.decode) = .ok (some q) := by
  unfold turn?
  cases l.page p with
  | error e => simp
  | ok rows =>
    cases hnext : p.next? l.sorts (rows.map l.decode) with
    | error e => simp [hnext, Except.toOption]
    | ok next => cases next <;> simp [hnext, Except.toOption]

/-- The request behind some pages and others is found in two turns. -/
theorem turns_add (m n : Nat) (p : PageRequest) :
    l.turns (m + n) p = (l.turns m p).bind (l.turns n) := by
  induction m generalizing p with
  | zero => rw [Nat.zero_add, turns, Option.bind_some]
  | succ m ih =>
    rw [Nat.succ_add, turns, turns]
    cases l.turn? p with
    | none => rfl
    | some q => exact ih q

/-- Behind the end there is nothing. -/
theorem turns_none_of_le (h : l.turns m p = none) (hle : m ≤ n) : l.turns n p = none := by
  obtain ⟨k, rfl⟩ := Nat.exists_eq_add_of_le hle
  rw [turns_add, h, Option.bind_none]

/-- A request that leads to itself does so again and again. -/
theorem turns_mul (h : l.turns n p = some p) (k : Nat) : l.turns (k * n) p = some p := by
  induction k with
  | zero => rw [Nat.zero_mul, turns]
  | succ k ih => rw [Nat.succ_mul, turns_add, ih, Option.bind_some, h]

/-- Where a request comes back the pages do not end. -/
theorem not_ends_of_return {i j : Nat} (hij : i < j) (hi : l.turns i p = some q)
    (hj : l.turns j p = some q) : ¬ l.Ends p := by
  rintro ⟨n, hn⟩
  have hround : l.turns (j - i) q = some q := by
    rw [← hj, ← Nat.add_sub_of_le hij.le, turns_add, hi, Option.bind_some, Nat.add_sub_cancel_left]
  have hagain : l.turns (i + n * (j - i)) p = some q := by
    rw [turns_add, hi, Option.bind_some, turns_mul hround]
  have hlate : n ≤ i + n * (j - i) :=
    (Nat.le_mul_of_pos_right n (Nat.sub_pos_of_lt hij)).trans (Nat.le_add_left _ _)
  cases hagain.symm.trans (turns_none_of_le hn hlate)

/-! ## The rows that pages are made from -/

/-- The rows that a request has left: those that it matches behind its cursor. -/
def left (l : Listing Row) (p : PageRequest) : Except PageError (List Env) :=
  (p.select l.limits l.now l.schema l.sorts l.base).map (·.matched l.db l.env)

/-- What the requests of a walk share: the order, and the statement on all rows. -/
structure Listed (l : Listing Row) (p : PageRequest) (rules : List (SortTerm × SortRule Row))
    (all : Select) : Prop where
  order : ∃ resolved, l.sorts.resolve p.sort = .ok resolved ∧ l.sorts.HasRules resolved rules
  unpaged : ∃ filter, p.filter.compile l.limits l.now l.schema = .ok filter ∧
    l.sorts.apply (l.base.restrict filter) p.sort = .ok all

/-- A request that can be made into a statement has an order and a statement on all rows. -/
theorem exists_listed {select : Select}
    (h : p.select l.limits l.now l.schema l.sorts l.base = .ok select) :
    ∃ rules all, l.Listed p rules all := by
  obtain ⟨resolved, filter, -, hsort, hfilter, -⟩ := PageRequest.exists_select_iff.1 ⟨select, h⟩
  obtain ⟨rules, hrules⟩ :=
    SortSchema.exists_hasRules (SortSchema.isResolved_of_resolve hsort).known
  exact ⟨rules, _, ⟨resolved, hsort, hrules⟩, filter, hfilter, SortSchema.apply_eq hsort hrules _⟩

/-- The rows of a page where some rows are left: the first ones in order. -/
def firstOf (l : Listing Row) (p : PageRequest) (all : Select) (rows : List Env) : List Env :=
  window (some p.limit) all.offset (stableSort (Select.compareRows l.db all.orderBy) rows)

namespace Listed

variable {rules : List (SortTerm × SortRule Row)} {all : Select} {cursor : Option Cursor}
  {rows : List Env}

/-- The rows that are left are some of all rows, and the page holds the first of them. -/
theorem page_eq (h : l.Listed p rules all) (hleft : l.left (p.withCursor cursor) = .ok rows) :
    (∃ keeps : Env → Bool, rows = (all.matched l.db l.env).filter keeps) ∧
      l.page (p.withCursor cursor) = .ok (l.firstOf p all rows) := by
  obtain ⟨resolved, hsort, hrules⟩ := h.order
  obtain ⟨filter, hfilter, hall⟩ := h.unpaged
  obtain ⟨select, hselect, hrows⟩ := map_eq_ok.1 hleft
  obtain ⟨resolved', _, beyond, hsort', -, hbeyond⟩ :=
    PageRequest.exists_select_iff.1 ⟨select, hselect⟩
  obtain rfl := Except.ok.inj (hsort.symm.trans hsort')
  have hstatement := PageRequest.select_eq
    (show l.sorts.resolve (p.withCursor cursor).sort = .ok resolved from hsort) hrules
    hfilter hall hbeyond
  have hmatched : rows = (all.matched l.db l.env).filter fun row =>
      beyond.truth l.db row = .holds := by
    rw [← hrows, ← Except.ok.inj (hstatement.symm.trans hselect),
      ← Select.matched_restrict (PageRequest.joinSteps_beyond hbeyond)]
    rfl
  refine ⟨⟨_, hmatched⟩, ?_⟩
  rw [page, hstatement, hmatched, ← Select.matched_restrict (PageRequest.joinSteps_beyond hbeyond)]
  rfl

/-- Without a cursor all rows are left. -/
theorem left_none (h : l.Listed p rules all) :
    l.left (p.withCursor none) = .ok (all.matched l.db l.env) := by
  obtain ⟨resolved, hsort, hrules⟩ := h.order
  obtain ⟨filter, hfilter, hall⟩ := h.unpaged
  have halways : (all.matched l.db l.env).filter (fun row =>
      Predicate.always.truth l.db row = .holds) = all.matched l.db l.env :=
    List.filter_eq_self.2 fun _ _ => decide_eq_true rfl
  rw [left, PageRequest.select_eq (show l.sorts.resolve (p.withCursor none).sort = .ok resolved
    from hsort) hrules hfilter hall rfl, ← halways, ← Select.matched_restrict rfl]
  rfl

/-- The next request has the cursor of the last row of the page. -/
theorem turn (h : l.Listed p rules all) (hturn : l.turn? (p.withCursor cursor) = some r) :
    ∃ rows last, l.left (p.withCursor cursor) = .ok rows ∧
      (l.firstOf p all rows).getLast? = some last ∧
      r = p.withCursor (some (l.cursorAt rules last)) ∧
      ∀ old, cursor = some old → (old == l.cursorAt rules last) = false := by
  obtain ⟨page, hpage, hnext⟩ := turn?_eq_some.1 hturn
  obtain ⟨select, hselect, -⟩ := map_eq_ok.1 hpage
  have hleft : l.left (p.withCursor cursor) = .ok (select.matched l.db l.env) := by
    rw [left, hselect]
    rfl
  obtain rfl := Except.ok.inj (hpage.symm.trans (h.page_eq hleft).2)
  obtain ⟨row, new, hrow, hcursor, rfl⟩ := PageRequest.eq_of_next hnext
  obtain ⟨resolved, hsort, hrules⟩ := h.order
  rw [List.getLast?_map] at hrow
  obtain ⟨last, hlast, rfl⟩ := Option.map_eq_some_iff.1 hrow
  have hnew : l.cursorAt rules last = new :=
    Except.ok.inj ((Keyset.ofRow_eq hsort hrules (l.decode last)).symm.trans hcursor)
  refine ⟨_, last, hleft, hlast, by rw [hnew]; rfl, fun old hold => ?_⟩
  exact PageRequest.moves_of_next hnext hold (by rw [hnew])

/-- The last of the first rows is one of the rows. -/
theorem mem_of_firstOf {last : Env} (h : (l.firstOf p all rows).getLast? = some last) :
    last ∈ rows := by
  have hmem := List.mem_of_getLast? h
  unfold firstOf window at hmem
  exact mem_stableSort.1 (List.mem_of_mem_drop (List.mem_of_mem_take hmem))

/-- Every request behind the first has the cursor of one of all rows. -/
theorem turns_succ (h : l.Listed p rules all) (hturns : l.turns (n + 1) p = some r) :
    ∃ row ∈ all.matched l.db l.env, r = p.withCursor (some (l.cursorAt rules row)) := by
  have hstep : ∀ cursor r, l.turn? (p.withCursor cursor) = some r →
      ∃ row ∈ all.matched l.db l.env, r = p.withCursor (some (l.cursorAt rules row)) := by
    intro cursor r hturn
    obtain ⟨rows, last, hleft, hlast, rfl, -⟩ := h.turn hturn
    obtain ⟨keeps, rfl⟩ := (h.page_eq hleft).1
    exact ⟨last, List.mem_of_mem_filter (mem_of_firstOf hlast), rfl⟩
  induction n generalizing r with
  | zero =>
    obtain ⟨q, hq, hr⟩ := Option.bind_eq_some_iff.1 hturns
    cases hr
    exact hstep p.cursor _ hq
  | succ n ih =>
    rw [turns_add] at hturns
    obtain ⟨q, hq, hr⟩ := Option.bind_eq_some_iff.1 hturns
    obtain ⟨row, -, rfl⟩ := ih hq
    obtain ⟨_, hr, hlast⟩ := Option.bind_eq_some_iff.1 hr
    cases hlast
    exact hstep _ _ hr

/-- There are at most as many requests behind the first as there are rows, unless one comes back. -/
theorem turns_eq_none (h : l.Listed p rules all)
    (honce : ∀ i j q, i < j → l.turns i p = some q → l.turns j p ≠ some q) :
    l.turns ((all.matched l.db l.env).length + 1) p = none := by
  by_contra hlong
  -- the requests up to there are different ones, and each has the cursor of some row
  have hsome : ∀ i ≤ (all.matched l.db l.env).length + 1, ∃ q, l.turns i p = some q := by
    intro i hi
    exact Option.ne_none_iff_exists'.1 fun hnone => hlong (turns_none_of_le hnone hi)
  have hnodup : ((List.range ((all.matched l.db l.env).length + 1)).map
      fun i => l.turns (i + 1) p).Nodup := by
    refine List.nodup_range.map_on fun i hi j hj heq => ?_
    obtain ⟨q, hq⟩ := hsome (i + 1) (by have := List.mem_range.1 hi; omega)
    rcases Nat.lt_trichotomy i j with hij | hij | hij
    · exact absurd (heq ▸ hq) (honce _ _ _ (Nat.succ_lt_succ hij) hq)
    · exact hij
    · exact absurd hq (honce _ _ _ (Nat.succ_lt_succ hij) (heq ▸ hq))
  have hsubset : (List.range ((all.matched l.db l.env).length + 1)).map
      (fun i => l.turns (i + 1) p) ⊆
      (all.matched l.db l.env).map fun row =>
        some (p.withCursor (some (l.cursorAt rules row))) := by
    intro turn hturn
    obtain ⟨i, hi, rfl⟩ := List.mem_map.1 hturn
    obtain ⟨q, hq⟩ := hsome (i + 1) (by have := List.mem_range.1 hi; omega)
    obtain ⟨row, hrow, rfl⟩ := h.turns_succ hq
    exact List.mem_map.2 ⟨row, hrow, hq.symm⟩
  have hlength := (List.Nodup.subperm hnodup hsubset).length_le
  rw [List.length_map, List.length_map, List.length_range] at hlength
  omega

end Listed

/-! ## When the pages end -/

/-- A request has no rows left that another one had not. -/
def Narrows (l : Listing Row) (p q : PageRequest) : Prop :=
  ∀ rows rows', l.left p = .ok rows → l.left q = .ok rows' → ∀ row ∈ rows', row ∈ rows

namespace Listed

variable {rules : List (SortTerm × SortRule Row)} {all : Select} {cursor : Option Cursor}
  {rows : List Env}

/-- The cursor of a row is the same as itself where no value is a NaN. -/
theorem cursorAt_same (h : l.Listed p rules all) (hself : l.sorts.Reflexive) (row : Env) :
    (l.cursorAt rules row == l.cursorAt rules row) = true := by
  obtain ⟨resolved, -, hrules⟩ := h.order
  have hget := hrules.get?
  clear hrules h
  show Cursor.sameFields _ _ = true
  unfold cursorAt
  induction rules with
  | nil => rfl
  | cons key rest ih =>
    obtain ⟨hkey, hrest⟩ := List.forall_mem_cons.1 hget
    simp only [List.map_cons, Cursor.sameFields, Bool.and_eq_true]
    exact ⟨⟨beq_self_eq_true _, hself _ _ hkey _⟩, ih hrest⟩

/-- Where the next request has the same rows left it is the last one: its page is the same, too, and
its cursor would stay. -/
theorem turn?_of_left_eq (h : l.Listed p rules all) (hself : l.sorts.Reflexive)
    (hturn : l.turn? (p.withCursor cursor) = some r)
    (hleft : l.left (p.withCursor cursor) = l.left r) :
    l.turn? r = none := by
  obtain ⟨rows, last, hrows, hlast, rfl, -⟩ := h.turn hturn
  cases hnext : l.turn? (p.withCursor (some (l.cursorAt rules last))) with
  | none => rfl
  | some next =>
    obtain ⟨rows', last', hrows', hlast', -, hmoves⟩ := h.turn hnext
    obtain rfl := Except.ok.inj (hrows.symm.trans (hleft.trans hrows'))
    obtain rfl := Option.some.inj (hlast.symm.trans hlast')
    exact absurd (h.cursorAt_same hself last) (Bool.eq_false_iff.1 (hmoves _ rfl))

/-- The rows left at a request that narrows another one are a part of the rows left there. -/
theorem sublist_of_narrows (h : l.Listed p rules all) {cursor' : Option Cursor} {rows' : List Env}
    (hnarrows : l.Narrows (p.withCursor cursor) (p.withCursor cursor'))
    (hrows : l.left (p.withCursor cursor) = .ok rows)
    (hrows' : l.left (p.withCursor cursor') = .ok rows') : rows'.Sublist rows := by
  have hmem := hnarrows rows rows' hrows hrows'
  obtain ⟨keeps, rfl⟩ := (h.page_eq hrows).1
  obtain ⟨keeps', rfl⟩ := (h.page_eq hrows').1
  have hboth : (all.matched l.db l.env).filter keeps' =
      ((all.matched l.db l.env).filter keeps).filter keeps' := by
    rw [List.filter_filter]
    refine List.filter_congr fun row hrow => ?_
    by_cases hkeeps : keeps' row
    · have hrow := hmem row (List.mem_filter.2 ⟨hrow, hkeeps⟩)
      rw [hkeeps, (List.mem_filter.1 hrow).2, Bool.and_self]
    · rw [Bool.eq_false_iff.2 hkeeps, Bool.false_and]
  rw [hboth]
  exact List.filter_sublist

/-- Where every page narrows what is left, a page that takes nothing away is followed by the last
one. -/
theorem turns_of_narrows (h : l.Listed p rules all) (hself : l.sorts.Reflexive) (k : Nat)
    (hrows : l.left (p.withCursor cursor) = .ok rows) (hlength : rows.length ≤ k)
    (hnarrows : ∀ n q r, l.turns n (p.withCursor cursor) = some q → l.turn? q = some r →
      l.Narrows q r) :
    l.turns (k + 2) (p.withCursor cursor) = none := by
  induction k using Nat.strong_induction_on generalizing cursor rows with
  | h k ih =>
    cases hturn : l.turn? (p.withCursor cursor) with
    | none => rw [turns, hturn, Option.bind_none]
    | some r =>
      have hnarrow := hnarrows 0 _ r rfl hturn
      obtain ⟨-, last, -, -, rfl, -⟩ := h.turn hturn
      rw [turns, hturn, Option.bind_some]
      cases hnext : l.turn? (p.withCursor (some (l.cursorAt rules last))) with
      | none => rw [turns, hnext, Option.bind_none]
      | some next =>
        obtain ⟨rows', -, hrows', -⟩ := h.turn hnext
        have hsublist := h.sublist_of_narrows hnarrow hrows hrows'
        by_cases hfewer : rows'.length < rows.length
        · have hrest := ih (k - 1) (by omega) hrows' (by omega) fun n q s hq hs =>
            hnarrows (n + 1) q s (by rw [turns, hturn]; exact hq) hs
          rwa [show k - 1 + 2 = k + 1 by omega] at hrest
        · obtain rfl := hsublist.eq_of_length_le (Nat.le_of_not_lt hfewer)
          cases hnext.symm.trans (h.turn?_of_left_eq hself hturn (hrows.trans hrows'.symm))

end Listed

/-- A request that is not built leads to no other. -/
theorem exists_listed_of_turn (h : l.turn? p = some q) : ∃ rules all, l.Listed p rules all := by
  obtain ⟨_, hpage, -⟩ := turn?_eq_some.1 h
  obtain ⟨select, hselect, -⟩ := map_eq_ok.1 hpage
  exact exists_listed hselect

/-- No request leads to itself. -/
theorem turn?_ne_self (hself : l.sorts.Reflexive) : l.turn? p ≠ some p := by
  intro hturn
  obtain ⟨rules, all, h⟩ := exists_listed_of_turn hturn
  obtain ⟨-, last, -, -, hp, hmoves⟩ := h.turn hturn
  have hcursor : p.cursor = some (l.cursorAt rules last) := congrArg PageRequest.cursor hp
  exact absurd (h.cursorAt_same hself last) (Bool.eq_false_iff.1 (hmoves _ hcursor))

/-- Without NaN a request never leads to itself. -/
theorem turns_succ_ne (hself : l.sorts.Reflexive) (h : l.turns n p = some q) :
    l.turns (n + 1) p ≠ some q := by
  rw [turns_add, h, Option.bind_some]
  intro hnext
  obtain ⟨next, hturn, hlast⟩ := Option.bind_eq_some_iff.1 hnext
  cases hlast
  exact turn?_ne_self hself hturn

/-- The pages from a request on end at once, or they share an order and a statement. -/
theorem ends_or_listed (l : Listing Row) (p : PageRequest) :
    l.turns 1 p = none ∨ ∃ rules all, l.Listed p rules all := by
  cases hturn : l.turn? p with
  | none => exact .inl (by rw [turns, hturn, Option.bind_none])
  | some q => exact .inr (exists_listed_of_turn hturn)

/-- Pages end if no request comes twice. -/
theorem ends_of_once
    (honce : ∀ i j q, i < j → l.turns i p = some q → l.turns j p ≠ some q) : l.Ends p := by
  rcases l.ends_or_listed p with hone | ⟨rules, all, h⟩
  · exact ⟨1, hone⟩
  · exact ⟨_, h.turns_eq_none honce⟩

/-- Pages end where none brings rows back that were left behind. -/
theorem ends_of_narrows (hself : l.sorts.Reflexive)
    (hnarrows : ∀ n q r, l.turns n p = some q → l.turn? q = some r → l.Narrows q r) :
    l.Ends p := by
  cases hturn : l.turn? p with
  | none => exact ⟨1, by rw [turns, hturn, Option.bind_none]⟩
  | some q =>
    obtain ⟨rules, all, h⟩ := exists_listed_of_turn hturn
    obtain ⟨rows, -, hrows, -⟩ := h.turn hturn
    exact ⟨_, h.turns_of_narrows hself rows.length hrows le_rfl hnarrows⟩

/-- The pages from a request on come to an end exactly where no request comes back, and then there
is at most one page more than there are rows. With rules whose values are no NaN no request leads to
itself, and the pages end where none brings back rows that were left behind. -/
theorem ends_iff (l : Listing Row) (p : PageRequest) :
    (l.Ends p ↔ ∀ i j q, i < j → l.turns i p = some q → l.turns j p ≠ some q) ∧
      (∀ rows, l.left (p.withCursor none) = .ok rows → l.Ends p →
        l.turns (rows.length + 1) p = none) ∧
      (l.sorts.Reflexive →
        (∀ i q, l.turns i p = some q → l.turns (i + 1) p ≠ some q) ∧
          ((∀ n q r, l.turns n p = some q → l.turn? q = some r → l.Narrows q r) → l.Ends p)) := by
  have honce : l.Ends p → ∀ i j q, i < j → l.turns i p = some q → l.turns j p ≠ some q :=
    fun hends i j q hij hi hj => not_ends_of_return hij hi hj hends
  refine ⟨⟨honce, ends_of_once⟩, fun rows hrows hends => ?_, fun hself =>
    ⟨fun i q => turns_succ_ne hself, ends_of_narrows hself⟩⟩
  rcases l.ends_or_listed p with hone | ⟨rules, all, h⟩
  · exact turns_none_of_le hone (Nat.le_add_left _ _)
  · obtain rfl := Except.ok.inj (h.left_none.symm.trans hrows)
    exact h.turns_eq_none (honce hends)

namespace Sample

/-- The request for persons behind one of a name and a number. -/
def behind (name : Operand) (id : Int64) : PageRequest :=
  request.withCursor (some ⟨[("name", name), ("id", .int id)]⟩)

end Sample

open SortSchema.Sample Sample in
/-- Each page of persons leaves fewer of them. -/
theorem ends_iff_persons :
    people.Reflexive ∧
      (∀ n q r, persons.turns n request = some q → persons.turn? q = some r →
        persons.Narrows q r) ∧
      persons.Ends request := by
  have hreflexive : people.Reflexive := by
    intro key rule hrule person
    rcases List.mem_pair.1 (SortSchema.mem_rules_of_get? hrule) with h | h
    · obtain ⟨-, rfl⟩ := Prod.mk.inj h
      exact beq_self_eq_true person.id
    · obtain ⟨-, rfl⟩ := Prod.mk.inj h
      obtain ⟨id, _ | name⟩ := person
      · rfl
      · exact beq_self_eq_true name
  have hsecond : persons.turn? request = some (behind (.string "Ada") 2) := rfl
  have hthird : persons.turn? (behind (.string "Ada") 2) = some (behind .null 1) := rfl
  have hlast : persons.turn? (behind .null 1) = none := rfl
  have hnarrows : ∀ n q r, persons.turns n request = some q → persons.turn? q = some r →
      persons.Narrows q r := by
    intro n q r hq hr rows rows' hrows hrows' row hrow
    match n with
    | 0 =>
      cases hq
      obtain rfl := Option.some.inj (hsecond.symm.trans hr)
      obtain rfl : [anonymous.row, ada.row] = rows := Except.ok.inj hrows
      obtain rfl : [anonymous.row] = rows' := Except.ok.inj hrows'
      exact List.mem_cons.2 (.inl (List.mem_singleton.1 hrow))
    | 1 =>
      obtain rfl : behind (.string "Ada") 2 = q := Option.some.inj hq
      obtain rfl := Option.some.inj (hthird.symm.trans hr)
      obtain rfl : [] = rows' := Except.ok.inj hrows'
      cases hrow
    | 2 =>
      obtain rfl : behind .null 1 = q := Option.some.inj hq
      cases hlast.symm.trans hr
    | n + 3 =>
      have hnone : persons.turns 3 request = none := rfl
      cases (turns_none_of_le hnone (Nat.le_add_left 3 n)).symm.trans hq
  exact ⟨hreflexive, hnarrows, ((ends_iff persons request).2.2 hreflexive).2 hnarrows⟩

namespace Sample

/-- A row with a number and another number that its sort rule takes for it. -/
structure Link where
  id : Int64
  back : Int64

namespace Link

/-- The row of a link. -/
def row (link : Link) : TableRow := fun column =>
  if column = "id" then some (.int link.id)
  else if column = "back" then some (.int link.back)
  else none

/-- The link that a row holds. -/
def ofRow (row : Env) : Link where
  id := match row.bare "id" with
    | .int n => n
    | _ => 0
  back := match row.bare "back" with
    | .int n => n
    | _ => 0

end Link

/-- Links by number, with cursors of the other numbers. -/
def links : SortSchema Link where
  rules := [("id", .ofExpr (.column ⟨.own, ⟨"id", .refl true⟩⟩) fun link => .int link.back)]
  distinct := by decide
  tieBreak := "id"
  registered := by decide

/-- Two links, each of which has the number in front of the other. -/
def round : Listing Link where
  limits := {}
  now := default
  schema := .empty
  sorts := links
  base := Select.empty.fromTable ⟨⟨"links", .refl true⟩, none⟩
  db := .plain fun _ => [Link.row ⟨1, 1⟩, Link.row ⟨2, 0⟩]
  env := .top
  decode := Link.ofRow

/-- The first page of one link. -/
def oneLink : PageRequest :=
  { PageRequest.first {} with limit := 1 }

/-- No value of a link is a NaN. -/
theorem reflexive_links : links.Reflexive := by
  intro key rule hrule row
  obtain ⟨-, rfl⟩ := Prod.mk.inj (List.mem_singleton.1 (SortSchema.mem_rules_of_get? hrule))
  exact beq_self_eq_true row.back

end Sample

open Sample in
/-- Page after page is read of two rows: behind the first link comes the second one, and its cursor
leads back to the first. -/
theorem goes_round_links :
    oneLink.limit = 1 ∧ links.Reflexive ∧
      round.left oneLink =
        .ok [Env.top.onRow "links" (Link.row ⟨1, 1⟩), Env.top.onRow "links" (Link.row ⟨2, 0⟩)] ∧
      ¬ round.Ends oneLink := by
  have hround : round.turns 1 oneLink = round.turns 3 oneLink := rfl
  exact ⟨rfl, reflexive_links, rfl, not_ends_of_return (show 1 < 3 by decide) rfl hround.symm⟩

end Listing

end FilterSql
