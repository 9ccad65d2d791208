import FilterSql.Proofs.Basic
import FilterSql.Proofs.Sort.Order
import FilterSql.Proofs.Binary64.Monotone

/-!
# Where the order in memory is a preorder

`Operand.order` is turned round with its arguments, but on all operands it is not transitive: two
integers that are read as one float both tie with it, and two instants both tie with `now`.
`Operand.order_transCmp_iff` says that nothing else is in the way. So the comparison of rows is a
total preorder on every set of rows in which no key has such values
(`SortSchema.comparator_transCmp`), as sorting asks for.
-/

namespace FilterSql

namespace Operand

variable {a b c : Operand} {values : Operand → Prop}

/-! ## The part of the order that is transitive everywhere -/

/-- The place of a number among the floats. -/
def place : Operand → ℤ
  | .int n => (Binary64.ofInt n.toInt).totalKey
  | .float x => x.totalKey
  | _ => 0

/-- The comparison by kind, and of numbers as floats. -/
def coarse : Operand → Operand → Ordering :=
  compareLex (compareOn rank) (compareOn place)

/-- The comparison by kind and by floats is transitive. -/
instance : Std.TransCmp coarse :=
  inferInstanceAs (Std.TransCmp (compareLex (compareOn rank) (compareOn place)))

/-- Less is a lower rank, or a lower place in the same rank. -/
theorem coarse_eq_lt :
    a.coarse b = .lt ↔ a.rank < b.rank ∨ a.rank = b.rank ∧ a.place < b.place := by
  simp only [coarse, compareLex, compareOn, Ordering.then_eq_lt, Nat.compare_eq_lt,
    Nat.compare_eq_eq, Int.compare_eq_lt]

/-- The numbers have a rank of their own. -/
theorem number_of_rank (h : a.rank = 2) : (∃ n, a = .int n) ∨ ∃ x, a = .float x := by
  cases a with
  | int n => exact .inl ⟨n, rfl⟩
  | float x => exact .inr ⟨x, rfl⟩
  | _ => exact absurd h (by simp [rank])

/-- What is no number has no place. -/
theorem place_of_rank_ne (h : a.rank ≠ 2) : a.place = 0 := by
  cases a with
  | int n => exact absurd rfl h
  | float x => exact absurd rfl h
  | _ => rfl

/-- What lies between two operands that tie ties with both. -/
theorem coarse_eq_of_between (hab : (a.coarse b).isLE) (hbc : (b.coarse c).isLE)
    (hac : a.coarse c = .eq) : a.coarse b = .eq ∧ c.coarse b = .eq := by
  have hca : (c.coarse a).isLE := by
    rw [@Std.OrientedCmp.eq_swap _ coarse, hac]
    rfl
  constructor
  · exact Std.OrientedCmp.isLE_antisymm hab (Std.TransCmp.isLE_trans hbc hca)
  · exact Std.OrientedCmp.isLE_antisymm (Std.TransCmp.isLE_trans hca hab) hbc

/-- What is in front by kind and as a float is in front. -/
theorem order_of_coarse (h : a.coarse b = .lt) : a.order b = .lt := by
  rcases coarse_eq_lt.1 h with hrank | ⟨hrank, hplace⟩
  · rw [order_of_rank_ne hrank.ne, Nat.compare_eq_lt]
    exact hrank
  · by_cases hnumber : a.rank = 2
    · rcases number_of_rank hnumber with ⟨m, rfl⟩ | ⟨x, rfl⟩ <;>
        rcases number_of_rank (hrank ▸ hnumber) with ⟨n, rfl⟩ | ⟨y, rfl⟩
      · -- integers in the order of their floats are in their own order
        exact Int.compare_eq_lt.2 (lt_of_not_ge fun hle =>
          (Binary64.totalKey_ofInt_mono hle).not_gt hplace)
      all_goals exact Int.compare_eq_lt.2 hplace
    · rw [place_of_rank_ne hnumber, place_of_rank_ne (hrank ▸ hnumber)] at hplace
      exact absurd hplace (lt_irrefl 0)

/-- What is not above in the order is not above by kind and by floats. -/
theorem coarse_isLE (h : (a.order b).isLE) : (a.coarse b).isLE := by
  rw [Ordering.isLE_iff_ne_gt] at h ⊢
  intro hgt
  rw [Std.OrientedCmp.gt_iff_lt] at hgt
  rw [order_swap, order_of_coarse hgt] at h
  exact h rfl

/-- Where one of two operands is a float or `now`, they are compared by kind and as floats. -/
theorem order_of_not_exact (h : ¬a.IsExact ∨ ¬b.IsExact) : a.order b = a.coarse b := by
  cases a <;> cases b <;> first
    | rfl
    | exact absurd h (by simp [IsExact])

/-! ## The rest of it -/

/-- No two integers stand beside a float that both are read as, and no two instants beside
`now`. -/
structure Coherent (values : Operand → Prop) : Prop where
  floats {x : Binary64} {m n : Int64} : values (.float x) → values (.int m) → values (.int n) →
    Binary64.ofInt m.toInt = x → Binary64.ofInt n.toInt = x → m = n
  instants {s t : Instant} : values .now → values (.instant s) → values (.instant t) → s = t

/-- Operands that the order tells apart stand beside each other anyhow. -/
theorem coherent_of_exact (h : ∀ a, values a → a.IsExact) : Coherent values where
  floats hx := (h _ hx).elim
  instants hnow := (h _ hnow).elim

/-- Integers up to `2 ^ 53` stand beside any floats. -/
theorem coherent_of_small (hnow : ¬values .now)
    (hsmall : ∀ n, values (.int n) → n.toInt.natAbs ≤ 2 ^ 53) : Coherent values where
  floats _ hm hn hmx hnx :=
    Int64.toInt_inj.1 (Binary64.ofInt_inj (hsmall _ hm) (hsmall _ hn) (hmx.trans hnx.symm))
  instants h := (hnow h).elim

/-- An integer ties with a float exactly if it is read as it. -/
theorem order_int_float {n : Int64} {x : Binary64} :
    (int n).order (float x) = .eq ↔ Binary64.ofInt n.toInt = x := by
  rw [order, Binary64.totalCompare, Int.compare_eq_eq, Binary64.totalKey_injective.eq_iff]

/-- Only values of one rank tie. -/
theorem rank_of_tie (h : a.order b = .eq) : a.rank = b.rank := by
  by_contra hne
  rw [order_of_rank_ne hne, Nat.compare_eq_eq] at h
  exact hne h

/-- An exact number is an integer. -/
theorem IsExact.eq_int (h : a.IsExact) (hrank : a.rank = 2) : ∃ n, a = .int n := by
  rcases number_of_rank hrank with hint | ⟨x, rfl⟩
  · exact hint
  · exact h.elim

/-- An exact date is an instant. -/
theorem IsExact.eq_instant (h : a.IsExact) (hrank : a.rank = 4) : ∃ s, a = .instant s := by
  cases a with
  | instant s => exact ⟨s, rfl⟩
  | now => exact h.elim
  | _ => exact absurd hrank (by simp [rank])

/-- Coherent operands that tie with the same float or `now` are the same. -/
theorem Coherent.eq_of_ties (h : Coherent values) (ha : values a) (hb : values b) (hc : values c)
    (hexa : a.IsExact) (hvague : ¬b.IsExact) (hexc : c.IsExact) (hab : a.order b = .eq)
    (hcb : c.order b = .eq) : a = c := by
  cases b with
  | float x =>
      obtain ⟨m, rfl⟩ := hexa.eq_int (rank_of_tie hab)
      obtain ⟨n, rfl⟩ := hexc.eq_int (rank_of_tie hcb)
      exact congrArg int (h.floats hb ha hc (order_int_float.1 hab) (order_int_float.1 hcb))
  | now =>
      obtain ⟨s, rfl⟩ := hexa.eq_instant (rank_of_tie hab)
      obtain ⟨t, rfl⟩ := hexc.eq_instant (rank_of_tie hcb)
      exact congrArg instant (h.instants hb ha hc)
  | _ => exact absurd trivial hvague

/-- Among exact values the order is transitive. -/
theorem exact_isLE_trans (ha : a.IsExact) (hb : b.IsExact) (hc : c.IsExact)
    (hab : (a.order b).isLE) (hbc : (b.order c).isLE) : (a.order c).isLE := by
  rw [Ordering.isLE_iff_eq_lt_or_eq_eq] at hab hbc ⊢
  rw [order_eq_iff ha hb] at hab
  rw [order_eq_iff hb hc] at hbc
  rw [order_eq_iff ha hc]
  rcases hab with hab | rfl
  · rcases hbc with hbc | rfl
    · exact .inl (order_trans ha hb hc hab hbc)
    · exact .inl hab
  · exact hbc

/-- Among coherent values the order is transitive. -/
theorem Coherent.isLE_trans (h : Coherent values) (ha : values a) (hb : values b) (hc : values c)
    (hab : (a.order b).isLE) (hbc : (b.order c).isLE) : (a.order c).isLE := by
  have hcoarse : (a.coarse c).isLE := Std.TransCmp.isLE_trans (coarse_isLE hab) (coarse_isLE hbc)
  by_cases hac : a.IsExact ∧ c.IsExact
  · by_cases hexb : b.IsExact
    · exact exact_isLE_trans hac.1 hexb hac.2 hab hbc
    · rw [order_of_not_exact (.inr hexb)] at hab
      rw [order_of_not_exact (.inl hexb)] at hbc
      rcases Ordering.isLE_iff_eq_lt_or_eq_eq.1 hcoarse with hlt | heq
      · rw [order_of_coarse hlt]
        rfl
      · obtain ⟨htie, htie'⟩ := coarse_eq_of_between hab hbc heq
        rw [← order_of_not_exact (.inr hexb)] at htie htie'
        obtain rfl : a = c := h.eq_of_ties ha hb hc hac.1 hexb hac.2 htie htie'
        rw [(order_eq_iff hac.1 hac.1).2 rfl]
        rfl
  · rw [order_of_not_exact (not_and_or.1 hac)]
    exact hcoarse

/-- On some values the order is a total preorder if and only if they are coherent. -/
theorem order_transCmp_iff :
    Std.TransCmp (fun a b : {a // values a} => a.1.order b.1) ↔ Coherent values := by
  constructor
  · intro htrans
    have heq : ∀ {a b c}, values a → values b → values c → a.order b = .eq → c.order b = .eq →
        a.order c = .eq := by
      intro a b c ha hb hc hab hcb
      rw [order_swap, Ordering.swap_eq_eq] at hcb
      exact htrans.eq_trans (a := ⟨a, ha⟩) (b := ⟨b, hb⟩) (c := ⟨c, hc⟩) hab hcb
    refine ⟨fun {x m n} hx hm hn hmx hnx => ?_, fun {s t} hnow hs ht => ?_⟩
    · have htie := heq hm hx hn (order_int_float.2 hmx) (order_int_float.2 hnx)
      exact int.inj ((@order_eq_iff (.int m) (.int n) trivial trivial).1 htie)
    · have htie := heq hs hnow ht rfl rfl
      exact instant.inj ((@order_eq_iff (.instant s) (.instant t) trivial trivial).1 htie)
  · intro h
    exact
      { eq_swap := order_swap _ _
        isLE_trans := fun {a b c} => h.isLE_trans a.2 b.2 c.2 }

end Operand

/-! ## Rows -/

namespace SortSchema

variable {Row : Type} {rows : Row → Prop} {s : SortSchema Row} {sort : List SortTerm}
  {rules : List (SortTerm × SortRule Row)} {compare : Row → Row → Ordering}

/-- The values that a key has on some rows. -/
def valuesOn (rule : SortRule Row) (rows : Row → Prop) (value : Operand) : Prop :=
  ∃ row, rows row ∧ rule.value row = value

/-- One key with coherent values orders the rows, in both directions. -/
theorem orient_order_transCmp {rule : SortRule Row} (direction : Direction)
    (h : Operand.Coherent (valuesOn rule rows)) :
    Std.TransCmp fun a b : {row // rows row} =>
      direction.orient ((rule.value a.1).order (rule.value b.1)) := by
  have hvalue : ∀ row : {row // rows row}, valuesOn rule rows (rule.value row.1) :=
    fun row => ⟨row.1, row.2, rfl⟩
  have hasc : Std.TransCmp fun a b : {row // rows row} =>
      (rule.value a.1).order (rule.value b.1) :=
    { eq_swap := Operand.order_swap _ _
      isLE_trans := h.isLE_trans (hvalue _) (hvalue _) (hvalue _) }
  cases direction with
  | asc => exact hasc
  | desc =>
      simp only [Direction.orient, ← Operand.order_swap]
      exact hasc.opposite

/-- The comparison by some keys is a total preorder where the values of each key are coherent. -/
theorem compareBy_transCmp (h : ∀ key ∈ rules, Operand.Coherent (valuesOn key.2 rows)) :
    Std.TransCmp fun a b : {row // rows row} => compareBy rules a.1 b.1 := by
  induction rules with
  | nil => exact { eq_swap := rfl, isLE_trans := fun _ _ => rfl }
  | cons key rules ih =>
      obtain ⟨hkey, hrules⟩ := List.forall_mem_cons.1 h
      have hfirst := orient_order_transCmp key.1.direction hkey
      have hrest := ih hrules
      simp only [compareBy_cons]
      exact inferInstanceAs (Std.TransCmp (compareLex _ _))

/-- On rows whose values the order tells apart, what comes first can be chained. -/
theorem compareBy_trans {a b c : Row} (ha : Exact rules a) (hb : Exact rules b)
    (hc : Exact rules c) (hab : compareBy rules a b = .lt) (hbc : compareBy rules b c = .lt) :
    compareBy rules a c = .lt := by
  have htrans : Std.TransCmp fun a b : {row // Exact rules row} => compareBy rules a.1 b.1 := by
    refine compareBy_transCmp fun key hkey => Operand.coherent_of_exact ?_
    rintro _ ⟨row, hrow, rfl⟩
    exact hrow key hkey
  exact htrans.lt_trans (a := ⟨a, ha⟩) (b := ⟨b, hb⟩) (c := ⟨c, hc⟩) hab hbc

/-- The order of operands and the comparison of rows are turned round with their arguments. On some
operands the order is a total preorder if and only if they are coherent, as those without `now` and
without integers beyond `2 ^ 53` are. So is the comparison on rows where the values of each key are
coherent. -/
theorem comparator_transCmp (hcompare : s.comparator sort = .ok compare) :
    (∀ u v : Operand, u.order v = (v.order u).swap) ∧
      (∀ values : Operand → Prop,
        Std.TransCmp (fun u v : {u // values u} => u.1.order v.1) ↔ Operand.Coherent values) ∧
      (∀ values : Operand → Prop, ¬values .now →
        (∀ n, values (.int n) → n.toInt.natAbs ≤ 2 ^ 53) → Operand.Coherent values) ∧
      (∀ a b, compare a b = (compare b a).swap) ∧
      ∃ rules, s.rulesOf sort = .ok rules ∧
        ∀ rows : Row → Prop, (∀ key ∈ rules, Operand.Coherent (valuesOn key.2 rows)) →
          Std.TransCmp fun a b : {row // rows row} => compare a.1 b.1 := by
  obtain ⟨rules, hrules, hcompareBy⟩ := bind_eq_ok.1 hcompare
  cases hcompareBy
  exact ⟨Operand.order_swap, fun _ => Operand.order_transCmp_iff,
    fun _ => Operand.coherent_of_small, compareBy_swap rules, rules, hrules,
    fun _ => compareBy_transCmp⟩

namespace Sample

/-- A measured value. -/
def measured : SortRule Operand :=
  .ofExpr (.column ⟨.own, ⟨"value", .refl true⟩⟩) id

/-- Measured values in their order. -/
def measures : SortSchema Operand where
  rules := [("value", measured)]
  distinct := by decide
  tieBreak := "value"
  registered := by decide

/-- Integers that are small beside floats. -/
def Narrow : Operand → Prop
  | .int n => n.toInt.natAbs ≤ 2 ^ 53
  | .float _ => True
  | _ => False

end Sample

open Sample in
/-- Narrow integers and all floats are ordered by falling values. -/
theorem comparator_transCmp_measures :
    ∃ compare, measures.comparator [⟨"value", .desc⟩] = .ok compare ∧
      measures.rulesOf [⟨"value", .desc⟩] = .ok [(⟨"value", .desc⟩, measured)] ∧
      Std.TransCmp fun a b : {value // Narrow value} => compare a.1 b.1 := by
  have hcompare : measures.comparator [⟨"value", .desc⟩] =
      .ok (compareBy [(⟨"value", .desc⟩, measured)]) := rfl
  obtain ⟨-, -, hsmall, -, rules, hrules, htrans⟩ := comparator_transCmp hcompare
  cases hrules
  refine ⟨_, hcompare, rfl, htrans Narrow fun key hkey => ?_⟩
  rw [List.mem_singleton.1 hkey]
  refine hsmall _ ?_ ?_
  · rintro ⟨_, hrow, rfl⟩
    exact hrow
  · rintro n ⟨_, hrow, rfl⟩
    exact hrow

open Sample in
/-- Two integers that do not tie but tie with a float between them, and two instants that tie with
`now`. -/
theorem comparator_not_transCmp :
    (Operand.int 9007199254740993).order (.float ⟨0x4340000000000000⟩) = .eq ∧
      (Operand.float ⟨0x4340000000000000⟩).order (.int 9007199254740992) = .eq ∧
      (Operand.int 9007199254740993).order (.int 9007199254740992) = .gt ∧
      (∀ s t : Instant, (Operand.instant s).order .now = .eq ∧
        Operand.now.order (.instant t) = .eq) ∧
      ∃ compare, measures.comparator [] = .ok compare ∧
        compare (.int 9007199254740993) (.float ⟨0x4340000000000000⟩) = .eq ∧
        compare (.float ⟨0x4340000000000000⟩) (.int 9007199254740992) = .eq ∧
        compare (.int 9007199254740993) (.int 9007199254740992) = .gt ∧
        ¬Std.TransCmp compare := by
  refine ⟨by decide, by decide, by decide, fun _ _ => ⟨rfl, rfl⟩, _, rfl, by decide, by decide,
    by decide, fun htrans => ?_⟩
  have htie := htrans.eq_trans (a := .int 9007199254740993) (b := .float ⟨0x4340000000000000⟩)
    (c := .int 9007199254740992) (by decide) (by decide)
  revert htie
  decide

end SortSchema

end FilterSql
