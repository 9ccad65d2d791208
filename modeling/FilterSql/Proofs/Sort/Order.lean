import FilterSql.Proofs.Sort.Stable
import FilterSql.Sort.Schema

/-!
# The order of rows in memory

`Operand.order` is a total order on the operands that it tells apart: all but floats, where integers
of the same size are equal to other operands, and `now`. The comparison of rows by the keys of an
order is turned round with its arguments (`compareBy_swap`), and two rows tie where all their values
are the same (`compareBy_eq_iff`).
-/

namespace FilterSql

namespace Instant

/-- Instants are compared in both directions alike. -/
theorem order_swap (a b : Instant) : a.order b = (b.order a).swap := by
  unfold order
  rw [Ordering.swap_then, ← Std.OrientedCmp.eq_swap, ← Std.OrientedCmp.eq_swap]

/-- Only the same instant ties. -/
theorem order_eq_iff {a b : Instant} : a.order b = .eq ↔ a = b := by
  obtain ⟨seconds, nanos, _, _, _, _⟩ := a
  obtain ⟨seconds', nanos', _, _, _, _⟩ := b
  simp [order, Ordering.then_eq_eq]

/-- The order of instants is transitive. -/
theorem order_trans {a b c : Instant} (hab : a.order b = .lt) (hbc : b.order c = .lt) :
    a.order c = .lt := by
  simp only [order, Ordering.then_eq_lt, Int.compare_eq_lt, Int.compare_eq_eq, Nat.compare_eq_lt]
    at hab hbc ⊢
  omega

end Instant

namespace Operand

/-- The operand is one that the order tells apart from every other operand. -/
def IsExact : Operand → Prop
  | .float _ => False
  | .now => False
  | _ => True

/-- Operands of different kinds are in the order of the kinds. -/
theorem order_of_rank_ne {a b : Operand} (h : a.rank ≠ b.rank) :
    a.order b = compare a.rank b.rank := by
  cases a <;> cases b <;> first | rfl | exact absurd rfl h

/-- What holds of operands of different kinds and of any two of one kind holds of all that the
order tells apart. -/
@[elab_as_elim]
theorem IsExact.cases_two
    {motive : (a b : Operand) → a.IsExact → b.IsExact → Prop}
    (ranks : ∀ a b (ha : a.IsExact) (hb : b.IsExact), a.rank ≠ b.rank → motive a b ha hb)
    (null : motive .null .null trivial trivial)
    (bool : ∀ x y, motive (.bool x) (.bool y) trivial trivial)
    (int : ∀ x y, motive (.int x) (.int y) trivial trivial)
    (string : ∀ x y, motive (.string x) (.string y) trivial trivial)
    (instant : ∀ x y, motive (.instant x) (.instant y) trivial trivial)
    {a b : Operand} (ha : a.IsExact) (hb : b.IsExact) : motive a b ha hb := by
  cases a <;> cases b <;> first
    | exact ha.elim
    | exact hb.elim
    | exact null
    | exact bool _ _
    | exact int _ _
    | exact string _ _
    | exact instant _ _
    | exact ranks _ _ _ _ (by simp [rank])

/-- Operands are compared in both directions alike. -/
theorem order_swap (a b : Operand) : a.order b = (b.order a).swap := by
  cases a <;> cases b <;> first
    | rfl
    | exact Instant.order_swap _ _
    | exact @Std.OrientedCmp.eq_swap _ compare _ _ _

/-- Exact operands tie only with themselves. -/
theorem order_eq_iff {a b : Operand} (ha : a.IsExact) (hb : b.IsExact) :
    a.order b = .eq ↔ a = b := by
  induction ha, hb using IsExact.cases_two with
  | ranks a b _ _ h =>
      rw [order_of_rank_ne h, Nat.compare_eq_eq]
      exact iff_of_false h (mt (congrArg rank) h)
  | null => exact iff_of_true rfl rfl
  | bool x y => simp [order]
  | int x y => simp [order, Int64.toInt_inj]
  | string x y => simp [order]
  | instant x y => simp [order, Instant.order_eq_iff]

/-- What comes before has a rank that is no greater. -/
theorem rank_le_of_order {a b : Operand} (h : a.order b = .lt) : a.rank ≤ b.rank := by
  by_contra hlt
  rw [order_of_rank_ne (by omega), Nat.compare_eq_lt] at h
  omega

/-- Among exact operands the order is transitive. -/
theorem order_trans {a b c : Operand} (ha : a.IsExact) (hb : b.IsExact) (hc : c.IsExact)
    (hab : a.order b = .lt) (hbc : b.order c = .lt) : a.order c = .lt := by
  -- operands of other kinds are compared by their ranks, which are ordered like numbers
  have hle := rank_le_of_order hbc
  induction ha, hb using IsExact.cases_two with
  | ranks a b _ _ h =>
      rw [order_of_rank_ne h, Nat.compare_eq_lt] at hab
      rw [order_of_rank_ne (by omega), Nat.compare_eq_lt]
      omega
  | null => cases hab
  | bool x y =>
      cases c with
      | bool z =>
          show compare x z = .lt
          exact Std.TransCmp.lt_trans hab hbc
      | null => cases hbc
      | _ => rfl
  | int x y =>
      cases c with
      | int z =>
          show compare x.toInt z.toInt = .lt
          exact Std.TransCmp.lt_trans hab hbc
      | float z => exact hc.elim
      | null => cases hbc
      | bool z => cases hbc
      | _ => rfl
  | string x y =>
      cases c with
      | string z =>
          show compare x z = .lt
          exact Std.TransCmp.lt_trans hab hbc
      | instant z => rfl
      | now => rfl
      | _ => cases hbc
  | instant x y =>
      cases c with
      | instant z => exact Instant.order_trans hab hbc
      | _ => cases hbc

end Operand

/-! ## Rows -/

/-- The outcome of a comparison in a direction. -/
def Direction.orient : Direction → Ordering → Ordering
  | .asc, o => o
  | .desc, o => o.swap

/-- A direction keeps a tie and adds none. -/
@[simp] theorem Direction.orient_eq_eq {d : Direction} {o : Ordering} :
    d.orient o = .eq ↔ o = .eq := by
  cases d <;> cases o <;> simp [orient]

/-- A direction turned round is that of the comparison turned round. -/
theorem Direction.orient_swap (d : Direction) (o : Ordering) :
    d.orient o.swap = (d.orient o).swap := by
  cases d <;> simp [orient]

namespace SortSchema

variable {Row : Type} {rules : List (SortTerm × SortRule Row)} {a b c : Row}

/-- The keys of an order tell the values of a row apart from other ones. -/
def Exact (rules : List (SortTerm × SortRule Row)) (row : Row) : Prop :=
  ∀ key ∈ rules, (key.2.value row).IsExact

/-- Rows are compared by the first key, and then by the rest. -/
theorem compareBy_cons (key : SortTerm × SortRule Row) :
    compareBy (key :: rules) a b =
      (key.1.direction.orient ((key.2.value a).order (key.2.value b))).then
        (compareBy rules a b) := by
  obtain ⟨⟨name, direction⟩, rule⟩ := key
  cases direction <;> rfl

/-- Rows are compared in both directions alike. -/
theorem compareBy_swap (rules : List (SortTerm × SortRule Row)) (a b : Row) :
    compareBy rules a b = (compareBy rules b a).swap := by
  induction rules with
  | nil => rfl
  | cons key rules ih =>
      rw [compareBy_cons, compareBy_cons, Ordering.swap_then, ← Direction.orient_swap,
        ← Operand.order_swap, ih]

/-- Two rows tie where they have the same values for all keys. -/
theorem compareBy_eq_iff (ha : Exact rules a) (hb : Exact rules b) :
    compareBy rules a b = .eq ↔ ∀ key ∈ rules, key.2.value a = key.2.value b := by
  induction rules with
  | nil => simp [compareBy]
  | cons key rules ih =>
      obtain ⟨hkeya, ha⟩ := List.forall_mem_cons.1 ha
      obtain ⟨hkeyb, hb⟩ := List.forall_mem_cons.1 hb
      rw [compareBy_cons, Ordering.then_eq_eq, Direction.orient_eq_eq,
        Operand.order_eq_iff hkeya hkeyb, ih ha hb, List.forall_mem_cons]

end SortSchema

end FilterSql
