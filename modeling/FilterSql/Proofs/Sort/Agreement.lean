import FilterSql.Proofs.Sort.Keyset

/-!
# The order of statements and the order in memory

A rule gives the term of a statement a direction of its own, while the comparison in memory and the
keyset conditions go by the direction of the order. `SortSchema.orderBy_agrees_iff` says when this
makes no difference for two rows: the first key that tells them apart has to hand on its direction.
The rules of columns, texts and expressions do (`SortRule.KeepsDirection`), so with them all three
agree on all rows (`SortSchema.compareRows_eq_compareBy`).
-/

namespace FilterSql

variable {Row : Type} {db : Database} {decode : Env → Row} {rows : Env → Prop} {a b : Env}

/-! ## Rules that hand on the direction -/

namespace SortRule

/-- The term of a statement goes in the direction that it is asked for. -/
def KeepsDirection (rule : SortRule Row) : Prop :=
  ∀ direction, (rule.term direction).direction = direction

/-- The rule of an expression hands on the direction. -/
theorem keepsDirection_ofExpr (expr : Expr) (value : Row → Operand) :
    (ofExpr expr value).KeepsDirection :=
  fun _ => rfl

/-- The rule of a column hands on the direction. -/
theorem keepsDirection_ofName {name : String} {value : Row → Operand} {rule : SortRule Row}
    (h : ofName name value = .ok rule) : rule.KeepsDirection := by
  obtain ⟨column, -, hrule⟩ := bind_eq_ok.1 h
  cases hrule
  exact keepsDirection_ofExpr _ value

/-- The rule of a text hands on the direction. -/
theorem keepsDirection_ofText {name : String} {value : Row → Operand} {rule : SortRule Row}
    (h : ofText name value = .ok rule) : rule.KeepsDirection := by
  obtain ⟨column, -, hrule⟩ := bind_eq_ok.1 h
  cases hrule
  exact keepsDirection_ofExpr _ _

/-- A rule with a join hands on the direction. -/
theorem KeepsDirection.withJoin {rule : SortRule Row} (h : rule.KeepsDirection) (join : Join) :
    (rule.withJoin join).KeepsDirection :=
  h

/-- A rule that is never `NULL` hands on the direction. -/
theorem KeepsDirection.notNull {rule : SortRule Row} (h : rule.KeepsDirection) :
    rule.notNull.KeepsDirection :=
  h

end SortRule

/-! ## Two rows in both orders -/

namespace SortSchema

variable {s : SortSchema Row} {sort resolved : List SortTerm}
  {rules : List (SortTerm × SortRule Row)}

/-- The terms of some keys in the order of a statement. -/
def termsOf (rules : List (SortTerm × SortRule Row)) : List OrderTerm :=
  rules.map fun (term, rule) => rule.term term.direction

/-- The first key of an order that tells two rows apart. -/
def deciding? (rules : List (SortTerm × SortRule Row)) (a b : Row) :
    Option (SortTerm × SortRule Row) :=
  rules.find? fun key => (key.2.value a).order (key.2.value b) != .eq

/-- The order of a statement has the terms of its keys and their joins. -/
theorem orderBy_eq (hsort : s.resolve sort = .ok resolved) (hrules : s.HasRules resolved rules) :
    s.orderBy sort = .ok (termsOf rules, joinsOf [] rules) := by
  rw [orderBy, rulesOf_of_resolve hsort hrules]
  rfl

/-- Rows are compared by the first term, and then by the rest. -/
theorem compareRows_cons (term : OrderTerm) (terms : List OrderTerm) :
    Select.compareRows db (term :: terms) a b =
      (term.direction.orient (db.order (term.expr.value db a) (term.expr.value db b))).then
        (Select.compareRows db terms a b) := by
  obtain ⟨expr, direction⟩ := term
  cases direction <;> rfl

/-- In a statement the keys compare by their values too, each in the direction of its term. -/
theorem compareRows_termsOf_cons {key : SortTerm × SortRule Row}
    (hkey : key.2.Fits db decode rows key.1.direction) (ha : rows a) (hb : rows b) :
    Select.compareRows db (termsOf (key :: rules)) a b =
      ((key.2.term key.1.direction).direction.orient
        ((key.2.value (decode a)).order (key.2.value (decode b)))).then
        (Select.compareRows db (termsOf rules) a b) := by
  rw [← hkey.order_eq ha hb]
  exact compareRows_cons _ _

/-- Where all rules hand on their directions, a statement orders rows as they are ordered in
memory. -/
theorem compareRows_eq_compareBy (hfits : ∀ key ∈ rules, key.2.Fits db decode rows key.1.direction)
    (hkeeps : ∀ key ∈ rules, key.2.KeepsDirection) (ha : rows a) (hb : rows b) :
    Select.compareRows db (termsOf rules) a b = compareBy rules (decode a) (decode b) := by
  induction rules with
  | nil => rfl
  | cons key rules ih =>
      obtain ⟨hfit, hfits⟩ := List.forall_mem_cons.1 hfits
      obtain ⟨hkeep, hkeeps⟩ := List.forall_mem_cons.1 hkeeps
      rw [compareRows_termsOf_cons hfit ha hb, compareBy_cons, hkeep, ih hfits hkeeps]

/-- An outcome other than a tie comes first in one direction only. -/
theorem orient_agree_iff {d e : Direction} {o : Ordering} (h : o ≠ .eq) :
    (d.orient o = .lt ↔ e.orient o = .lt) ↔ d = e := by
  cases d <;> cases e <;> cases o <;> simp_all [Direction.orient]

/-- A statement puts a row first exactly where the comparison in memory does, if and only if the
first key that tells the rows apart hands on its direction. -/
theorem compareRows_agree_iff (hfits : ∀ key ∈ rules, key.2.Fits db decode rows key.1.direction)
    (ha : rows a) (hb : rows b) :
    (Select.compareRows db (termsOf rules) a b = .lt ↔
        compareBy rules (decode a) (decode b) = .lt) ↔
      ∀ key, deciding? rules (decode a) (decode b) = some key →
        (key.2.term key.1.direction).direction = key.1.direction := by
  induction rules with
  | nil => exact iff_of_true Iff.rfl (by simp [deciding?])
  | cons key rules ih =>
      obtain ⟨hfit, hfits⟩ := List.forall_mem_cons.1 hfits
      rw [compareRows_termsOf_cons hfit ha hb, compareBy_cons, deciding?, List.find?_cons]
      by_cases htie : (key.2.value (decode a)).order (key.2.value (decode b)) = .eq
      · rw [Direction.orient_eq_eq.2 htie, Direction.orient_eq_eq.2 htie, htie]
        exact ih hfits
      · -- the keys behind this one are not looked at on either side
        have hnone : ∀ d : Direction,
            d.orient ((key.2.value (decode a)).order (key.2.value (decode b))) ≠ .eq :=
          fun d => mt Direction.orient_eq_eq.1 htie
        have hne : ((key.2.value (decode a)).order (key.2.value (decode b)) != .eq) = true := by
          simpa using htie
        rw [hne, Ordering.then_eq_lt, Ordering.then_eq_lt, or_iff_left fun h => hnone _ h.1,
          or_iff_left fun h => hnone _ h.1, orient_agree_iff htie]
        simp

/-- The condition of the rows after a row agrees with the comparison in memory whatever the rules
do. A statement agrees with both on two rows if and only if the first key that tells them apart
hands on its direction. -/
theorem orderBy_agrees_iff (hsort : s.resolve sort = .ok resolved)
    (hfits : s.Fits db decode rows resolved) (ha : rows a) (hb : rows b) :
    ∃ rules terms joins compare after, s.rulesOf sort = .ok rules ∧
      s.orderBy sort = .ok (terms, joins) ∧ s.comparator sort = .ok compare ∧
      Keyset.beside s .after sort (decode a) = .ok after ∧
      (after.truth db b = .holds ↔ compare (decode a) (decode b) = .lt) ∧
      ((Select.compareRows db terms a b = .lt ↔ compare (decode a) (decode b) = .lt) ↔
        ∀ key, deciding? rules (decode a) (decode b) = some key →
          (key.2.term key.1.direction).direction = key.1.direction) := by
  obtain ⟨rules, hrules⟩ := exists_hasRules (isResolved_of_resolve hsort).known
  have hrulesOf := rulesOf_of_resolve hsort hrules
  refine ⟨rules, _, _, compareBy rules, _, hrulesOf, orderBy_eq hsort hrules, ?_,
    Keyset.beside_eq hsort hrules hfits ha .after,
    Keyset.truth_beside hrules hfits ha hb .after,
    compareRows_agree_iff (hfits.each hrules) ha hb⟩
  rw [comparator, hrulesOf]
  rfl

namespace Sample

/-- Persons by number, with a term that goes the other way. -/
def reversed : SortSchema Person where
  rules :=
    [("id", .of (fun p => .int p.id) fun direction =>
      ⟨.column ⟨.own, ⟨"id", .refl true⟩⟩, direction.reverse⟩)]
  distinct := by decide
  tieBreak := "id"
  registered := by decide

/-- The values of persons are those of their columns, whichever way the term goes. -/
theorem fits_reversed (sort : List SortTerm) :
    reversed.Fits database Person.ofRow (fun row => ∃ p : Person, row = p.row) sort := by
  intro term _ rule hrule
  obtain ⟨-, rfl⟩ := Prod.mk.inj (List.mem_singleton.1 (mem_rules_of_get? hrule))
  refine ⟨?_, ?_, ?_, ?_⟩
  · rintro _ ⟨p, rfl⟩
    rfl
  · rintro - _ ⟨p, rfl⟩
    rfl
  · rintro _ ⟨p, rfl⟩
    trivial
  · rintro _ _ ⟨p, rfl⟩ ⟨q, rfl⟩ - -
    rfl

end Sample

open Sample in
/-- Two persons in the order of names, in the statement and in memory. -/
theorem orderBy_agrees_iff_people :
    people.resolve [⟨"name", .desc⟩] = .ok [⟨"name", .desc⟩, ⟨"id", .asc⟩] ∧
      people.Fits database Person.ofRow (fun row => ∃ p : Person, row = p.row)
        [⟨"name", .desc⟩, ⟨"id", .asc⟩] ∧
      ∃ rules terms joins compare after, people.rulesOf [⟨"name", .desc⟩] = .ok rules ∧
        people.orderBy [⟨"name", .desc⟩] = .ok (terms, joins) ∧
        people.comparator [⟨"name", .desc⟩] = .ok compare ∧
        Keyset.beside people .after [⟨"name", .desc⟩] (Person.ofRow ada.row) = .ok after ∧
        (after.truth database anonymous.row = .holds ↔
          compare (Person.ofRow ada.row) (Person.ofRow anonymous.row) = .lt) ∧
        ((Select.compareRows database terms ada.row anonymous.row = .lt ↔
            compare (Person.ofRow ada.row) (Person.ofRow anonymous.row) = .lt) ↔
          ∀ key, deciding? rules (Person.ofRow ada.row) (Person.ofRow anonymous.row) = some key →
            (key.2.term key.1.direction).direction = key.1.direction) :=
  ⟨rfl, fits _ _, orderBy_agrees_iff rfl (fits _ _) ⟨ada, rfl⟩ ⟨anonymous, rfl⟩⟩

open Sample in
/-- With a rule that turns the direction round, a statement and the comparison in memory put two
rows in opposite orders. -/
theorem orderBy_disagrees_reversed :
    reversed.Fits database Person.ofRow (fun row => ∃ p : Person, row = p.row) [⟨"id", .asc⟩] ∧
      ∃ terms joins compare after, reversed.orderBy [⟨"id", .asc⟩] = .ok (terms, joins) ∧
        reversed.comparator [⟨"id", .asc⟩] = .ok compare ∧
        Keyset.beside reversed .after [⟨"id", .asc⟩] (Person.ofRow anonymous.row) = .ok after ∧
        compare (Person.ofRow anonymous.row) (Person.ofRow ada.row) = .lt ∧
        after.truth database ada.row = .holds ∧
        Select.compareRows database terms anonymous.row ada.row = .gt :=
  ⟨fits_reversed _, _, _, _, _, rfl, rfl, rfl, by decide, rfl, rfl⟩

end SortSchema

end FilterSql
