/-!
# Three-valued truth

The truth values of SQL and Kleene's connectives on them. `Truth.Says` relates a truth value to a
proposition in two-valued logic: it rules out `unknown`. The lemmas `says_not`, `says_and` and
`says_or` carry it through the connectives, and `all_append` and `any_append` let nested
connectives be flattened.
-/

namespace FilterSql

/-- What a condition comes to on a row. -/
inductive Truth where
  | holds
  | fails
  | unknown
  deriving DecidableEq

namespace Truth

/-- A truth value that is known. -/
def ofBool : Bool → Truth
  | true => .holds
  | false => .fails

/-- The negation; what is unknown stays unknown. -/
def not : Truth → Truth
  | .holds => .fails
  | .fails => .holds
  | .unknown => .unknown

/-- The conjunction: one side that fails settles it. -/
def and : Truth → Truth → Truth
  | .fails, _ => .fails
  | _, .fails => .fails
  | .holds, .holds => .holds
  | _, _ => .unknown

/-- The disjunction: one side that holds settles it. -/
def or : Truth → Truth → Truth
  | .holds, _ => .holds
  | _, .holds => .holds
  | .fails, .fails => .fails
  | _, _ => .unknown

/-- The conjunction of a list; none at all holds. -/
def all (ts : List Truth) : Truth :=
  ts.foldr and .holds

/-- The disjunction of a list; none at all fails. -/
def any (ts : List Truth) : Truth :=
  ts.foldr or .fails

/-- The truth value is known, and it is that of the proposition. -/
def Says : Truth → Prop → Prop
  | .holds, p => p
  | .fails, p => ¬p
  | .unknown, _ => False

/-! ## The connectives -/

/-- Two negations cancel. -/
@[simp] theorem not_not (t : Truth) : t.not.not = t := by cases t <;> rfl

/-- A conjunct before the others that holds changes nothing. -/
@[simp] theorem holds_and (t : Truth) : holds.and t = t := by cases t <;> rfl

/-- A conjunct behind the others that holds changes nothing. -/
@[simp] theorem and_holds (t : Truth) : t.and holds = t := by cases t <;> rfl

/-- A conjunct before the others that fails settles them. -/
@[simp] theorem fails_and (t : Truth) : fails.and t = fails := rfl

/-- A conjunct behind the others that fails settles them. -/
@[simp] theorem and_fails (t : Truth) : t.and fails = fails := by cases t <;> rfl

/-- A disjunct before the others that fails changes nothing. -/
@[simp] theorem fails_or (t : Truth) : fails.or t = t := by cases t <;> rfl

/-- A disjunct behind the others that fails changes nothing. -/
@[simp] theorem or_fails (t : Truth) : t.or fails = t := by cases t <;> rfl

/-- A disjunct before the others that holds settles them. -/
@[simp] theorem holds_or (t : Truth) : holds.or t = holds := rfl

/-- A disjunct behind the others that holds settles them. -/
@[simp] theorem or_holds (t : Truth) : t.or holds = holds := by cases t <;> rfl

/-- The conjunction is associative. -/
theorem and_assoc (s t u : Truth) : (s.and t).and u = s.and (t.and u) := by
  cases s <;> cases t <;> cases u <;> rfl

/-- The disjunction is associative. -/
theorem or_assoc (s t u : Truth) : (s.or t).or u = s.or (t.or u) := by
  cases s <;> cases t <;> cases u <;> rfl

/-- A truth value that is known is negated as a boolean. -/
@[simp] theorem not_ofBool (b : Bool) : (ofBool b).not = ofBool (!b) := by cases b <;> rfl

/-- The conjunction of nothing holds. -/
@[simp] theorem all_nil : all [] = holds := rfl

/-- The conjunction of a list is that of its first value and the rest. -/
@[simp] theorem all_cons (t : Truth) (ts : List Truth) : all (t :: ts) = t.and (all ts) := rfl

/-- The disjunction of nothing fails. -/
@[simp] theorem any_nil : any [] = fails := rfl

/-- The disjunction of a list is that of its first value and the rest. -/
@[simp] theorem any_cons (t : Truth) (ts : List Truth) : any (t :: ts) = t.or (any ts) := rfl

/-- A conjunction may be taken in two parts. -/
theorem all_append (ts us : List Truth) : all (ts ++ us) = (all ts).and (all us) := by
  induction ts with
  | nil => simp
  | cons t ts ih => simp [ih, and_assoc]

/-- A disjunction may be taken in two parts. -/
theorem any_append (ts us : List Truth) : any (ts ++ us) = (any ts).or (any us) := by
  induction ts with
  | nil => simp
  | cons t ts ih => simp [ih, or_assoc]

/-! ## What holds -/

/-- The truth value of a boolean holds exactly if the boolean is true. -/
@[simp] theorem ofBool_eq_holds {b : Bool} : ofBool b = holds ↔ b = true := by
  cases b <;> simp [ofBool]

/-- A conjunction holds exactly when both sides do, even where one of them is unknown. -/
theorem and_eq_holds {s t : Truth} : s.and t = holds ↔ s = holds ∧ t = holds := by
  cases s <;> cases t <;> simp [and]

/-- A disjunction holds exactly when one side does, even where the other is unknown. -/
theorem or_eq_holds {s t : Truth} : s.or t = holds ↔ s = holds ∨ t = holds := by
  cases s <;> cases t <;> simp [or]

/-! ## Two-valued readings -/

variable {s t : Truth} {p q : Prop}

/-- A truth value says a proposition exactly when it is known and holds with the proposition. -/
theorem says_iff : t.Says p ↔ t ≠ unknown ∧ (t = holds ↔ p) := by
  cases t <;> simp [Says]

/-- What says a proposition that is false fails. -/
theorem Says.eq_fails (h : t.Says p) (hp : ¬p) : t = fails := by
  cases t with
  | holds => exact absurd h hp
  | fails => rfl
  | unknown => exact h.elim

/-- The proposition may be replaced by an equivalent one. -/
theorem Says.congr (h : t.Says p) (hpq : p ↔ q) : t.Says q := by
  rwa [← propext hpq]

/-- The truth value of a boolean says that it is true. -/
theorem says_ofBool {b : Bool} : (ofBool b).Says (b = true) := by
  cases b <;> simp [Says, ofBool]

/-- A negation says the negation. -/
theorem says_not (h : t.Says p) : t.not.Says ¬p := by
  cases t with
  | holds => exact fun hp => hp h
  | fails => exact h
  | unknown => exact h.elim

/-- A conjunction says the conjunction. -/
theorem says_and (hs : s.Says p) (ht : t.Says q) : (s.and t).Says (p ∧ q) := by
  cases s with
  | holds => simpa using ht.congr (by simp [show p from hs])
  | fails => exact fun h => hs h.1
  | unknown => exact hs.elim

/-- A disjunction says the disjunction. -/
theorem says_or (hs : s.Says p) (ht : t.Says q) : (s.or t).Says (p ∨ q) := by
  cases s with
  | holds => exact Or.inl hs
  | fails => simpa using ht.congr (by simp [show ¬p from hs])
  | unknown => exact hs.elim

/-- Where one side holds, the other one may be unknown. -/
theorem says_or_of_left (hs : s.Says p) (hp : p) : (s.or t).Says (p ∨ q) := by
  cases s with
  | holds => exact Or.inl hp
  | fails => exact absurd hp hs
  | unknown => exact hs.elim

end Truth

end FilterSql
