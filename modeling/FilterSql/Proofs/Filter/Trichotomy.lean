import FilterSql.Proofs.Filter.Decision
import FilterSql.Proofs.Filter.Steps
import FilterSql.Sql.Render

/-!
# One of less, equal and greater

On a column with one kind of `NULL` exactly one of `$lt`, `$eq` and `$gt` holds. A JSON document has
a `null` of its own beside the `NULL` of a missing part, and only the test for equality looks for
both. So on a column of JSON strings one of the three holds where the part is missing or a string,
and where it is a JSON `null` two of them hold or none does (`Filter.compare_jsonString`).
-/

namespace FilterSql

variable {limits : Limits} {now : Instant} {s : Scope} {above : Nat} {c : FilterColumn}
  {db : Database} {row : Env}

/-- What stands in the place of a JSON string. -/
inductive JsonText where
  | missing
  | null
  | string (text : String)

namespace JsonText

/-- Whether the part of the document is missing. -/
def isMissing : JsonText → Bool
  | .missing => true
  | _ => false

/-- The outcome of the test for a JSON `null`. -/
def nullTest : JsonText → Truth
  | .missing => .unknown
  | .null => .holds
  | .string _ => .fails

/-- The part as a text, `NULL` where there is none. -/
def unquoted : JsonText → Value
  | .string text => .string text
  | _ => .null

end JsonText

/-- A database that reads JSON strings as Postgres does: only what is missing is `NULL`, and a JSON
`null` becomes `NULL` as a text. -/
structure Database.ReadsJsonTexts (db : Database) (stored : JsonText → Value) : Prop where
  isNull : ∀ t, (stored t).isNull = t.isMissing
  isJsonNull : ∀ t, db.isJsonNull (stored t) = t.nullTest
  unquote : ∀ t, db.jsonUnquote (stored t) = t.unquoted

/-! ## The tests -/

namespace FilterColumn

/-- A nullable column of JSON strings with a part of a document on a row. -/
structure ReadsJsonText (db : Database) (c : FilterColumn) (row : Env) (t : JsonText) : Prop where
  kind : c.kind = .jsonString
  nullable : c.nullable = true
  isNull : (c.expr.value db row).isNull = t.isMissing
  isJsonNull : db.isJsonNull (c.expr.value db row) = t.nullTest
  unquote : db.jsonUnquote (c.expr.value db row) = t.unquoted

/-- A nullable column of JSON strings has the part of the document that the row stores. -/
theorem readsJsonText {stored : JsonText → Value} {t : JsonText} (hdb : db.ReadsJsonTexts stored)
    (hkind : c.kind = .jsonString) (hnullable : c.nullable = true)
    (hrow : c.expr.value db row = stored t) : c.ReadsJsonText db row t :=
  ⟨hkind, hnullable, hrow ▸ hdb.isNull t, hrow ▸ hdb.isJsonNull t, hrow ▸ hdb.unquote t⟩

namespace ReadsJsonText

variable {t : JsonText} {wanted : String} (h : c.ReadsJsonText db row t)
include h

/-- The test for `NULL` finds what is missing. -/
theorem truth_null : (Condition.null c.expr).truth db row = .ofBool t.isMissing := by
  rw [Condition.truth_null, h.isNull]

/-- The negated test for `NULL` finds what is there. -/
theorem truth_notNull : (Condition.notNull c.expr).truth db row = .ofBool !t.isMissing := by
  rw [Condition.truth_notNull, h.isNull]

/-- The text of the column in lower case, `NULL` where there is none. -/
theorem value_target : (c.target (.string wanted)).value db row = db.lowered t.unquoted := by
  have htarget : c.target (.string wanted) = .lower (.jsonUnquote c.expr) := by
    simp [target, lowerText, h.kind, ColumnKind.isText]
  rw [htarget]
  show db.lowered (db.jsonUnquote (c.expr.value db row)) = _
  rw [h.unquote]

/-- A comparison with a text compares the part as a text. -/
theorem truth_compare (op : CompareOp) :
    (Condition.compare (c.target (.string wanted)) op (.param (.string wanted))).truth db row =
      db.test op (db.lowered t.unquoted) (.string wanted) := by
  rw [Condition.truth_compare, h.value_target, Expr.value_param]

/-- The test for equality with `NULL` finds a JSON `null` and what is missing. -/
theorem truth_equals_null :
    (c.equals .null).truth db row = t.nullTest.or (.ofBool t.isMissing) := by
  have hequals : c.equals .null = (Condition.isJsonNull c.expr).or (.null c.expr) := by
    simp [equals, isNothing, h.kind, ColumnKind.isJson]
  rw [hequals, Condition.truth_or, h.truth_null]
  show (db.isJsonNull (c.expr.value db row)).or _ = _
  rw [h.isJsonNull]

/-- The test for equality with a text counts `NULL` as a value. -/
theorem truth_equals_string :
    (c.equals (.string wanted)).truth db row =
      .ofBool (db.nullSafeEq (db.lowered t.unquoted) (.string wanted)) := by
  have hequals : c.equals (.string wanted) =
      .nullSafeEq (c.target (.string wanted)) (.param (.string wanted)) := by
    simp [equals, h.kind, h.nullable, Value.isNull]
  rw [hequals, ← h.value_target]
  rfl

/-- Above `NULL` is what is there. -/
theorem truth_above_null : (c.above .null).truth db row = .ofBool !t.isMissing := by
  have habove : c.above .null = .condition (.notNull c.expr) := by
    simp [above, h.nullable]
  rw [habove]
  exact h.truth_notNull

/-- Above a text is what is there and comes after it. -/
theorem truth_above_string :
    (c.above (.string wanted)).truth db row =
      (Truth.ofBool !t.isMissing).and (db.test .gt (db.lowered t.unquoted) (.string wanted)) := by
  have habove : c.above (.string wanted) = .condition ((Condition.notNull c.expr).and
      (.compare (c.target (.string wanted)) .gt (.param (.string wanted)))) := by
    simp [above, h.nullable, Value.isNull]
  rw [habove, ← h.truth_notNull, ← h.truth_compare]
  exact Condition.truth_and _ _ _

/-- Below a text is what is missing or comes before it. -/
theorem truth_below_string :
    (c.below (.string wanted)).truth db row =
      (Truth.ofBool t.isMissing).or (db.test .lt (db.lowered t.unquoted) (.string wanted)) := by
  have hbelow : c.below (.string wanted) = .condition ((Condition.null c.expr).or
      (.compare (c.target (.string wanted)) .lt (.param (.string wanted)))) := by
    simp [below, h.nullable, Value.isNull]
  rw [hbelow, ← h.truth_null, ← h.truth_compare]
  exact Condition.truth_or _ _ _

/-- Unless the part of the document is a JSON `null`, the three tests say how its text in lower case
and the value are ordered. -/
theorem outcomes {value : Value} (hvalue : value = .null ∨ ∃ wanted, value = .string wanted)
    (ht : t ≠ .null) :
    ((c.below value).truth db row).Says (db.order (db.lowered t.unquoted) value = .lt) ∧
      ((c.equals value).truth db row).Says (db.order (db.lowered t.unquoted) value = .eq) ∧
      ((c.above value).truth db row).Says (db.order (db.lowered t.unquoted) value = .gt) := by
  rcases hvalue with rfl | ⟨wanted, rfl⟩
  · rw [h.truth_equals_null, h.truth_above_null]
    show Truth.fails.Says _ ∧ _
    cases t with
    | missing => exact ⟨nofun, rfl, nofun⟩
    | null => exact absurd rfl ht
    | string text => exact ⟨nofun, nofun, rfl⟩
  · rw [h.truth_below_string, h.truth_equals_string, h.truth_above_string]
    have hequal : (Truth.ofBool (db.nullSafeEq (db.lowered t.unquoted) (.string wanted))).Says
        (db.order (db.lowered t.unquoted) (.string wanted) = .eq) :=
      Truth.says_ofBool.congr db.nullSafeEq_iff
    cases t with
    | missing => exact ⟨rfl, hequal, nofun⟩
    | null => exact absurd rfl ht
    | string text =>
        have htest : ∀ op, (db.test op (db.lowered (.string text)) (.string wanted)).Says
            (op.accepts (db.order (db.lowered (.string text)) (.string wanted)) = true) :=
          fun op => db.test_outcome op rfl rfl
        refine ⟨?_, hequal, ?_⟩
        · show (Truth.fails.or _).Says _
          rw [Truth.fails_or]
          exact (htest .lt).congr beq_iff_eq
        · show (Truth.holds.and _).Says _
          rw [Truth.holds_and]
          exact (htest .gt).congr beq_iff_eq

/-- Where the part of the document is a JSON `null`, it equals `NULL` and is greater, and it is not
compared with any string. -/
theorem outcomes_null (ht : t = .null) :
    ((c.below .null).truth db row = .fails ∧ (c.equals .null).truth db row = .holds ∧
      (c.above .null).truth db row = .holds) ∧
    ∀ wanted, (c.below (.string wanted)).truth db row = .unknown ∧
      (c.equals (.string wanted)).truth db row = .fails ∧
      (c.above (.string wanted)).truth db row = .unknown := by
  subst ht
  refine ⟨⟨rfl, h.truth_equals_null, h.truth_above_null⟩, fun wanted => ?_⟩
  exact ⟨h.truth_below_string, h.truth_equals_string, h.truth_above_string⟩

end ReadsJsonText

end FilterColumn

/-! ## What holds of the three -/

/-- Of three tests for an order exactly one holds. -/
theorem Truth.countP_says {less equal greater : Truth} {o : Ordering} (hless : less.Says (o = .lt))
    (hequal : equal.Says (o = .eq)) (hgreater : greater.Says (o = .gt)) :
    [less, equal, greater].countP (· = .holds) = 1 := by
  have hless := (says_iff.1 hless).2
  have hequal := (says_iff.1 hequal).2
  have hgreater := (says_iff.1 hgreater).2
  cases o <;> simp [hless, hequal, hgreater]

namespace Filter

variable {stored : JsonText → Value}

/-- The three tests of a nullable column of JSON strings with `null` or a string, in Postgres. Where
the part of the document is missing or a string they say how it is ordered beside the operand, so
one of them holds. Where it is a JSON `null` two of them hold for `null` and none for a string. -/
theorem compare_jsonString (hdb : db.ReadsJsonTexts stored) (hcolumn : s.column = some c)
    (hkind : c.kind = .jsonString) (hnullable : c.nullable = true)
    (hdepth : above < limits.maxDepth) {operand : Operand}
    (hoperand : operand = .null ∨ ∃ wanted, operand = .string wanted) :
    ∃ less equal greater,
      compileAt limits now s .row above (.compare .lt operand) = .ok less ∧
      compileAt limits now s .row above (.compare .eq operand) = .ok equal ∧
      compileAt limits now s .row above (.compare .gt operand) = .ok greater ∧
      (∀ n bound text bound', StateT.run (c.expr.render .postgres n) bound = .ok (text, bound') →
        StateT.run ((Condition.isJsonNull c.expr).render .postgres n) bound =
            .ok (text ++ " = 'null'::jsonb", bound') ∧
          StateT.run ((Expr.jsonUnquote c.expr).render .postgres n) bound =
            .ok ("(" ++ text ++ " #>> '\x7b\x7d')", bound')) ∧
      ∀ row t, c.expr.value db row = stored t →
        (t ≠ .null →
          ((less.truth db row).Says
              (db.order (db.lowered t.unquoted) (operand.meaning now) = .lt) ∧
            (equal.truth db row).Says
              (db.order (db.lowered t.unquoted) (operand.meaning now) = .eq) ∧
            (greater.truth db row).Says
              (db.order (db.lowered t.unquoted) (operand.meaning now) = .gt)) ∧
          [less.truth db row, equal.truth db row, greater.truth db row].countP (· = .holds) = 1) ∧
        (t = .null →
          [less.truth db row, equal.truth db row, greater.truth db row].countP (· = .holds) =
            if operand.isNull then 2 else 0) := by
  have hvalue : operand.toValue now c.kind = .ok (operand.meaning now) := by
    rcases hoperand with rfl | ⟨wanted, rfl⟩ <;> rw [hkind] <;> rfl
  have htest : ∀ op p, c.compare now op operand = .ok p →
      compileAt limits now s .row above (.compare op operand) = .ok p := by
    intro op p hp
    rw [compileAt]
    exact test_of_column (guardDepth_ok hdepth) hcolumn op.keyword hp
  refine ⟨c.below (operand.meaning now), .condition (c.equals (operand.meaning now)),
    c.above (operand.meaning now), htest .lt _ ?_, htest .eq _ ?_, htest .gt _ ?_,
    fun n bound text bound' h => ⟨bind_eq_ok.2 ⟨_, h, rfl⟩, bind_eq_ok.2 ⟨_, h, rfl⟩⟩,
    fun row t hrow => ?_⟩
  · rw [FilterColumn.compare, hvalue]
    rfl
  · rw [FilterColumn.compare, hvalue]
    rfl
  · rw [FilterColumn.compare, hvalue]
    rfl
  have hreads := FilterColumn.readsJsonText hdb hkind hnullable hrow
  have hmeaning : operand.meaning now = .null ∨ ∃ wanted, operand.meaning now = .string wanted := by
    rcases hoperand with rfl | ⟨wanted, rfl⟩
    · exact .inl rfl
    · exact .inr ⟨_, rfl⟩
  constructor
  · intro ht
    obtain ⟨hless, hequal, hgreater⟩ := hreads.outcomes hmeaning ht
    exact ⟨⟨hless, hequal, hgreater⟩, Truth.countP_says hless hequal hgreater⟩
  · intro ht
    obtain ⟨⟨hless, hequal, hgreater⟩, hstring⟩ := hreads.outcomes_null ht
    rcases hoperand with rfl | ⟨wanted, rfl⟩
    · show [(c.below .null).truth db row, (c.equals .null).truth db row,
        (c.above .null).truth db row].countP (· = .holds) = 2
      rw [hless, hequal, hgreater]
      rfl
    · obtain ⟨hless, hequal, hgreater⟩ := hstring (Text.lower wanted)
      show [(c.below (.string _)).truth db row, (c.equals (.string _)).truth db row,
        (c.above (.string _)).truth db row].countP (· = .holds) = 0
      rw [hless, hequal, hgreater]
      rfl

namespace Sample

/-- A document that Postgres stores. -/
def document : JsonText → Value
  | .missing => .null
  | .null => .bool false
  | .string text => .string text

/-- A database without tables that reads documents as Postgres does. -/
def postgres : Database :=
  { Database.plain fun _ => [] with
    isJsonNull := fun v =>
      match v with
      | .null => .unknown
      | .bool _ => .holds
      | _ => .fails
    jsonUnquote := fun v =>
      match v with
      | .string text => .string text
      | _ => .null }

/-- The database reads documents as Postgres does. -/
theorem readsJsonTexts_postgres : postgres.ReadsJsonTexts document where
  isNull t := by cases t <;> rfl
  isJsonNull t := by cases t <;> rfl
  unquote t := by cases t <;> rfl

/-- A name that is part of a document. -/
def nick : FilterColumn :=
  ⟨.column ⟨.own, ⟨"nick", .refl true⟩⟩, .jsonString, true⟩

/-- At the name. -/
def atNick : Scope := ⟨.none, some nick, ⟨["nick"]⟩⟩

/-- A guest with a name in a document. -/
def named (t : JsonText) : Env :=
  Env.top.onRow "guests" fun _ => some (document t)

end Sample

open Sample in
/-- For every nickname but a JSON `null` one of the three tests holds. -/
theorem compare_jsonString_nick :
    ∃ less equal greater,
      compileAt {} default atNick .row 0 (.compare .lt (.string "Max")) = .ok less ∧
      compileAt {} default atNick .row 0 (.compare .eq (.string "Max")) = .ok equal ∧
      compileAt {} default atNick .row 0 (.compare .gt (.string "Max")) = .ok greater ∧
      ∀ t, t ≠ .null → [less.truth postgres (named t), equal.truth postgres (named t),
        greater.truth postgres (named t)].countP (· = .holds) = 1 := by
  have hcolumn : atNick.column = some nick := rfl
  have hdepth : 0 < ({} : Limits).maxDepth := by decide
  obtain ⟨less, equal, greater, hless, hequal, hgreater, -, hrow⟩ :=
    @compare_jsonString {} default atNick 0 nick postgres document readsJsonTexts_postgres hcolumn
      rfl rfl hdepth (.string "Max") (.inr ⟨_, rfl⟩)
  exact ⟨less, equal, greater, hless, hequal, hgreater, fun t ht =>
    ((hrow (named t) t rfl).1 ht).2⟩

open Sample in
/-- A JSON `null` equals `NULL` and is greater than it, and it is neither less than a string nor
equal to it nor greater. -/
theorem compare_jsonString_fails_null :
    postgres.ReadsJsonTexts document ∧
      ∃ less equal greater,
        compileAt {} default atNick .row 0 (.compare .lt .null) = .ok less ∧
        compileAt {} default atNick .row 0 (.compare .eq .null) = .ok equal ∧
        compileAt {} default atNick .row 0 (.compare .gt .null) = .ok greater ∧
        less.truth postgres (named .null) = .fails ∧
        equal.truth postgres (named .null) = .holds ∧
        greater.truth postgres (named .null) = .holds ∧
        ∃ less equal greater,
          compileAt {} default atNick .row 0 (.compare .lt (.string "max")) = .ok less ∧
          compileAt {} default atNick .row 0 (.compare .eq (.string "max")) = .ok equal ∧
          compileAt {} default atNick .row 0 (.compare .gt (.string "max")) = .ok greater ∧
          less.truth postgres (named .null) = .unknown ∧
          equal.truth postgres (named .null) = .fails ∧
          greater.truth postgres (named .null) = .unknown :=
  ⟨readsJsonTexts_postgres, _, _, _, rfl, rfl, rfl, rfl, rfl, rfl, _, _, _, rfl, rfl, rfl, rfl, rfl,
    rfl⟩

end Filter

end FilterSql
