import FilterSql.Proofs.Filter.Decision
import FilterSql.Proofs.Filter.Pattern
import FilterSql.Proofs.Sort.Keyset
import FilterSql.Proofs.Text.Lower

/-!
# Letters that the database does not lower

Texts from callers and from rows are put in lower case by the Unicode standard before they are bound
or compared, the stored ones by the database. SQLite lowers the letters of ASCII only. So a text is
found by the test for equality, and read as the value that its sort key has in the statement, if and
only if none of its other letters has a lower-case form of its own (`Filter.folding_agrees_iff`).
Among such texts the key of a text fits as every proof about positions asks
(`SortRule.fits_ofText`).
-/

namespace FilterSql

variable {limits : Limits} {now : Instant} {s : Scope} {above : Nat} {c : FilterColumn}
  {db : Database} {row : Env}

/-- A database that lowers the letters of ASCII and compares texts by their characters, as SQLite
does. -/
structure Database.LowersAscii (db : Database) : Prop where
  lower : ∀ text, db.lower text = text.toLower
  compare : ∀ text text', db.compare (.string text) (.string text') = Ord.compare text text'

namespace Database.LowersAscii

variable {text : String}

/-- The database lowers the letters of ASCII in a text. -/
theorem lowered (hdb : db.LowersAscii) : db.lowered (.string text) = .string text.toLower :=
  congrArg Value.string (hdb.lower text)

/-- What the database makes of a text is its lower-case form. -/
theorem lowered_eq_iff (hdb : db.LowersAscii) :
    db.lowered (.string text) = .string (Text.lower text) ↔ Text.LowersAscii text := by
  rw [hdb.lowered, Value.string.injEq, ← Text.lower_eq_toLower_iff, eq_comm]

end Database.LowersAscii

/-! ## The test for equality -/

namespace FilterColumn

variable {text : String}

/-- A text is compared with the lower-cased column. -/
theorem target_of_string (hkind : c.kind = .string) (value : String) :
    c.target (.string value) = .lower c.expr := by
  simp [target, lowerText, hkind, ColumnKind.isText]

/-- Equality with a text counts `NULL` as a value where the column may be `NULL`. -/
theorem equals_of_string (hkind : c.kind = .string) (value : String) :
    c.equals (.string value) =
      if c.nullable then .nullSafeEq (.lower c.expr) (.param (.string value))
      else .eq (.lower c.expr) (.param (.string value)) := by
  simp [equals, target_of_string hkind, hkind, Value.isNull]

/-- The text of the test for equality in SQLite. -/
theorem render_equals (hkind : c.kind = .string) (value : String) {n : Namespaces}
    {bound bound' : Array Value} {sql : String}
    (h : StateT.run (c.expr.render .sqlite n) bound = .ok (sql, bound')) :
    StateT.run ((c.equals (.string value)).render .sqlite n) bound =
      .ok ("LOWER(" ++ sql ++ ")" ++ (if c.nullable then " IS " else " = ") ++
        Dialect.sqlite.placeholder (bound'.size + 1), bound'.push (.string value)) := by
  have hlower : StateT.run ((Expr.lower c.expr).render .sqlite n) bound =
      .ok ("LOWER(" ++ sql ++ ")", bound') :=
    bind_eq_ok.2 ⟨_, h, rfl⟩
  rw [equals_of_string hkind]
  split
  · exact bind_eq_ok.2 ⟨_, hlower, rfl⟩
  · rw [show " = " = " " ++ "=" ++ " " from rfl, ← String.append_assoc, ← String.append_assoc]
    exact bind_eq_ok.2 ⟨_, hlower, rfl⟩

/-- A stored text equals its own lower-case form if and only if the database lowers it alike. -/
theorem equals_itself (hdb : db.LowersAscii) (hkind : c.kind = .string)
    (hstored : c.expr.value db row = .string text) :
    ((c.equals (.string (Text.lower text))).truth db row).Says (Text.LowersAscii text) := by
  have hcompares : c.Compares db row (.string text.toLower) (.string (Text.lower text)) :=
    { plain := by rw [hkind]; rfl
      isNull := by rw [hstored]; rfl
      notNull := fun _ => rfl
      target := fun _ => by
        rw [target_of_string hkind]
        show db.lowered (c.expr.value db row) = _
        rw [hstored, hdb.lowered] }
  refine hcompares.equals_outcome.congr ?_
  rw [db.order_of_not_null rfl rfl, hdb.compare, Std.LawfulEqOrd.compare_eq_iff_eq, eq_comm]
  exact Text.lower_eq_toLower_iff text

end FilterColumn

/-! ## The key of a text -/

namespace SortRule

variable {Row : Type} {name : String} {value : Row → Operand} {rule : SortRule Row}

/-- A text key is that of its column in lower case. -/
theorem ofText_eq_ok :
    ofText name value = .ok rule ↔ ∃ column, Column.ofName name = .ok column ∧
      ofExpr (.lower (.column column)) (fun r => lowered (value r)) = rule := by
  rw [ofText, bind_eq_ok]
  simp only [pure, Except.pure, Except.ok.injEq]

/-- The key of a text reads the value that its term has, if and only if the database lowers the text
alike. -/
theorem ofText_reads_iff (hdb : db.LowersAscii) (hrule : ofText name value = .ok rule) {r : Row}
    {direction : Direction} {text : String} (hvalue : value r = .string text)
    (hstored : ∀ column, Column.ofName name = .ok column → row.column column = .string text) :
    (rule.value r).bound? = some ((rule.term direction).expr.value db row) ↔
      Text.LowersAscii text := by
  obtain ⟨column, hcolumn, rfl⟩ := ofText_eq_ok.1 hrule
  show (lowered (value r)).bound? = some (db.lowered (row.column column)) ↔ _
  rw [hvalue, hstored column hcolumn, ← hdb.lowered_eq_iff, eq_comm]
  exact Option.some_inj

/-- Where the texts of a column have no letters that the database does not lower, the key of the
column's text fits. -/
theorem fits_ofText {decode : Env → Row} {rows : Env → Prop} (hdb : db.LowersAscii)
    (hrule : ofText name value = .ok rule)
    (hrows : ∀ env, rows env → ∀ column, Column.ofName name = .ok column →
      (value (decode env) = .null ∧ env.column column = .null) ∨
        ∃ text, value (decode env) = .string text ∧ env.column column = .string text ∧
          Text.LowersAscii text) (direction : Direction) :
    rule.Fits db decode rows direction := by
  obtain ⟨column, hcolumn, rfl⟩ := ofText_eq_ok.1 hrule
  have hread : ∀ env, rows env →
      (lowered (value (decode env)) = .null ∧ db.lowered (env.column column) = .null) ∨
        ∃ text, lowered (value (decode env)) = .string text ∧
          db.lowered (env.column column) = .string text := by
    intro env henv
    rcases hrows env henv column hcolumn with ⟨hvalue, hstored⟩ | ⟨text, hvalue, hstored, hascii⟩
    · rw [hvalue, hstored]
      exact .inl ⟨rfl, rfl⟩
    · rw [hvalue, hstored]
      exact .inr ⟨_, rfl, hdb.lowered_eq_iff.2 hascii⟩
  refine ⟨fun env henv => ?_, nofun, fun env henv => ?_, fun env env' henv henv' => ?_⟩
  · show (lowered (value (decode env))).bound? = some (db.lowered (env.column column))
    rcases hread env henv with ⟨hvalue, hstored⟩ | ⟨text, hvalue, hstored⟩ <;>
      rw [hvalue, hstored] <;> rfl
  · show (lowered (value (decode env))).IsExact
    rcases hread env henv with ⟨hvalue, -⟩ | ⟨text, hvalue, -⟩ <;> rw [hvalue] <;> trivial
  · show (lowered (value (decode env))).isNull = false →
      (lowered (value (decode env'))).isNull = false →
      db.compare (db.lowered (env.column column)) (db.lowered (env'.column column)) =
        (lowered (value (decode env))).order (lowered (value (decode env')))
    intro hnull hnull'
    rcases hread env henv with ⟨hvalue, -⟩ | ⟨text, hvalue, hstored⟩
    · rw [hvalue] at hnull
      cases hnull
    · rcases hread env' henv' with ⟨hvalue', -⟩ | ⟨text', hvalue', hstored'⟩
      · rw [hvalue'] at hnull'
        cases hnull'
      · rw [hvalue, hstored, hvalue', hstored']
        exact hdb.compare _ _

end SortRule

namespace Filter

/-- In SQLite a row that stores a text is found by the test for this text, and the key of a text
reads what its term in the order comes to, if and only if the letters of the text that are not in
ASCII have no lower-case forms of their own. -/
theorem folding_agrees_iff (hdb : db.LowersAscii) (hcolumn : s.column = some c)
    (hkind : c.kind = .string) (hdepth : above < limits.maxDepth) (text : String) :
    (∃ test, compileAt limits now s .row above (.compare .eq (.string text)) =
        .ok (.condition test) ∧
      (∀ n bound sql bound', StateT.run (c.expr.render .sqlite n) bound = .ok (sql, bound') →
        StateT.run (test.render .sqlite n) bound =
          .ok ("LOWER(" ++ sql ++ ")" ++ (if c.nullable then " IS " else " = ") ++
            Dialect.sqlite.placeholder (bound'.size + 1),
            bound'.push (.string (Text.lower text)))) ∧
      ∀ row, c.expr.value db row = .string text →
        (test.truth db row).Says (Text.LowersAscii text)) ∧
    ∀ (Row : Type) name (value : Row → Operand) rule, SortRule.ofText name value = .ok rule →
      ∃ column, Column.ofName name = .ok column ∧
        ∀ direction, rule.term direction = ⟨.lower (.column column), direction⟩ ∧
          ∀ r row, value r = .string text → row.column column = .string text →
            ((rule.value r).bound? = some ((rule.term direction).expr.value db row) ↔
              Text.LowersAscii text) := by
  constructor
  · refine ⟨c.equals (.string (Text.lower text)), ?_, fun n bound sql bound' =>
      FilterColumn.render_equals hkind _, fun row => FilterColumn.equals_itself hdb hkind⟩
    have hcompare : c.compare now .eq (.string text) =
        .ok (.condition (c.equals (.string (Text.lower text)))) := by
      rw [FilterColumn.compare, hkind]
      rfl
    rw [compileAt]
    exact test_of_column (guardDepth_ok hdepth) hcolumn "$eq" hcompare
  · intro Row name value rule hrule
    obtain ⟨column, hname, rfl⟩ := SortRule.ofText_eq_ok.1 hrule
    refine ⟨column, hname, fun direction => ⟨rfl, fun r row hvalue hstored => ?_⟩⟩
    refine SortRule.ofText_reads_iff hdb hrule hvalue fun column' hname' => ?_
    cases hname.symm.trans hname'
    exact hstored

namespace Sample

/-- A database without tables that lowers the letters of ASCII. -/
def ascii : Database :=
  { Database.plain fun _ => [] with lower := String.toLower }

/-- It lowers the letters of ASCII. -/
theorem lowersAscii_ascii : ascii.LowersAscii :=
  ⟨fun _ => rfl, fun _ _ => rfl⟩

/-- Texts in their order. -/
def byText : SortRule String :=
  .ofExpr (.lower (.column ⟨.own, ⟨"text", .refl true⟩⟩)) fun text =>
    SortRule.lowered (.string text)

/-- It is the rule of the column with the texts. -/
theorem ofText_byText : SortRule.ofText "text" Operand.string = .ok byText := rfl

end Sample

open Sample in
/-- A text whose other letters have no lower case of their own is found, and read as its key. -/
theorem folding_agrees_iff_note :
    ∃ test, compileAt {} default atNote .row 0 (.compare .eq (.string "STRAßE")) =
        .ok (.condition test) ∧
      test.truth ascii (note "STRAßE") = .holds ∧
      (byText.value "STRAßE").bound? =
        some ((byText.term .asc).expr.value ascii (note "STRAßE")) := by
  have hcolumn : atNote.column = some noteText := rfl
  have hdepth : 0 < ({} : Limits).maxDepth := by decide
  have hascii : Text.LowersAscii "STRAßE" := by decide
  obtain ⟨⟨test, htest, -, houtcome⟩, hkey⟩ :=
    @folding_agrees_iff {} default atNote 0 noteText ascii lowersAscii_ascii hcolumn rfl hdepth
      "STRAßE"
  obtain ⟨column, hname, hterm⟩ := hkey String "text" Operand.string byText ofText_byText
  cases hname
  exact ⟨test, htest, (Truth.says_iff.1 (houtcome _ rfl)).2.2 hascii,
    ((hterm .asc).2 _ _ rfl rfl).2 hascii⟩

open Sample in
/-- A row is not found by its own text, and the key of the text is not what the row is sorted by. -/
theorem folding_disagrees_accent :
    ascii.LowersAscii ∧
      ∃ test, compileAt {} default atNote .row 0 (.compare .eq (.string "É")) =
          .ok (.condition test) ∧
        test.truth ascii (note "É") = .fails ∧
        SortRule.ofText "text" Operand.string = .ok byText ∧
        (byText.value "É").bound? = some (.string "é") ∧
        (byText.term .asc).expr.value ascii (note "É") = .string "É" := by
  have hlower : "É".toLower = "É" := by
    rw [show "É".toLower = "É".map Char.toLower from rfl, ← String.toList_inj, String.toList_map]
    rfl
  have houtcome : ((noteText.equals (.string (Text.lower "É"))).truth ascii (note "É")).Says
      (Text.LowersAscii "É") :=
    FilterColumn.equals_itself lowersAscii_ascii rfl rfl
  have haccent : ¬Text.LowersAscii "É" := by decide
  exact ⟨lowersAscii_ascii, _, rfl, houtcome.eq_fails haccent, rfl, rfl,
    congrArg Value.string hlower⟩

end Filter

end FilterSql
