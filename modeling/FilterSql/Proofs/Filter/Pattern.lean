import FilterSql.Proofs.Filter.Membership
import FilterSql.Sql.Render

/-!
# Texts that are searched for with patterns

Two tests bind a text from a caller as a pattern. The search for a substring escapes it, so it finds
what contains the text and nothing else (`Filter.contains_finds`). The search for an element of a
JSON array does not: in MySQL the text itself is the pattern, and it finds what equals the text only
if none of its characters has a meaning in patterns (`Filter.equals_searches`).
-/

namespace FilterSql

variable {limits : Limits} {now : Instant} {s : Scope} {above : Nat} {c : FilterColumn}

/-! ## The search for a substring -/

namespace FilterColumn

/-- The text that a column holds. -/
def text (c : FilterColumn) : Expr :=
  match c.kind with
  | .jsonString => .jsonUnquote c.expr
  | _ => c.expr

/-- The lower-cased column is the lower-cased text that it holds. -/
theorem lowerText_eq (c : FilterColumn) : c.lowerText = .lower c.text := by
  unfold lowerText text
  cases c.kind <;> rfl

end FilterColumn

namespace Filter

/-- The value of a test is bound behind those of the expression that it tests. -/
theorem render_like {d : Dialect} {n : Namespaces} {expr : Expr} {pattern : Value} {negated : Bool}
    {bound bound' : Array Value} {text : String}
    (h : StateT.run (expr.render d n) bound = .ok (text, bound')) :
    StateT.run ((Condition.like expr pattern negated).render d n) bound =
      .ok (d.like text (d.placeholder (bound'.size + 1)) negated, bound'.push pattern) :=
  bind_eq_ok.2 ⟨_, h, rfl⟩

/-- The pattern that is bound for the search for a text matches the texts that contain it in lower
case, whatever characters it is made of. So the search finds the columns whose text in lower case
contains it. -/
theorem contains_finds (hcolumn : s.column = some c) (htext : c.kind.isText = true)
    (hdepth : above < limits.maxDepth) (needle : String) :
    ∃ pattern : String,
      compileAt limits now s .row above (.contains needle) =
        .ok (.condition (.like c.lowerText (.string pattern) false)) ∧
      (∀ d n bound text bound',
        StateT.run (c.lowerText.render d n) bound = .ok (text, bound') →
          StateT.run ((Condition.like c.lowerText (.string pattern) false).render d n) bound =
            .ok (d.like text (d.placeholder (bound'.size + 1)) false,
              bound'.push (.string pattern))) ∧
      (∀ text, Like.Matches pattern text = true ↔
        (Text.lower needle).toList <:+: text.toList) ∧
      ∀ db row stored, c.text.value db row = .string stored →
        ((Condition.like c.lowerText (.string pattern) false).truth db row).Says
          ((Text.lower needle).toList <:+: (db.lower stored).toList) := by
  have hmatches := Like.matches_containsPattern needle
  refine ⟨FilterColumn.containsPattern needle, ?_, fun d n bound text bound' => render_like,
    hmatches, fun db row stored hstored => ?_⟩
  · rw [compileAt]
    exact test_of_column (guardDepth_ok hdepth) hcolumn "$contains" (if_pos htext)
  · have hlowered : c.lowerText.value db row = .string (db.lower stored) := by
      rw [c.lowerText_eq]
      show db.lowered (c.text.value db row) = _
      rw [hstored]
      rfl
    rw [Condition.truth_like, hlowered, db.isLike_string, ← hmatches]
    exact Truth.says_ofBool

namespace Sample

/-- The text of a note. -/
def noteText : FilterColumn :=
  ⟨.column ⟨.own, ⟨"text", .refl true⟩⟩, .string, true⟩

/-- At the text of a note. -/
def atNote : Scope := ⟨.none, some noteText, ⟨["text"]⟩⟩

/-- A note with a text. -/
def note (stored : String) : Env :=
  Env.top.onRow "notes" fun _ => some (.string stored)

end Sample

open Sample in
/-- A text with the characters of patterns is found as it is, and not as a pattern. -/
theorem contains_finds_note :
    ∃ pattern : String, compileAt {} default atNote .row 0 (.contains "50%_\\") =
        .ok (.condition (.like noteText.lowerText (.string pattern) false)) ∧
      (Condition.like noteText.lowerText (.string pattern) false).truth (.plain fun _ => [])
        (note "AT 50%_\\ OFF") = .holds ∧
      (Condition.like noteText.lowerText (.string pattern) false).truth (.plain fun _ => [])
        (note "at 50 %_\\ off") ≠ .holds := by
  have hcolumn : atNote.column = some noteText := rfl
  have hdepth : 0 < ({} : Limits).maxDepth := by decide
  obtain ⟨pattern, hcompile, -, -, hsays⟩ :=
    @contains_finds {} default atNote 0 noteText hcolumn rfl hdepth "50%_\\"
  have hfound := hsays (.plain fun _ => []) (note "AT 50%_\\ OFF") _ rfl
  have hmissed := hsays (.plain fun _ => []) (note "at 50 %_\\ off") _ rfl
  refine ⟨pattern, hcompile, (Truth.says_iff.1 hfound).2.2 (by decide), fun hholds => ?_⟩
  exact absurd ((Truth.says_iff.1 hmissed).2.1 hholds) (by decide)

end Filter

/-! ## The search for an element -/

/-- A database that looks for a string in the JSON arrays that it stores as MySQL does: it matches
the strings among the elements in lower case against a pattern. -/
def Database.SearchesArrays (db : Database) (elements : Value → List Value) : Prop :=
  ∀ array pattern, db.arrayHolds array (.string pattern) true = true ↔
    ∃ t, Value.string t ∈ elements array ∧ Like.Matches pattern (db.lower t) = true

namespace Filter

/-- The pattern is bound as it is. -/
theorem render_search {n : Namespaces} {expr : Expr} {pattern text : String}
    {bound bound' : Array Value}
    (h : StateT.run (expr.render .mysql n) bound = .ok (text, bound')) :
    StateT.run ((Condition.arrayContains expr (.string pattern) true).render .mysql n) bound =
      .ok ("JSON_SEARCH(LOWER(" ++ text ++ "), 'one', " ++ "?" ++ ") IS NOT NULL",
        bound'.push (.string pattern)) :=
  bind_eq_ok.2 ⟨_, h, rfl⟩

/-- In MySQL the search for a string in a JSON array binds the string in lower case as a pattern.
Where none of its characters has a meaning in patterns the search finds the arrays that have the
string in lower case. As a pattern any other string matches a text that differs from it, or does not
match itself. -/
theorem equals_searches {db : Database} {elements : Value → List Value}
    (hdb : db.SearchesArrays elements) (hcolumn : s.column = some c)
    (hkind : c.kind = .jsonArray) (hdepth : above < limits.maxDepth) (wanted : String) :
    ∃ test, compileAt limits now s .row above (.compare .eq (.string wanted)) =
        .ok (.condition test) ∧
      (∀ n bound text bound',
        StateT.run (c.expr.render .mysql n) bound = .ok (text, bound') →
          StateT.run (test.render .mysql n) bound =
            .ok ("JSON_SEARCH(LOWER(" ++ text ++ "), 'one', " ++ "?" ++ ") IS NOT NULL",
              bound'.push (.string (Text.lower wanted)))) ∧
      (∀ row, (c.expr.value db row).isNull = false →
        (test.truth db row = .holds ↔ ∃ t, Value.string t ∈ elements (c.expr.value db row) ∧
          Like.Matches (Text.lower wanted) (db.lower t) = true)) ∧
      (Like.IsPlain (Text.lower wanted).toList → ∀ row, (c.expr.value db row).isNull = false →
        (test.truth db row = .holds ↔
          ∃ t, Value.string t ∈ elements (c.expr.value db row) ∧ db.lower t = Text.lower wanted)) ∧
      (Like.IsPlain (Text.lower wanted).toList ↔
        ∀ text, Like.Matches (Text.lower wanted) text = true ↔ text = Text.lower wanted) := by
  have hplain := Like.matches_self_only_iff (Text.lower wanted)
  have hcompare : c.compare now .eq (.string wanted) =
      .ok (.condition (.arrayContains c.expr (.string (Text.lower wanted)) true)) := by
    rw [FilterColumn.compare, hkind]
    show Except.ok (Predicate.condition (c.equals (.string (Text.lower wanted)))) = _
    rw [FilterColumn.equals, hkind]
    rfl
  have hfinds : ∀ row, (c.expr.value db row).isNull = false →
      ((Condition.arrayContains c.expr (.string (Text.lower wanted)) true).truth db row = .holds ↔
        ∃ t, Value.string t ∈ elements (c.expr.value db row) ∧
          Like.Matches (Text.lower wanted) (db.lower t) = true) := by
    intro row hrow
    rw [FilterColumn.truth_arrayContains, and_iff_right hrow]
    exact hdb _ _
  refine ⟨.arrayContains c.expr (.string (Text.lower wanted)) true, ?_,
    fun n bound text bound' => render_search, hfinds, fun hplain' row hrow => ?_, hplain.symm⟩
  · rw [compileAt]
    exact test_of_column (guardDepth_ok hdepth) hcolumn "$eq" hcompare
  · rw [hfinds row hrow]
    simp only [hplain.2 hplain']

namespace Sample

/-- A database without tables that looks for strings in arrays with patterns. -/
def searching : Database :=
  { Database.plain fun _ => [] with
    arrayHolds := fun array value foldCase => (elements array).any fun item =>
      match foldCase, item, value with
      | true, .string t, .string pattern => Like.Matches pattern (Text.lower t)
      | _, _, _ => false }

/-- The database looks for strings with patterns. -/
theorem searching_searches : searching.SearchesArrays elements := by
  intro array pattern
  show (elements array).any _ = true ↔ _
  rw [List.any_eq_true]
  constructor
  · rintro ⟨item, hitem, hfound⟩
    cases item with
    | string t => exact ⟨t, hitem, hfound⟩
    | _ => cases hfound
  · rintro ⟨t, ht, hmatch⟩
    exact ⟨.string t, ht, hmatch⟩

/-- The tags have a text that matches a pattern. -/
def matchingTag (pattern : String) : Condition := .arrayContains tags (.string pattern) true

end Sample

open Sample in
/-- A tag is found in another case. -/
theorem equals_searches_rex :
    compileAt {} default atTags .row 0 (.compare .eq (.string "REX")) =
        .ok (.condition (matchingTag "rex")) ∧
      (matchingTag "rex").truth searching (animal [.string "Rex", .int 7]) = .holds := by
  have hcompile : compileAt {} default atTags .row 0 (.compare .eq (.string "REX")) =
      .ok (.condition (matchingTag "rex")) := rfl
  have hcolumn : atTags.column = some ⟨tags, .jsonArray, false⟩ := rfl
  have hdepth : 0 < ({} : Limits).maxDepth := by decide
  obtain ⟨test, htest, -, -, hfinds, -⟩ :=
    equals_searches searching_searches hcolumn rfl hdepth "REX"
  cases hcompile.symm.trans htest
  have hplain : Like.IsPlain (Text.lower "REX").toList := by decide
  exact ⟨hcompile, (hfinds hplain _ rfl).2 ⟨"Rex", .head _, by decide⟩⟩

open Sample in
/-- What is searched for is found in tags that do not have it, and not found in tags that do. -/
theorem equals_searches_fails_wildcards :
    searching.SearchesArrays elements ∧
      compileAt {} default atTags .row 0 (.compare .eq (.string "50%")) =
        .ok (.condition (matchingTag "50%")) ∧
      (matchingTag "50%").truth searching (animal [.string "50 percent"]) = .holds ∧
      searching.lower "50 percent" ≠ Text.lower "50%" ∧
      compileAt {} default atTags .row 0 (.compare .eq (.string "a\\b")) =
        .ok (.condition (matchingTag "a\\b")) ∧
      (matchingTag "a\\b").truth searching (animal [.string "a\\b"]) = .fails ∧
      searching.lower "a\\b" = Text.lower "a\\b" :=
  ⟨searching_searches, rfl, rfl, by decide, rfl, rfl, rfl⟩

end Filter

end FilterSql
