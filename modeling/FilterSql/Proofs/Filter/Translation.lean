import FilterSql.Json.Writer
import FilterSql.Proofs.Basic
import FilterSql.Proofs.Sql.Evaluation
import FilterSql.Schema.Column
import FilterSql.Sql.Render
import Mathlib.Data.List.Forall2

/-!
# Texts in several languages

A translated column takes the first of some parts of a document that is there: the member of each
language in turn, then the document itself if it is a string. Only this last one is asked for its
type, so in SQLite a member that is no string stands in the way of the languages behind it
(`FilterColumn.translated_reads`).
-/

namespace FilterSql

variable {db : Database} {row : Env}

/-! ## Documents -/

namespace Json

/-- A part of a document as a string. -/
def string? : Option Json → Option String
  | some (.string s) => some s
  | _ => none

/-- A part of a document that is there and not `null`. -/
def present? : Option Json → Option Json
  | some .null => none
  | part => part

/-- Whether the value is a text outside JSON: a string, or an array or object as it is written. -/
def isWritten : Json → Bool
  | .string _ => true
  | .array _ => true
  | .object _ => true
  | _ => false

/-- The first of the members of some languages below a path that is there. -/
def firstPresent? (at? : String → Option Json) (path : String) (languages : List String) :
    Option Json :=
  languages.findSome? fun language => present? (at? (path ++ "." ++ language))

/-- The first string among the members of some languages below a path, or else the string at the
path itself. -/
def translation? (at? : String → Option Json) (path : String) (languages : List String) :
    Option String :=
  (languages.findSome? fun language => string? (at? (path ++ "." ++ language))).or
    (string? (at? path))

/-- The translation as a value, `NULL` where there is none. -/
def translated (at? : String → Option Json) (path : String) (languages : List String) : Value :=
  ((translation? at? path languages).map .string).getD .null

end Json

/-- A database that reads documents as SQLite does: `at?` finds the part of a document at a path,
and `native` is what it becomes outside JSON. -/
structure Database.ReadsDocuments (db : Database) (at? : Value → String → Option Json)
    (native : Json → Value) : Prop where
  extract : ∀ v path, db.jsonExtract v path = ((at? v path).map native).getD .null
  unquote : ∀ v, db.jsonUnquote v = v
  string : ∀ v path, db.jsonString v path = ((Json.string? (at? v path)).map .string).getD .null
  native_null : native .null = .null
  native_string : ∀ s, native (.string s) = .string s
  present : ∀ j, j ≠ .null → (native j).isNull = false
  written : ∀ j s, native j = .string s → j.isWritten = true

namespace Json

variable {at? : String → Option Json} {path : String} {languages : List String} {j : Json}
  {s : String}

/-- A part is present if it is there and not `null`. -/
theorem present?_eq_some {part : Option Json} :
    present? part = some j ↔ part = some j ∧ j ≠ .null := by
  unfold present?
  split
  · exact ⟨nofun, fun ⟨h, hne⟩ => absurd (Option.some.inj h).symm hne⟩
  · next hnull => exact ⟨fun h => ⟨h, fun hj => hnull (hj ▸ h)⟩, And.left⟩

/-- What is not present is no string. -/
theorem string?_of_present?_none {part : Option Json} (h : present? part = none) :
    string? part = none := by
  unfold present? at h
  split at h
  · rfl
  · rw [h]
    rfl

/-- The first present part is not `null`. -/
theorem ne_null_of_firstPresent? (h : firstPresent? at? path languages = some j) : j ≠ .null := by
  obtain ⟨language, -, hpresent⟩ := List.exists_of_findSome?_eq_some h
  exact (present?_eq_some.1 hpresent).2

/-- A string that is the first member there is the translation. -/
theorem translation?_of_string (h : firstPresent? at? path languages = some (.string s)) :
    translation? at? path languages = some s := by
  induction languages with
  | nil => cases h
  | cons language rest ih =>
      rw [firstPresent?, List.findSome?_cons] at h
      rw [translation?, List.findSome?_cons]
      cases hpart : present? (at? (path ++ "." ++ language)) with
      | some part =>
          rw [hpart] at h
          obtain rfl : part = .string s := Option.some.inj h
          rw [(present?_eq_some.1 hpart).1]
          rfl
      | none =>
          rw [hpart] at h
          rw [string?_of_present?_none hpart]
          exact ih h

/-- Without any member the translation is the string at the path. -/
theorem translation?_of_none (h : firstPresent? at? path languages = none) :
    translation? at? path languages = string? (at? path) := by
  have hnone : (languages.findSome? fun language => string? (at? (path ++ "." ++ language))) =
      none := by
    rw [List.findSome?_eq_none_iff]
    intro language hlanguage
    exact string?_of_present?_none (List.findSome?_eq_none_iff.1 h language hlanguage)
  rw [translation?, hnone, Option.none_or]

end Json

/-- What is not there, or is `null`, is `NULL`. -/
theorem Database.ReadsDocuments.native_of_absent {at? : Value → String → Option Json}
    {native : Json → Value} (hdb : db.ReadsDocuments at? native) {part : Option Json}
    (h : Json.present? part = none) : (part.map native).getD .null = .null := by
  unfold Json.present? at h
  split at h
  · exact hdb.native_null
  · rw [h]
    rfl

/-! ## The expression -/

/-- A text is checked to be a fixed path exactly if it is one. -/
theorem FixedPath.check_eq_ok {text : String} {path : FixedPath} :
    FixedPath.check text = .ok path ↔ path.text = text := by
  unfold check
  split
  next hvalid =>
    rw [Except.ok.injEq]
    exact ⟨fun h => h ▸ rfl, fun h => by subst h; rfl⟩
  next hvalid => exact ⟨nofun, fun h => absurd (h ▸ path.valid) hvalid⟩

/-- Expressions that are rendered without binding values are rendered in turn. -/
theorem Expr.renderAll_of_unbound {d : Dialect} {n : Namespaces} {exprs : List Expr}
    {texts : List String}
    (h : List.Forall₂ (fun expr text => ∀ bound, StateT.run (expr.render d n) bound =
      .ok (text, bound)) exprs texts) (bound : Array Value) :
    StateT.run (Expr.renderAll d n exprs) bound = .ok (texts, bound) := by
  induction h with
  | nil => rfl
  | cons hhead _ ih => exact bind_eq_ok.2 ⟨_, hhead bound, bind_eq_ok.2 ⟨_, ih, rfl⟩⟩

namespace FilterColumn

variable {column : Column} {path : String} {languages : List String}

/-- The text in a language: the member at a path of its own. -/
def Translates (column : Column) (path language : String) (text : Expr) : Prop :=
  ∃ member : FixedPath, member.text = path ++ "." ++ language ∧
    text = .jsonUnquote (.jsonExtract (.column column) (.fixed member))

/-- Where the paths are valid there is a text for each language. -/
theorem exists_translations
    (hvalid : ∀ language ∈ languages, FixedPath.isValid (path ++ "." ++ language) = true) :
    ∃ texts, translations column path languages = .ok texts ∧
      List.Forall₂ (Translates column path) languages texts := by
  induction languages with
  | nil => exact ⟨[], rfl, .nil⟩
  | cons language rest ih =>
      obtain ⟨hhead, hrest⟩ := List.forall_mem_cons.1 hvalid
      obtain ⟨texts, htexts, htranslates⟩ := ih hrest
      refine ⟨_, bind_eq_ok.2 ⟨⟨_, hhead⟩, FixedPath.check_eq_ok.2 rfl,
        bind_eq_ok.2 ⟨texts, htexts, rfl⟩⟩, .cons ⟨⟨_, hhead⟩, rfl, rfl⟩ htranslates⟩

/-- The text in a language is rendered as the extraction of its member, without a type check. -/
theorem Translates.render {language : String} {text : Expr}
    (h : Translates column path language text) {n : Namespaces} {name : String}
    (hname : column.render n = .ok name) (bound : Array Value) :
    StateT.run (text.render .sqlite n) bound =
      .ok (Dialect.sqlite.jsonExtract name ("'" ++ (path ++ "." ++ language) ++ "'"), bound) := by
  obtain ⟨member, hmember, rfl⟩ := h
  have hcolumn : StateT.run ((Expr.column column).render .sqlite n) bound = .ok (name, bound) :=
    bind_eq_ok.2 ⟨name, hname, rfl⟩
  have hextract : StateT.run ((Expr.jsonExtract (.column column) (.fixed member)).render .sqlite n)
      bound = .ok (Dialect.sqlite.jsonExtract name ("'" ++ member.text ++ "'"), bound) :=
    bind_eq_ok.2 ⟨_, hcolumn, rfl⟩
  rw [← hmember]
  exact bind_eq_ok.2 ⟨_, hextract, rfl⟩

/-- The text in a language is what stands at its path, whatever its type. -/
theorem Translates.value_eq {language : String} {text : Expr} {at? : Value → String → Option Json}
    {native : Json → Value} (hdb : db.ReadsDocuments at? native)
    (h : Translates column path language text) (row : Env) :
    text.value db row =
      ((at? (row.column column) (path ++ "." ++ language)).map native).getD .null := by
  obtain ⟨member, hmember, rfl⟩ := h
  show db.jsonUnquote (db.jsonExtract (row.column column) member.text) = _
  rw [hdb.unquote, hdb.extract, hmember]

/-- The expression comes to the first member that is there, or else to the string at the path. -/
theorem value_translations {texts : List Expr} {at? : Value → String → Option Json}
    {native : Json → Value} (hdb : db.ReadsDocuments at? native)
    (h : List.Forall₂ (Translates column path) languages texts) (plain : FixedPath)
    (hplain : plain.text = path) (row : Env) :
    (Expr.coalesce (texts ++ [.jsonString column plain])).value db row =
      (((Json.firstPresent? (at? (row.column column)) path languages).map native).or
        ((Json.string? (at? (row.column column) path)).map .string)).getD .null := by
  show ((Expr.evalAll db (.single row) (texts ++ [.jsonString column plain])).find?
    (!·.isNull)).getD .null = _
  induction h with
  | nil =>
      show (List.find? (!·.isNull) [db.jsonString (row.column column) plain.text]).getD .null = _
      rw [hdb.string, hplain]
      cases Json.string? (at? (row.column column) path) <;> rfl
  | @cons language text rest texts hhead _ ih =>
      show (List.find? (!·.isNull) (text.value db row ::
        Expr.evalAll db (.single row) (texts ++ _))).getD .null = _
      rw [hhead.value_eq hdb, Json.firstPresent?, List.findSome?_cons]
      cases hpart : Json.present? (at? (row.column column) (path ++ "." ++ language)) with
      | some part =>
          obtain ⟨hfound, hne⟩ := Json.present?_eq_some.1 hpart
          rw [hfound]
          show (List.find? (!·.isNull) (native part :: _)).getD .null = native part
          rw [List.find?_cons_of_pos (by rw [hdb.present part hne]; rfl)]
          rfl
      | none =>
          rw [hdb.native_of_absent hpart, List.find?_cons_of_neg (by simp)]
          exact ih

/-- In SQLite a translated column is the first of the members of the languages that is there, or
else the string at the path. So it is the first string among them where the first member there is a
string and where none is there, and something else where that member is a number or a truth value.
(`COALESCE` has two arguments in SQLite, so there is one language at least.) -/
theorem translated_reads {at? : Value → String → Option Json} {native : Json → Value}
    (hdb : db.ReadsDocuments at? native) {name : String} (hcolumn : Column.ofName name = .ok column)
    (hpath : FixedPath.isValid path = true)
    (hvalid : ∀ language ∈ languages, FixedPath.isValid (path ++ "." ++ language) = true) :
    ∃ c, translated name path languages = .ok c ∧
      (∀ n sql bound, column.render n = .ok sql →
        StateT.run (c.expr.render .sqlite n) bound =
          .ok ("COALESCE(" ++ Text.join ", "
            ((languages.map fun language =>
                Dialect.sqlite.jsonExtract sql ("'" ++ (path ++ "." ++ language) ++ "'")) ++
              [Dialect.sqlite.jsonString sql ("'" ++ path ++ "'")]) ++ ")", bound)) ∧
      ∀ row,
        (Json.firstPresent? (at? (row.column column)) path languages = none →
          c.expr.value db row = Json.translated (at? (row.column column)) path languages) ∧
        ∀ j, Json.firstPresent? (at? (row.column column)) path languages = some j →
          c.expr.value db row = native j ∧
            ((∃ s, j = .string s) →
              c.expr.value db row = Json.translated (at? (row.column column)) path languages) ∧
            (j.isWritten = false →
              c.expr.value db row ≠ Json.translated (at? (row.column column)) path languages) := by
  obtain ⟨texts, htexts, htranslates⟩ := @exists_translations column path languages hvalid
  have hplain : FixedPath.check path = .ok ⟨path, hpath⟩ := FixedPath.check_eq_ok.2 rfl
  refine ⟨⟨.coalesce (texts ++ [.jsonString column ⟨path, hpath⟩]), .string, true⟩,
    bind_eq_ok.2 ⟨_, hcolumn, bind_eq_ok.2 ⟨_, htexts, bind_eq_ok.2 ⟨_, hplain, rfl⟩⟩⟩,
    fun n sql bound hsql => ?_, fun row => ?_⟩
  · refine bind_eq_ok.2 ⟨_, Expr.renderAll_of_unbound (List.rel_append ?_ ?_) bound, rfl⟩
    · rw [List.forall₂_map_right_iff]
      exact .flip (htranslates.imp fun _ _ h => h.render hsql)
    · exact .cons (fun bound => bind_eq_ok.2 ⟨_, bind_eq_ok.2 ⟨_, hsql, rfl⟩, rfl⟩) .nil
  · have hvalue := value_translations hdb htranslates ⟨path, hpath⟩ rfl row
    refine ⟨fun hnone => hvalue.trans ?_, fun j hj => ?_⟩
    · rw [hnone, Json.translated, Json.translation?_of_none hnone]
      rfl
    rw [hj] at hvalue
    refine ⟨hvalue, ?_, fun hwritten heq => ?_⟩
    · rintro ⟨s, rfl⟩
      rw [Json.translated, Json.translation?_of_string hj]
      exact hvalue.trans (hdb.native_string s)
    · -- a translation is a string or `NULL`, and a number or truth value is neither
      have htranslated : native j = Json.translated _ path languages := hvalue.symm.trans heq
      rw [Json.translated] at htranslated
      cases htext : Json.translation? (at? (row.column column)) path languages with
      | none =>
          have hpresent := hdb.present j (Json.ne_null_of_firstPresent? hj)
          rw [htranslated, htext] at hpresent
          cases hpresent
      | some text =>
          rw [htext] at htranslated
          rw [hdb.written j text htranslated] at hwritten
          cases hwritten

namespace Sample

/-- The part of a document below some names. -/
def part? (document : Json) : List String → Option Json
  | [] => some document
  | name :: rest =>
    match document with
    | .object members => (Json.member? name members).bind (part? · rest)
    | _ => none

/-- The part of a document at a path of names. -/
def at? (document : Json) (path : String) : Option Json :=
  part? document ((Text.splitOn '.' path.toList).tail.map String.ofList)

/-- What a part of a document becomes outside JSON. -/
def native : Json → Value
  | .null => .null
  | .bool b => .int (if b then 1 else 0)
  | .int n => .int (Int64.ofInt n)
  | .float x => .float x
  | .string s => .string s
  | other => .string other.text

/-- A database without tables that stores one document and reads it as SQLite does. -/
def sqlite (document : Json) : Database :=
  { Database.plain fun _ => [] with
    jsonExtract := fun _ path => ((at? document path).map native).getD .null
    jsonString := fun _ path => ((Json.string? (at? document path)).map .string).getD .null }

/-- The database reads documents as SQLite does. -/
theorem readsDocuments_sqlite (document : Json) :
    (sqlite document).ReadsDocuments (fun _ => at? document) native where
  extract _ _ := rfl
  unquote _ := rfl
  string _ _ := rfl
  native_null := rfl
  native_string _ := rfl
  present j hj := by
    cases j with
    | null => exact absurd rfl hj
    | _ => rfl
  written j s h := by
    cases j with
    | string | array | object => rfl
    | _ => cases h

/-- A document with a name in Dutch and one in English. -/
def dog (dutch : Json) : Json :=
  .object [("name", .object [("nl", dutch), ("en", .string "Dog")])]

end Sample

open Sample in
/-- A name in English is read where the Dutch one is `null`. -/
theorem translated_reads_dog :
    ∃ c, translated "settings" "$.name" ["nl", "en"] = .ok c ∧
      ∀ row, c.expr.value (sqlite (dog .null)) row = .string "Dog" ∧
        c.expr.value (sqlite (dog .null)) row =
          Json.translated (at? (dog .null)) "$.name" ["nl", "en"] := by
  have hcolumn : Column.ofName "settings" = .ok ⟨.own, ⟨"settings", .refl true⟩⟩ := rfl
  have hpath : FixedPath.isValid "$.name" = true := by decide
  have hvalid : ∀ language ∈ ["nl", "en"],
      FixedPath.isValid ("$.name" ++ "." ++ language) = true := by decide
  obtain ⟨c, hc, -, hreads⟩ :=
    translated_reads (readsDocuments_sqlite (dog .null)) hcolumn hpath hvalid
  have hfirst : Json.firstPresent? (at? (dog .null)) "$.name" ["nl", "en"] =
      some (.string "Dog") := rfl
  refine ⟨c, hc, fun row => ?_⟩
  obtain ⟨hvalue, hstring, -⟩ := (hreads row).2 _ hfirst
  exact ⟨hvalue, hstring ⟨_, rfl⟩⟩

open Sample in
/-- A number in the first language is read, and not the string in the second one. -/
theorem translated_misreads_number :
    (sqlite (dog (.int 5))).ReadsDocuments (fun _ => at? (dog (.int 5))) native ∧
      ∃ c, translated "settings" "$.name" ["nl", "en"] = .ok c ∧
        ∀ row, c.expr.value (sqlite (dog (.int 5))) row = .int 5 ∧
          Json.translated (at? (dog (.int 5))) "$.name" ["nl", "en"] = .string "Dog" :=
  ⟨readsDocuments_sqlite _, _, rfl, fun _ => ⟨rfl, rfl⟩⟩

end FilterColumn

end FilterSql
