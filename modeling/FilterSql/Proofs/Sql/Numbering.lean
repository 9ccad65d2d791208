import FilterSql.Proofs.Basic
import FilterSql.Proofs.Sql.Clauses
import FilterSql.Proofs.Sql.Parts
import FilterSql.Proofs.Sql.Placeholders

/-!
# Placeholders and bound values

The placeholders in the text of a tree against the values that rendering binds. `Render.Binds` is
what is shown of every step of rendering: its text shows placeholders for the values that it binds,
with their numbers and in their order. One rule for each way of putting steps together
(`Binds.pure`, `Binds.bind`, `Binds.drop`) carries it through the syntax. The one step that leaves a
text out after it is rendered is a search in an empty list, so there a value can be bound that has
no placeholder; `Tree.render_numbered` says that this is the only way.
-/

namespace FilterSql

variable {d : Dialect} {exact : Prop}

/-! ## What is asked of a tree -/

/-- The tokens and types that the author of a statement writes hold no quote and no mark of a
placeholder. -/
def Part.Plain (d : Dialect) : Part → Prop
  | .expr (.keyword text) => d.Plain text
  | .expr (.cast _ type) => d.Plain type
  | _ => True

/-- No value is bound where an expression is rendered. -/
def Expr.BindsNothing (d : Dialect) (expr : Expr) : Prop :=
  ∀ n bound text bound', StateT.run (expr.render d n) bound = .ok (text, bound') →
    bound' = bound

/-- An operand whose text is left out, since it is looked for in an empty list, binds no value. -/
def Part.KeepsOperand (d : Dialect) : Part → Prop
  | .condition (.oneOf operand [] _) => operand.BindsNothing d
  | _ => True

/-- The tables that columns are qualified with hold no quote and no mark of a placeholder. -/
structure Namespaces.Plain (d : Dialect) (n : Namespaces) : Prop where
  own : ∀ table, n.own = some table → d.Plain table
  enclosing : ∀ table, n.enclosing = some table → d.Plain table

namespace Namespaces

/-- Without tables there is nothing to hold a quote or a mark. -/
theorem plain_none : Namespaces.none.Plain d := ⟨by rintro _ ⟨⟩, by rintro _ ⟨⟩⟩

/-- Within another statement the tables stay plain if the inner table is. -/
theorem Plain.inside {n : Namespaces} {own : Option String} (h : n.Plain d)
    (hown : ∀ table, own = some table → d.Plain table) : (n.inside own).Plain d :=
  ⟨hown, h.own⟩

end Namespaces

/-- The name that columns of a table are qualified with is plain. -/
theorem Table.namespaceText_plain (t : Table) : d.Plain t.namespaceText :=
  (t.asName.getD t.name).plain d

/-- A table as it is written in `FROM` shows no placeholder. -/
theorem Table.ends_text (t : Table) : d.Ends t.text [] := by
  unfold Table.text
  cases t.asName with
  | none => exact (t.name.plain d).ends
  | some asName =>
      exact ((t.name.plain d).ends.close (by decide)).append_ends (asName.plain d).ends

/-! ## Steps of rendering -/

/-- Placeholders that are found where some values are bound after those bound before: they are
numbered as the values are, in their order, and if `exact` holds none of them is missing. -/
structure Dialect.Numbers (d : Dialect) (exact : Prop) (bound count : Nat)
    (marks : List (Option Nat)) : Prop where
  sublist : marks.Sublist (d.numbering bound count)
  complete : exact → marks = d.numbering bound count

namespace Dialect.Numbers

variable {bound k l : Nat} {ms ns : List (Option Nat)}

/-- The numbers of the values in their order, all of them. -/
theorem refl : d.Numbers exact bound k (d.numbering bound k) :=
  ⟨.refl _, fun _ => rfl⟩

/-- Where no value is bound there is no placeholder. -/
theorem nil : d.Numbers exact bound 0 [] := refl

/-- The values that are bound next continue the numbers. -/
theorem append (h : d.Numbers exact bound k ms) (h' : d.Numbers exact (bound + k) l ns) :
    d.Numbers exact bound (k + l) (ms ++ ns) where
  sublist := by
    rw [← d.numbering_append]
    exact h.sublist.append h'.sublist
  complete hexact := by rw [← d.numbering_append, h.complete hexact, h'.complete hexact]

end Dialect.Numbers

namespace Render

variable {α β : Type}

/-- What a step of rendering gives shows placeholders for the values that the step binds. -/
def Binds (d : Dialect) (exact : Prop) (x : Render α) (shows : α → List (Option Nat) → Prop) :
    Prop :=
  ∀ bound a bound', StateT.run x bound = .ok (a, bound') →
    ∃ values marks, bound' = bound ++ values ∧ shows a marks ∧
      d.Numbers exact bound.size values.size marks

variable {x : Render α} {f : α → Render β} {P : α → List (Option Nat) → Prop}
  {Q : β → List (Option Nat) → Prop}

/-- A step that binds nothing shows nothing. -/
theorem Binds.pure {a : α} (h : P a []) : Binds d exact (pure a : Render α) P := by
  rintro bound _ _ ⟨⟩
  exact ⟨#[], [], by simp, h, .nil⟩

/-- A step that fails has no text to show anything in. -/
theorem Binds.throw {e : RenderError} : Binds d exact (throw e : Render α) P := by
  rintro bound _ _ ⟨⟩

/-- A result that is found without rendering binds nothing. -/
theorem Binds.lift {result : Except RenderError α} (h : ∀ a, result = .ok a → P a []) :
    Binds d exact (liftM result : Render α) P := by
  intro bound a bound' hrun
  cases result with
  | error e => cases hrun
  | ok b =>
      cases hrun
      exact ⟨#[], [], by simp, h a rfl, .nil⟩

/-- Two steps in turn show their placeholders in turn. -/
theorem Binds.bind (hx : Binds d exact x P)
    (hf : ∀ a ms, P a ms → Binds d exact (f a) fun b ns => Q b (ms ++ ns)) :
    Binds d exact (x >>= f) Q := by
  intro bound b bound' hrun
  obtain ⟨⟨a, mid⟩, hx', hf'⟩ := bind_eq_ok.1 hrun
  obtain ⟨values, ms, rfl, ha, hms⟩ := hx bound a mid hx'
  obtain ⟨more, ns, rfl, hb, hns⟩ := hf a ms ha _ b bound' hf'
  refine ⟨values ++ more, ms ++ ns, by rw [Array.append_assoc], hb, ?_⟩
  rw [Array.size_append] at hns ⊢
  exact hms.append hns

/-- What follows on an error is not rendered. -/
theorem Binds.stop (hx : Binds d exact x fun _ _ => False) : Binds d exact (x >>= f) Q :=
  hx.bind fun _ _ h => h.elim

/-- What is made of a text shows what the text shows. -/
theorem Binds.map {g : α → β} (hx : Binds d exact x P) (hg : ∀ a ms, P a ms → Q (g a) ms) :
    Binds d exact (do return g (← x)) Q :=
  hx.bind fun a ms ha => .pure (by simpa using hg a ms ha)

/-- A step keeps what follows from what it shows. -/
theorem Binds.imp {Q : α → List (Option Nat) → Prop} (hx : Binds d exact x P)
    (h : ∀ a ms, P a ms → Q a ms) : Binds d exact x Q := by
  intro bound a bound' hrun
  obtain ⟨values, ms, hbound, ha, hms⟩ := hx bound a bound' hrun
  exact ⟨values, ms, hbound, h a ms ha, hms⟩

/-- A result whose text is left out shows nothing, so the values it binds have no placeholders. -/
theorem Binds.drop {b : β} (hx : Binds d exact x P)
    (hnothing : exact → ∀ bound a bound', StateT.run x bound = .ok (a, bound') → bound' = bound)
    (hb : Q b []) : Binds d exact (do let _ ← x; return b) Q := by
  intro bound _ bound' hrun
  obtain ⟨⟨a, mid⟩, hx', hpure⟩ := bind_eq_ok.1 hrun
  cases hpure
  obtain ⟨values, ms, rfl, -, -⟩ := hx bound a _ hx'
  refine ⟨values, [], rfl, hb, List.nil_sublist _, fun hexact => ?_⟩
  have hsize := congrArg Array.size (hnothing hexact bound a _ hx')
  obtain hvalues : values.size = 0 := by simpa using hsize
  rw [hvalues]
  rfl

/-- A bound value shows its placeholder. -/
theorem binds_bind (value : Value) : Binds d exact (Render.bind d value) d.Shows := by
  rintro bound _ _ ⟨⟩
  exact ⟨#[value], _, by simp, d.shows_placeholder (bound.size + 1), .refl⟩

/-- A text that numbers its placeholders itself. -/
theorem binds_bindAll {fragment : Nat → String × List Value} {ms : List (Option Nat)}
    (h : ∀ bound, d.Shows (fragment (bound + 1)).1
      (ms ++ d.numbering bound (fragment (bound + 1)).2.length)) :
    Binds d exact (bindAll fragment) fun text ns => d.Shows text (ms ++ ns) := by
  rintro bound _ _ ⟨⟩
  refine ⟨(fragment (bound.size + 1)).2.toArray, _, rfl, h bound.size, ?_⟩
  rw [List.size_toArray]
  exact .refl

end Render

/-! ## Rendering -/

/-- What is asked of a part for its text to be numbered as its values are. -/
def Part.Numbered (d : Dialect) (exact : Prop) (part : Part) : Prop :=
  part.Plain d ∧ (exact → part.KeepsOperand d)

/-- A column shows no placeholder. -/
theorem Column.render_binds {n : Namespaces} (hn : n.Plain d) (c : Column) :
    Render.Binds d exact (liftM (c.render n) : Render String) fun text ms =>
      d.Ends text [] ∧ ms = [] := by
  have hqualified : ∀ table, d.Plain table → d.Ends (table ++ "." ++ c.name.text) [] :=
    fun table htable => (htable.ends.close (by decide)).append_ends (c.name.plain d).ends
  refine Render.Binds.lift fun text htext => ⟨?_, rfl⟩
  unfold Column.render at htext
  split at htext
  · split at htext
    next table htable =>
      cases htext
      exact hqualified table (hn.own table htable)
    next =>
      cases htext
      exact (c.name.plain d).ends
  · split at htext
    next table htable =>
      cases htext
      exact hqualified table (hn.enclosing table htable)
    next => cases htext
  · cases htext
    exact hqualified _ (Identifier.plain _ d)

/-- A path shows the placeholder it is bound to, or stands in the text and shows none. -/
theorem JsonPath.render_binds (path : JsonPath) :
    Render.Binds d exact (path.render d) d.Shows := by
  cases path with
  | fixed path => exact .pure (path.ends_quoted d).shows
  | bound text => exact Render.binds_bind _

/-- Parentheses around a condition show nothing. -/
theorem Condition.shows_enclosed (c : Condition) {text : String} {ms : List (Option Nat)}
    (h : d.Shows text ms) : d.Shows (c.enclosed text) ms := by
  unfold Condition.enclosed
  split
  · exact h
  · exact ((h.after (by decide)).close (by decide)).shows

namespace Select

/-- A clause of a keyword and a list shows what the texts of the list show. -/
theorem shows_listText {keyword : String} {texts : List String} {ms : List (Option Nat)}
    (hkeyword : Dialect.isSeparator keyword = true) (h : d.ShowsAll texts ms) :
    d.ShowsClause (listText keyword texts) ms := by
  cases h with
  | nil => exact .nothing
  | cons first rest =>
      exact ((Dialect.ShowsAll.cons first rest).join (by decide)).behind hkeyword

/-- `LIMIT` and `OFFSET` show no placeholder. -/
theorem shows_countText {keyword : String} (hkeyword : Dialect.isSeparator keyword = true)
    (count : Option Nat) : d.ShowsClause (countText keyword count) [] := by
  cases count with
  | none => exact .nothing
  | some n => exact (Dialect.natText_plain n).ends.shows.behind hkeyword

/-- The list of a `SELECT` shows what its items show. -/
theorem shows_itemsText {texts : List String} {ms : List (Option Nat)} (h : d.ShowsAll texts ms) :
    d.Shows (itemsText texts) ms := by
  cases h with
  | nil => exact (Dialect.ends_quiet (by decide)).shows
  | cons first rest => exact (Dialect.ShowsAll.cons first rest).join (by decide)

/-- The hint with the time limit shows no placeholder. -/
theorem ends_hintText (timeout : Option Nat) : d.Ends (hintText d timeout) [] := by
  unfold hintText
  split
  next hint hhint =>
    obtain ⟨milliseconds, -, hhint⟩ := Option.bind_eq_some_iff.1 hhint
    exact (Dialect.ends_timeoutHint milliseconds hhint).close (by decide)
  next => exact Dialect.ends_quiet (by decide)

/-- `FROM` shows no placeholder. -/
theorem shows_sourceText (source : Option Table) : d.ShowsClause (sourceText source) [] := by
  cases source with
  | none => exact .nothing
  | some table => exact table.ends_text.shows.behind (by decide)

/-- A statement shows the placeholders of its clauses in their order. -/
theorem shows_assemble (s : Select) {items joins groups terms : List String}
    {filter having : String} {m₁ m₂ m₃ m₄ m₅ m₆ : List (Option Nat)}
    (hitems : d.ShowsAll items m₁) (hjoins : d.ShowsAll joins m₂)
    (hfilter : d.ShowsClause filter m₃) (hgroups : d.ShowsAll groups m₄)
    (hhaving : d.ShowsClause having m₅) (hterms : d.ShowsAll terms m₆) :
    d.Shows (s.assemble d items joins filter groups having terms)
      (m₁ ++ m₂ ++ m₃ ++ m₄ ++ m₅ ++ m₆) := by
  have hhead : d.Shows ("SELECT " ++ hintText d s.timeout ++ itemsText items) m₁ :=
    ((ends_hintText s.timeout).after (by decide)).append (shows_itemsText hitems)
  have hrows := ((hhead.clause (shows_sourceText s.source)).clause hjoins.blanks).clause hfilter
  have hgroupBy : d.ShowsClause (listText " GROUP BY " groups) m₄ :=
    shows_listText (by decide) hgroups
  have horderBy : d.ShowsClause (listText " ORDER BY " terms) m₆ :=
    shows_listText (by decide) hterms
  have hlimit : d.ShowsClause (countText " LIMIT " s.limit) [] := shows_countText (by decide) _
  have hoffset : d.ShowsClause (countText " OFFSET " s.offset) [] := shows_countText (by decide) _
  have hcut :=
    ((((hrows.clause hgroupBy).clause hhaving).clause horderBy).clause hlimit).clause hoffset
  rw [assemble_eq]
  simpa only [List.append_nil] using hcut

end Select

mutual

/-- The placeholders of an expression are those of the values it binds. -/
theorem Expr.render_binds {n : Namespaces} (hn : n.Plain d) (expr : Expr)
    (h : ∀ part ∈ expr.parts, part.Numbered d exact) :
    Render.Binds d exact (expr.render d n) d.Shows := by
  match expr with
  | .column column =>
      refine (column.render_binds hn).imp ?_
      rintro text _ ⟨htext, rfl⟩
      exact htext.shows
  | .param value => exact Render.binds_bind value
  | .null => exact .pure (Dialect.ends_quiet (by decide)).shows
  | .keyword text =>
      have hplain : d.Plain text := (h (.expr (.keyword text)) (by simp [Expr.parts])).1
      exact .pure hplain.ends.shows
  | .lower expr =>
      rw [Expr.parts, List.forall_mem_cons] at h
      refine (expr.render_binds hn h.2).map fun text ms htext => ?_
      exact ((htext.after (by decide)).close (by decide)).shows
  | .cast expr type =>
      rw [Expr.parts, List.forall_mem_cons] at h
      have htype : d.Plain type := h.1.1
      refine (expr.render_binds hn h.2).map fun text ms htext => ?_
      have hcast : d.Ends ("CAST(" ++ text ++ " AS " ++ type) (ms ++ []) :=
        ((htext.after (by decide)).close (by decide)).append_ends htype.ends
      rw [List.append_nil] at hcast
      exact (hcast.close (by decide)).shows
  | .jsonExtract target path =>
      rw [Expr.parts, List.forall_mem_cons] at h
      refine (target.render_binds hn h.2).bind fun target ms htarget => ?_
      exact path.render_binds.map fun path ns hpath =>
        (Dialect.ends_jsonExtract htarget hpath).shows
  | .jsonUnquote expr =>
      rw [Expr.parts, List.forall_mem_cons] at h
      exact (expr.render_binds hn h.2).map fun text ms htext => Dialect.shows_jsonUnquote htext
  | .jsonString column path =>
      refine (column.render_binds hn).map ?_
      rintro text _ ⟨htext, rfl⟩
      exact (Dialect.ends_jsonString htext (path.ends_quoted d)).shows
  | .countRows => exact .pure (Dialect.ends_quiet (by decide)).shows
  | .count expr =>
      rw [Expr.parts, List.forall_mem_cons] at h
      refine (expr.render_binds hn h.2).map fun text ms htext => ?_
      exact ((htext.after (by decide)).close (by decide)).shows
  | .sum expr =>
      rw [Expr.parts, List.forall_mem_cons] at h
      refine (expr.render_binds hn h.2).map fun text ms htext => ?_
      exact ((htext.after (by decide)).close (by decide)).shows
  | .coalesce exprs =>
      rw [Expr.parts, List.forall_mem_cons] at h
      refine (Expr.renderAll_binds hn exprs h.2).map fun texts ms htexts => ?_
      exact (((htexts.join (by decide)).after (by decide)).close (by decide)).shows
  | .subquery query =>
      rw [Expr.parts, List.forall_mem_cons] at h
      refine (query.render_binds hn h.2).map fun text ms htext => ?_
      exact ((htext.after (by decide)).close (by decide)).shows
  | .exists query =>
      rw [Expr.parts, List.forall_mem_cons] at h
      refine (query.render_binds hn h.2).map fun text ms htext => ?_
      exact ((htext.after (by decide)).close (by decide)).shows
termination_by structural expr

/-- The placeholders of some expressions are those of the values they bind in turn. -/
theorem Expr.renderAll_binds {n : Namespaces} (hn : n.Plain d) (exprs : List Expr)
    (h : ∀ part ∈ Expr.partsAll exprs, part.Numbered d exact) :
    Render.Binds d exact (Expr.renderAll d n exprs) d.ShowsAll := by
  match exprs with
  | [] => exact .pure .nil
  | expr :: rest =>
      rw [Expr.partsAll, List.forall_mem_append] at h
      refine (expr.render_binds hn h.1).bind fun text ms htext => ?_
      exact (Expr.renderAll_binds hn rest h.2).map fun texts ns htexts => .cons htext htexts
termination_by structural exprs

/-- The placeholders of a condition are those of the values it binds. -/
theorem Condition.render_binds {n : Namespaces} (hn : n.Plain d) (condition : Condition)
    (h : ∀ part ∈ condition.parts, part.Numbered d exact) :
    Render.Binds d exact (condition.render d n) d.Shows := by
  match condition with
  | .compare left op right =>
      rw [Condition.parts, List.forall_mem_cons, List.forall_mem_append] at h
      refine (left.render_binds hn h.2.1).bind fun left ms hleft => ?_
      refine (right.render_binds hn h.2.2).map fun right ns hright => ?_
      have hop : Dialect.isQuiet false op.symbol.toList = true := by cases op <;> decide
      exact (((hleft.close (by decide)).close hop).close (by decide)).append hright
  | .nullSafeEq left right =>
      rw [Condition.parts, List.forall_mem_cons, List.forall_mem_append] at h
      refine (left.render_binds hn h.2.1).bind fun left ms hleft => ?_
      exact (right.render_binds hn h.2.2).map fun right ns hright =>
        Dialect.shows_nullSafeEq hleft hright
  | .isNull expr negated =>
      rw [Condition.parts, List.forall_mem_cons] at h
      refine (expr.render_binds hn h.2).map fun text ms htext => ?_
      cases negated <;> exact (htext.close (by decide)).shows
  | .isJsonNull expr =>
      rw [Condition.parts, List.forall_mem_cons] at h
      exact (expr.render_binds hn h.2).map fun text ms htext =>
        (Dialect.ends_jsonNullTest htext).shows
  | .oneOf expr values negated =>
      rw [Condition.parts, List.forall_mem_cons] at h
      have hexpr := expr.render_binds hn h.2
      rw [Condition.render]
      cases values with
      | nil => exact hexpr.drop (fun hexact => h.1.2 hexact n) (d.ends_boolText negated).shows
      | cons v rest =>
          refine hexpr.bind fun field ms hfield => ?_
          rw [List.isEmpty_cons, if_neg Bool.false_ne_true]
          refine Render.binds_bindAll fun bound => ?_
          cases negated with
          | false => exact (Dialect.ends_isIn hfield).shows
          | true => exact (Dialect.ends_isNotIn hfield).shows
  | .like expr pattern negated =>
      rw [Condition.parts, List.forall_mem_cons] at h
      refine (expr.render_binds hn h.2).bind fun text ms htext => ?_
      exact (Render.binds_bind pattern).map fun pattern ns hpattern =>
        Dialect.shows_like negated htext hpattern
  | .arrayContains column value foldCase =>
      rw [Condition.parts, List.forall_mem_cons] at h
      refine (column.render_binds hn h.2).bind fun text ms htext => ?_
      exact (Render.binds_bind _).map fun value ns hvalue =>
        Dialect.shows_arrayContains foldCase htext hvalue
  | .overlaps column values =>
      rw [Condition.parts, List.forall_mem_cons] at h
      refine (column.render_binds hn h.2).bind fun text ms htext => ?_
      exact (Render.binds_bind _).map fun value ns hvalue =>
        (Dialect.ends_overlaps htext hvalue).shows
  | .exists query negated =>
      rw [Condition.parts, List.forall_mem_cons] at h
      refine (query.render_binds hn h.2).map fun text ms htext => ?_
      cases negated <;> exact ((htext.after (by decide)).close (by decide)).shows
  | .requires join => exact .pure (d.ends_boolText true).shows
  | .joined join inner =>
      rw [Condition.parts, List.forall_mem_cons, List.forall_mem_append] at h
      exact inner.render_binds hn h.2.2
  | .all conditions =>
      rw [Condition.parts, List.forall_mem_cons] at h
      refine (Condition.renderConjuncts_binds hn conditions h.2).map fun texts ms htexts => ?_
      cases htexts with
      | nil => exact (d.ends_boolText true).shows
      | cons first rest => exact (Dialect.ShowsAll.cons first rest).join (by decide)
  | .any conditions =>
      rw [Condition.parts, List.forall_mem_cons] at h
      have hdisjuncts := Condition.renderDisjuncts_binds hn conditions h.2
      cases conditions with
      | nil => exact .pure (d.ends_boolText false).shows
      | cons first rest => exact hdisjuncts.map fun texts ms htexts => htexts.join (by decide)
  | .not condition =>
      rw [Condition.parts, List.forall_mem_cons] at h
      refine (condition.render_binds hn h.2).map fun text ms htext => ?_
      exact ((htext.after (by decide)).close (by decide)).shows
termination_by structural condition

/-- The placeholders in the parts of a conjunction are those of the values they bind in turn. -/
theorem Condition.renderConjuncts_binds {n : Namespaces} (hn : n.Plain d)
    (conditions : List Condition)
    (h : ∀ part ∈ Condition.partsAll conditions, part.Numbered d exact) :
    Render.Binds d exact (Condition.renderConjuncts d n conditions) d.ShowsAll := by
  match conditions with
  | [] => exact .pure .nil
  | c :: rest =>
      rw [Condition.partsAll, List.forall_mem_append] at h
      rw [Condition.renderConjuncts]
      split
      · exact Condition.renderConjuncts_binds hn rest h.2
      · refine (c.render_binds hn h.1).bind fun text ms htext => ?_
        exact (Condition.renderConjuncts_binds hn rest h.2).map fun texts ns htexts =>
          .cons (c.shows_enclosed htext) htexts
termination_by structural conditions

/-- The placeholders in the parts of a disjunction are those of the values they bind in turn. -/
theorem Condition.renderDisjuncts_binds {n : Namespaces} (hn : n.Plain d)
    (conditions : List Condition)
    (h : ∀ part ∈ Condition.partsAll conditions, part.Numbered d exact) :
    Render.Binds d exact (Condition.renderDisjuncts d n conditions) d.ShowsAll := by
  match conditions with
  | [] => exact .pure .nil
  | c :: rest =>
      rw [Condition.partsAll, List.forall_mem_append] at h
      refine (c.render_binds hn h.1).bind fun text ms htext => ?_
      exact (Condition.renderDisjuncts_binds hn rest h.2).map fun texts ns htexts =>
        .cons (c.shows_enclosed htext) htexts
termination_by structural conditions

/-- The placeholders of the joins that a condition adds are those of the values they bind. -/
theorem Condition.renderJoins_binds {n : Namespaces} (hn : n.Plain d) (found : List Join)
    (condition : Condition) (h : ∀ part ∈ condition.parts, part.Numbered d exact) :
    Render.Binds d exact (condition.renderJoins d n found) fun r ms => d.ShowsAll r.1 ms := by
  match condition with
  | .requires join =>
      rw [Condition.parts, List.forall_mem_cons] at h
      rw [Condition.renderJoins]
      split
      · exact .pure .nil
      · refine (join.render_binds hn h.2).map fun text ms htext => ?_
        simpa using Dialect.ShowsAll.cons htext .nil
  | .joined join inner =>
      rw [Condition.parts, List.forall_mem_cons, List.forall_mem_append] at h
      rw [Condition.renderJoins]
      split
      · exact inner.renderJoins_binds hn found h.2.2
      · refine (join.render_binds hn h.2.1).bind fun text ms htext => ?_
        exact (inner.renderJoins_binds hn _ h.2.2).map fun r ns htexts => .cons htext htexts
  | .all conditions =>
      rw [Condition.parts, List.forall_mem_cons] at h
      exact Condition.renderJoinsAll_binds hn found conditions h.2
  | .any conditions =>
      rw [Condition.parts, List.forall_mem_cons] at h
      exact Condition.renderJoinsAll_binds hn found conditions h.2
  | .not condition =>
      rw [Condition.parts, List.forall_mem_cons] at h
      exact condition.renderJoins_binds hn found h.2
  | .compare .. | .nullSafeEq .. | .isNull .. | .isJsonNull .. | .oneOf .. | .like ..
  | .arrayContains .. | .overlaps .. | .exists .. => exact .pure .nil
termination_by structural condition

/-- The placeholders of the joins that some conditions add are those of the values they bind. -/
theorem Condition.renderJoinsAll_binds {n : Namespaces} (hn : n.Plain d) (found : List Join)
    (conditions : List Condition)
    (h : ∀ part ∈ Condition.partsAll conditions, part.Numbered d exact) :
    Render.Binds d exact (Condition.renderJoinsAll d n found conditions)
      fun r ms => d.ShowsAll r.1 ms := by
  match conditions with
  | [] => exact .pure .nil
  | c :: rest =>
      rw [Condition.partsAll, List.forall_mem_append] at h
      refine (c.renderJoins_binds hn found h.1).bind fun r ms htexts => ?_
      exact (Condition.renderJoinsAll_binds hn r.2 rest h.2).map fun r' ns hmore =>
        htexts.append hmore
termination_by structural conditions

/-- The placeholders of the joins of a predicate are those of the values they bind. -/
theorem Predicate.renderJoins_binds {n : Namespaces} (hn : n.Plain d) (found : List Join)
    (p : Predicate) (h : ∀ part ∈ p.parts, part.Numbered d exact) :
    Render.Binds d exact (p.renderJoins d n found) d.ShowsAll := by
  match p with
  | .always => exact .pure .nil
  | .never => exact .pure .nil
  | .condition c => exact (c.renderJoins_binds hn found h).map fun r ms htexts => htexts
termination_by structural p

/-- A clause that may be missing: a text that starts with no digit. -/
theorem Predicate.renderWhere_binds {n : Namespaces} (hn : n.Plain d) (p : Predicate)
    (h : ∀ part ∈ p.parts, part.Numbered d exact) :
    Render.Binds d exact (p.renderWhere d n) d.ShowsClause := by
  match p with
  | .always => exact .pure .nothing
  | .never => exact .pure ((d.ends_boolText false).shows.behind (by decide))
  | .condition c =>
      rw [Predicate.renderWhere]
      split
      · exact .pure .nothing
      · exact (c.render_binds hn h).map fun text ms htext => htext.behind (by decide)
termination_by structural p

/-- The placeholders of a join are those of the values it binds. -/
theorem Join.render_binds {n : Namespaces} (hn : n.Plain d) (join : Join)
    (h : ∀ part ∈ join.parts, part.Numbered d exact) :
    Render.Binds d exact (join.render d n) d.Shows := by
  match join with
  | ⟨kind, table, on⟩ =>
      have hinner : (n.inside (some table.namespaceText)).Plain d :=
        hn.inside (by rintro _ ⟨⟩; exact table.namespaceText_plain)
      refine (on.render_binds hinner h).map fun text ms htext => ?_
      cases kind <;> exact ((table.ends_text.after (by decide)).close (by decide)).append htext
termination_by structural join

/-- The placeholders of some joins are those of the values they bind in turn. -/
theorem Join.renderAll_binds {n : Namespaces} (hn : n.Plain d) (joins : List Join)
    (h : ∀ part ∈ Join.partsAll joins, part.Numbered d exact) :
    Render.Binds d exact (Join.renderAll d n joins) d.ShowsAll := by
  match joins with
  | [] => exact .pure .nil
  | join :: rest =>
      rw [Join.partsAll, List.forall_mem_append] at h
      refine (join.render_binds hn h.1).bind fun text ms htext => ?_
      exact (Join.renderAll_binds hn rest h.2).map fun texts ns htexts => .cons htext htexts
termination_by structural joins

/-- The placeholders of the items of a `SELECT` are those of the values they bind in turn. -/
theorem SelectItem.renderAll_binds {n : Namespaces} (hn : n.Plain d) (items : List SelectItem)
    (h : ∀ part ∈ SelectItem.partsAll items, part.Numbered d exact) :
    Render.Binds d exact (SelectItem.renderAll d n items) d.ShowsAll := by
  match items with
  | [] => exact .pure .nil
  | ⟨expr, asName⟩ :: rest =>
      rw [SelectItem.partsAll, List.forall_mem_append] at h
      refine (expr.render_binds hn h.1).bind fun text ms htext => ?_
      refine (SelectItem.renderAll_binds hn rest h.2).map fun texts ns htexts => ?_
      refine .cons ?_ htexts
      cases asName with
      | none => exact htext
      | some asName =>
          have halias : d.Shows (text ++ " AS " ++ asName.text) (ms ++ []) :=
            (htext.close (by decide)).append (asName.plain d).ends.shows
          rwa [List.append_nil] at halias
termination_by structural items

/-- The placeholders of an order are those of the values its terms bind in turn. -/
theorem OrderTerm.renderAll_binds {n : Namespaces} (hn : n.Plain d) (terms : List OrderTerm)
    (h : ∀ part ∈ OrderTerm.partsAll terms, part.Numbered d exact) :
    Render.Binds d exact (OrderTerm.renderAll d n terms) d.ShowsAll := by
  match terms with
  | [] => exact .pure .nil
  | ⟨expr, direction⟩ :: rest =>
      rw [OrderTerm.partsAll, List.forall_mem_append] at h
      refine (expr.render_binds hn h.1).bind fun text ms htext => ?_
      exact (OrderTerm.renderAll_binds hn rest h.2).map fun texts ns htexts =>
        .cons (Dialect.shows_nullsOrder direction htext) htexts
termination_by structural terms

/-- The placeholders of `HAVING` are those of the values it binds. -/
theorem Select.renderHaving_binds {n : Namespaces} (hn : n.Plain d) (having : Option Condition)
    (h : ∀ part ∈ Condition.partsOption having, part.Numbered d exact) :
    Render.Binds d exact (Select.renderHaving d n having) d.ShowsClause := by
  match having with
  | none => exact .pure .nothing
  | some c => exact (c.render_binds hn h).map fun text ms htext => htext.behind (by decide)
termination_by structural having

/-- The placeholders of a `SELECT` are those of the values it binds, clause after clause. -/
theorem Select.render_binds {n : Namespaces} (hn : n.Plain d) (s : Select)
    (h : ∀ part ∈ s.parts, part.Numbered d exact) :
    Render.Binds d exact (s.render d n) d.Shows := by
  match s with
  | ⟨items, source, joins, filter, groupBy, having, orderBy, limit, offset, timeout⟩ =>
      rw [Select.render_eq]
      split
      · exact .throw
      -- the clauses are rendered inside the namespace of the statement's table
      have hinner : (n.inside (source.map Table.namespaceText)).Plain d := by
        refine hn.inside fun text htext => ?_
        obtain ⟨table, -, rfl⟩ := Option.map_eq_some_iff.1 htext
        exact table.namespaceText_plain
      simp only [Select.parts, List.forall_mem_append] at h
      obtain ⟨⟨⟨⟨⟨hitems, hjoins⟩, hfilter⟩, hgroupBy⟩, hhaving⟩, horderBy⟩ := h
      refine (SelectItem.renderAll_binds hinner items hitems).bind fun items m₁ hitems => ?_
      refine (Join.renderAll_binds hinner joins hjoins).bind fun explicit m₂ hexplicit => ?_
      refine (filter.renderJoins_binds hinner joins hfilter).bind fun needed m₃ hneeded => ?_
      refine (filter.renderWhere_binds hinner hfilter).bind fun filter m₄ hfilter => ?_
      refine (Expr.renderAll_binds hinner groupBy hgroupBy).bind fun groups m₅ hgroups => ?_
      refine (Select.renderHaving_binds hinner having hhaving).bind fun having m₆ hhaving => ?_
      refine (OrderTerm.renderAll_binds hinner orderBy horderBy).map fun terms m₇ hterms => ?_
      simpa only [List.append_assoc] using
        Select.shows_assemble _ hitems (hexplicit.append hneeded) hfilter hgroups hhaving hterms
termination_by structural s

end

/-- The placeholders of inserted rows are those of the values they bind in turn. -/
theorem Insert.renderRows_binds (width : Nat) (rows : List (List Expr))
    (h : ∀ part ∈ rows.flatMap Expr.partsAll, part.Numbered d exact) :
    Render.Binds d exact (Insert.renderRows d width rows) d.ShowsAll := by
  induction rows with
  | nil => exact .pure .nil
  | cons row rest ih =>
      rw [List.flatMap_cons, List.forall_mem_append] at h
      rw [Insert.renderRows]
      split
      · exact .stop .throw
      · refine (Expr.renderAll_binds Namespaces.plain_none row h.1).bind fun texts ms htexts => ?_
        refine (ih h.2).map fun more ns hmore => ?_
        exact .cons (((htexts.join (by decide)).after (by decide)).close (by decide)).shows hmore

/-- Names in a row show nothing. -/
theorem Identifier.shows_join (names : List Identifier) :
    d.Shows (Text.join ", " (names.map (·.text))) [] := by
  refine (Dialect.showsAll_of_forall fun text htext => ?_).join (by decide)
  obtain ⟨name, -, rfl⟩ := List.mem_map.1 htext
  exact (name.plain d).ends.shows

/-- The placeholders of an `INSERT` are those of the values it binds. -/
theorem Insert.render_binds (s : Insert) (h : ∀ part ∈ s.parts, part.Numbered d exact) :
    Render.Binds d exact (s.render d) d.Shows := by
  rw [Insert.render]
  split
  · exact .stop .throw
  refine (Insert.renderRows_binds s.columns.length s.rows h).map fun rows ms hrows => ?_
  have hhead : d.Ends ("INSERT INTO " ++ s.table.text ++ " (" ++
      Text.join ", " (s.columns.map (·.text)) ++ ") VALUES ") [] :=
    (((s.table.ends_text.after (by decide)).close (by decide)).append
      (Identifier.shows_join s.columns)).close (by decide)
  have hrowsText : d.Shows ("INSERT INTO " ++ s.table.text ++ " (" ++
      Text.join ", " (s.columns.map (·.text)) ++ ") VALUES " ++ Text.join ", " rows) ms :=
    hhead.append (hrows.join (by decide))
  have hname : ∀ names : List Identifier, ∀ c ∈ names.map (·.text), d.Plain c := by
    intro names c hc
    obtain ⟨name, -, rfl⟩ := List.mem_map.1 hc
    exact name.plain d
  have hall : ∀ tail, d.ShowsClause tail [] → d.Shows ("INSERT INTO " ++ s.table.text ++ " (" ++
      Text.join ", " (s.columns.map (·.text)) ++ ") VALUES " ++ Text.join ", " rows ++ tail)
      ms := by
    intro tail htail
    simpa only [List.append_nil] using hrowsText.clause htail
  refine hall _ ?_
  split
  · split
    · exact .nothing
    · exact (Dialect.shows_upsertTail (hname _) (hname _)).behind (by decide)
  · exact .nothing

/-- The placeholders of assignments are those of the values they bind in turn. -/
theorem Update.renderAssignments_binds (assignments : List (Identifier × Expr))
    (h : ∀ part ∈ Expr.partsAll (assignments.map (·.2)), part.Numbered d exact) :
    Render.Binds d exact (Update.renderAssignments d assignments) d.ShowsAll := by
  induction assignments with
  | nil => exact .pure .nil
  | cons assignment rest ih =>
      rw [List.map_cons, Expr.partsAll, List.forall_mem_append] at h
      refine (assignment.2.render_binds Namespaces.plain_none h.1).bind fun text ms htext => ?_
      refine (ih h.2).map fun texts ns htexts => ?_
      exact .cons (((assignment.1.plain d).ends.close (by decide)).append htext) htexts

/-- The placeholders of an `UPDATE` are those of the values it binds. -/
theorem Update.render_binds {n : Namespaces} (hn : n.Plain d) (s : Update)
    (h : ∀ part ∈ s.parts, part.Numbered d exact) :
    Render.Binds d exact (s.render d n) d.Shows := by
  rw [Update.render]
  split
  · exact .stop .throw
  have hinner : (n.inside (some s.table.namespaceText)).Plain d :=
    hn.inside (by rintro _ ⟨⟩; exact s.table.namespaceText_plain)
  rw [Update.parts, List.forall_mem_append] at h
  refine (s.filter.renderJoins_binds hinner [] h.2).bind fun joins ms hjoins => ?_
  refine (Update.renderAssignments_binds s.assignments h.1).bind fun texts ns htexts => ?_
  refine (s.filter.renderWhere_binds hinner h.2).map fun filter os hfilter => ?_
  have htable : d.Shows ("UPDATE " ++ s.table.text) [] :=
    (s.table.ends_text.after (by decide)).shows
  have hset : d.ShowsClause (" SET " ++ Text.join ", " texts) ns :=
    (htexts.join (by decide)).behind (by decide)
  have hall := ((htable.clause hjoins.blanks).clause hset).clause hfilter
  rw [← String.append_assoc] at hall
  simpa only [List.append_assoc, List.nil_append] using hall

/-! ## Trees -/

/-- Whatever is rendered by itself. -/
inductive Tree where
  | expr (expr : Expr)
  | condition (condition : Condition)
  | join (join : Join)
  | select (query : Select)
  | insert (query : Insert)
  | update (query : Update)

namespace Tree

/-- The text of a tree. The values of an `INSERT` have no namespace. -/
def render (d : Dialect) (n : Namespaces) : Tree → Render String
  | .expr e => e.render d n
  | .condition c => c.render d n
  | .join j => j.render d n
  | .select s => s.render d n
  | .insert s => s.render d
  | .update s => s.render d n

/-- The expressions and conditions that a tree is made of. -/
def parts : Tree → List Part
  | .expr e => e.parts
  | .condition c => c.parts
  | .join j => j.parts
  | .select s => s.parts
  | .insert s => s.parts
  | .update s => s.parts

/-- The placeholders of a tree are those of the values it binds. -/
theorem render_binds {n : Namespaces} (hn : n.Plain d) (t : Tree)
    (h : ∀ part ∈ t.parts, part.Numbered d exact) :
    Render.Binds d exact (t.render d n) d.Shows := by
  cases t with
  | expr e => exact e.render_binds hn h
  | condition c => exact c.render_binds hn h
  | join j => exact j.render_binds hn h
  | select s => exact s.render_binds hn h
  | insert s => exact s.render_binds h
  | update s => exact s.render_binds hn h

/-- The text of a tree shows placeholders for the values that it binds, in their order and with
their numbers, and it shows all of them if no operand that binds a value is looked for in an empty
list. -/
theorem render_numbered {n : Namespaces} {t : Tree} {bound bound' : Array Value} {text : String}
    (hn : n.Plain d) (hplain : ∀ part ∈ t.parts, part.Plain d)
    (h : StateT.run (t.render d n) bound = .ok (text, bound')) :
    ∃ values : Array Value, bound' = bound ++ values ∧
      (d.marks text).Sublist (d.numbering bound.size values.size) ∧
      ((∀ part ∈ t.parts, part.KeepsOperand d) →
        d.marks text = d.numbering bound.size values.size) := by
  have hbinds : Render.Binds d (∀ part ∈ t.parts, part.KeepsOperand d) (t.render d n) d.Shows :=
    t.render_binds hn fun part hpart => ⟨hplain part hpart, fun hkeeps => hkeeps part hpart⟩
  obtain ⟨values, ms, rfl, hshows, hnumbers⟩ := hbinds bound text bound' h
  rw [Dialect.shows_marks hshows]
  exact ⟨values, rfl, hnumbers.sublist, hnumbers.complete⟩

namespace Sample

/-- The member of a JSON column that a key from a caller names. -/
def answer : Expr := .jsonExtract (.column ⟨.own, ⟨"answers", .refl true⟩⟩) (.forKey "a")

/-- The answer is one of two. -/
def answered : Tree := .condition (.oneOf answer [.int 1, .int 2] false)

/-- The answer is one of none. -/
def unanswered : Tree := .condition (.oneOf answer [] false)

end Sample

open Sample in
/-- The numbers of the placeholders behind a value that is bound already. -/
theorem render_numbered_answers :
    StateT.run (answered.render .sqlite .none) #[.null] =
        .ok ("json_extract(answers, ?2) IN (?3, ?4)",
          #[.null] ++ #[.string "$.a", .int 1, .int 2]) ∧
      (∀ part ∈ answered.parts, part.Plain .sqlite) ∧
      (∀ part ∈ answered.parts, part.KeepsOperand .sqlite) ∧
      Dialect.sqlite.marks "json_extract(answers, ?2) IN (?3, ?4)" =
        [some 2, some 3, some 4] := by
  have hparts : answered.parts = [.condition (.oneOf answer [.int 1, .int 2] false),
      .expr answer, .expr (.column ⟨.own, ⟨"answers", .refl true⟩⟩)] := rfl
  have hplain : ∀ part ∈ answered.parts, part.Plain .sqlite := by
    rw [hparts]
    simp [Part.Plain, answer]
  have hkeeps : ∀ part ∈ answered.parts, part.KeepsOperand .sqlite := by
    rw [hparts]
    simp [Part.KeepsOperand]
  have hrender : StateT.run (answered.render .sqlite .none) #[.null] =
      .ok ("json_extract(answers, ?2) IN (?3, ?4)",
        #[.null] ++ #[.string "$.a", .int 1, .int 2]) := rfl
  obtain ⟨values, hvalues, -, hmarks⟩ :=
    render_numbered Namespaces.plain_none hplain hrender
  obtain rfl := (Array.append_right_inj _).1 hvalues
  exact ⟨hrender, hplain, hkeeps, hmarks hkeeps⟩

open Sample in
/-- The key of an answer that is looked for in an empty list is bound without a placeholder. -/
theorem render_numbered_fails_unanswered :
    StateT.run (unanswered.render .sqlite .none) #[] = .ok ("0", #[] ++ #[.string "$.a"]) ∧
      (∀ part ∈ unanswered.parts, part.Plain .sqlite) ∧
      Dialect.sqlite.marks "0" ≠ Dialect.sqlite.numbering 0 1 := by
  have hparts : unanswered.parts = [.condition (.oneOf answer [] false),
      .expr answer, .expr (.column ⟨.own, ⟨"answers", .refl true⟩⟩)] := rfl
  refine ⟨rfl, ?_, by decide⟩
  rw [hparts]
  simp [Part.Plain, answer]

end Tree

end FilterSql
