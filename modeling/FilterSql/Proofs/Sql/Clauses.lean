import FilterSql.Sql.Render

/-!
# The clauses of a statement

A `SELECT` statement is rendered clause by clause, and its text is put together from the texts of
the clauses (`Select.render_eq`).
-/

namespace FilterSql

namespace Select

/-- Whether a statement has conditions or joins and no table. -/
def lacksTable (s : Select) : Bool :=
  s.source.isNone && (!s.joins.isEmpty || !s.filter.isAlways)

/-- The namespace of the table of a statement. -/
def namespaceText? (s : Select) : Option String :=
  s.source.map Table.namespaceText

/-- The `HAVING` clause, with a blank in front. -/
def renderHaving (d : Dialect) (n : Namespaces) : Option Condition → Render String
  | none => return ""
  | some c => return " HAVING " ++ (← c.render d n)

/-- The hint that bounds the time of a statement, with a blank behind it. -/
def hintText (d : Dialect) (timeout : Option Nat) : String :=
  match timeout.bind d.timeoutHint? with
  | some hint => hint ++ " "
  | none => ""

/-- A list of texts, or a star where there are none. -/
def itemsText (texts : List String) : String :=
  if texts.isEmpty then "*" else Text.join ", " texts

/-- The `FROM` clause, with a blank in front. -/
def sourceText (source : Option Table) : String :=
  match source with
  | some table => " FROM " ++ table.text
  | none => ""

/-- A clause with a list of texts, left out where there are none. -/
def listText (keyword : String) (texts : List String) : String :=
  if texts.isEmpty then "" else keyword ++ Text.join ", " texts

/-- A clause with a number, left out where there is none. -/
def countText (keyword : String) (count : Option Nat) : String :=
  match count with
  | some n => keyword ++ Json.natText n
  | none => ""

/-- The text of a statement from the texts of its clauses. -/
def assemble (d : Dialect) (s : Select) (items joins : List String) (filter : String)
    (groups : List String) (having : String) (terms : List String) : String :=
  "SELECT " ++ hintText d s.timeout ++ itemsText items ++ sourceText s.source ++
    String.join (joins.map (" " ++ ·)) ++ filter ++ listText " GROUP BY " groups ++ having ++
    listText " ORDER BY " terms ++ countText " LIMIT " s.limit ++ countText " OFFSET " s.offset

-- proofs rewrite with this lemma: the equation that Lean makes of the definition takes it seconds

/-- The clauses of a statement in the order of SQL. -/
theorem assemble_eq (d : Dialect) (s : Select) (items joins : List String) (filter : String)
    (groups : List String) (having : String) (terms : List String) :
    s.assemble d items joins filter groups having terms =
      "SELECT " ++ hintText d s.timeout ++ itemsText items ++ sourceText s.source ++
        String.join (joins.map (" " ++ ·)) ++ filter ++ listText " GROUP BY " groups ++ having ++
        listText " ORDER BY " terms ++ countText " LIMIT " s.limit ++
        countText " OFFSET " s.offset := rfl

/-- A statement is rendered clause by clause, in the order of the text. -/
theorem render_eq (d : Dialect) (n : Namespaces) (s : Select) :
    s.render d n =
      if s.lacksTable then throw .missingFrom
      else do
        let inner := n.inside s.namespaceText?
        let items ← SelectItem.renderAll d inner s.items
        let explicit ← Join.renderAll d inner s.joins
        let needed ← s.filter.renderJoins d inner s.joins
        let filter ← s.filter.renderWhere d inner
        let groups ← Expr.renderAll d inner s.groupBy
        let having ← renderHaving d inner s.having
        let terms ← OrderTerm.renderAll d inner s.orderBy
        return s.assemble d items (explicit ++ needed) filter groups having terms := by
  obtain ⟨items, source, joins, filter, groupBy, having, orderBy, limit, offset, timeout⟩ := s
  cases having with
  | none => rfl
  | some c =>
      simp only [renderHaving, bind_assoc]
      rfl

end Select

end FilterSql
