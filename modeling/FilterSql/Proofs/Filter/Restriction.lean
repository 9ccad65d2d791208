import FilterSql.Filter.Template
import FilterSql.Proofs.Filter.Visibility

/-!
# Templates and the filters that they restrict

A template that is a chain of fields down to its marker is searched for in a caller's filter. What
is found stands in conjunctions and fields only (`Chain.Finds`), so the filter restricts the rows at
least as the template does with the part put back in: wherever the filter holds, the filled template
holds (`Chain.requireScope_restricts`).
-/

namespace FilterSql

variable {db : Database}

/-! ## Chains -/

/-- A template that goes from field to field, and into the matches of related rows, down to its
marker. -/
inductive Chain where
  | marker
  | field (name : String) (rest : Chain)
  | elemMatch (rest : Chain)
  deriving DecidableEq

namespace Chain

/-- The chain with a filter in the place of its marker. -/
def fill (part : Filter) : Chain → Filter
  | .marker => part
  | .field name rest => .field name (rest.fill part)
  | .elemMatch rest => .elemMatch (rest.fill part)

/-- The chain as a template. -/
def template (chain : Chain) : Filter :=
  chain.fill .marker

/-- Where a chain leads to a part of a filter. The filter at the marker is the part as a whole; on
the way there the chain goes through conjunctions, and not through alternatives and negations. -/
inductive Finds : Chain → Filter → Filter → Prop where
  | marker (part : Filter) : Finds .marker part part
  | all {chain : Chain} {filters : List Filter} {filter part : Filter} (way : chain ≠ .marker)
      (mem : filter ∈ filters) (finds : Finds chain filter part) : Finds chain (.all filters) part
  | field {name : String} {rest : Chain} {filter part : Filter} (finds : Finds rest filter part) :
      Finds (.field name rest) (.field name filter) part
  | elemMatch {rest : Chain} {filter part : Filter} (finds : Finds rest filter part) :
      Finds (.elemMatch rest) (.elemMatch filter) part

/-- A template with a field or a relation is more than its marker. -/
theorem template_ne_marker {chain : Chain} (h : chain ≠ .marker) : chain.template ≠ .marker := by
  cases chain with
  | marker => exact absurd rfl h
  | field name rest => nofun
  | elemMatch rest => nofun

end Chain

namespace Filter

/-- For a marker alone the whole filter is found. -/
theorem unwrap?_marker (filter : Filter) : unwrap? .marker filter = some filter := by
  rw [unwrap?]

/-- A conjunction is searched filter by filter. -/
theorem unwrap?_all {template : Filter} (h : template ≠ .marker) (filters : List Filter) :
    unwrap? template (.all filters) = unwrapFirst? template filters := by
  rw [unwrap?]
  exact h

/-- What is no conjunction is compared with the template itself. -/
theorem unwrap?_node {template filter : Filter} (h : template ≠ .marker)
    (hfilter : ∀ filters, filter ≠ .all filters) :
    unwrap? template filter = unwrapNode? template filter := by
  rw [unwrap?]
  · exact h
  · exact hfilter

end Filter

namespace Chain

open FilterSql.Filter

/-- A chain is found in itself, with the part that it is filled with. -/
theorem unwrap?_fill (chain : Chain) (part : Filter) :
    unwrap? chain.template (chain.fill part) = some part := by
  induction chain with
  | marker => exact unwrap?_marker part
  | field name rest ih =>
      have hway : (Chain.field name rest).template ≠ .marker := template_ne_marker Chain.noConfusion
      have hnode : unwrap? (Chain.field name rest).template ((Chain.field name rest).fill part) =
          unwrapNode? (.field name rest.template) (.field name (rest.fill part)) :=
        unwrap?_node hway fun _ => Filter.noConfusion
      rw [hnode, unwrapNode?, if_pos rfl, ih]
  | elemMatch rest ih =>
      have hway : (Chain.elemMatch rest).template ≠ .marker := template_ne_marker Chain.noConfusion
      have hnode : unwrap? (Chain.elemMatch rest).template ((Chain.elemMatch rest).fill part) =
          unwrapNode? (.elemMatch rest.template) (.elemMatch (rest.fill part)) :=
        unwrap?_node hway fun _ => Filter.noConfusion
      rw [hnode, unwrapNode?, ih]

mutual

/-- What the search for a template gives is where the chain leads. -/
theorem finds_of_unwrap? (filter : Filter) {chain : Chain} {part : Filter}
    (h : unwrap? chain.template filter = some part) : chain.Finds filter part := by
  by_cases hmarker : chain = .marker
  · rw [hmarker] at h ⊢
    obtain rfl := Option.some.inj ((unwrap?_marker filter).symm.trans h)
    exact .marker filter
  have hway := template_ne_marker hmarker
  match filter with
  | .all filters =>
      rw [unwrap?_all hway] at h
      obtain ⟨found, hfound, hfinds⟩ := finds_of_unwrapFirst? filters h
      exact .all hmarker hfound hfinds
  | .field name filter =>
      rw [unwrap?_node hway (by nofun)] at h
      cases chain with
      | marker => exact absurd rfl hmarker
      | field wanted rest =>
          rw [template, fill, unwrapNode?] at h
          split at h
          next hname =>
            rw [hname]
            exact .field (finds_of_unwrap? filter h)
          next => cases h
      | elemMatch rest => simp [template, fill, unwrapNode?] at h
  | .elemMatch filter =>
      rw [unwrap?_node hway (by nofun)] at h
      cases chain with
      | marker => exact absurd rfl hmarker
      | field wanted rest => simp [template, fill, unwrapNode?] at h
      | elemMatch rest =>
          rw [template, fill, unwrapNode?] at h
          exact .elemMatch (finds_of_unwrap? filter h)
  | .any _ | .not _ | .compare .. | .oneOf _ | .contains _ | .marker =>
      rw [unwrap?_node hway (by nofun)] at h
      cases chain with
      | marker => exact absurd rfl hmarker
      | field wanted rest => simp [template, fill, unwrapNode?] at h
      | elemMatch rest => simp [template, fill, unwrapNode?] at h
termination_by structural filter

/-- What is found in a list of filters is found in one of them. -/
theorem finds_of_unwrapFirst? (filters : List Filter) {chain : Chain} {part : Filter}
    (h : unwrapFirst? chain.template filters = some part) :
    ∃ filter ∈ filters, chain.Finds filter part := by
  match filters with
  | [] => simp [unwrapFirst?] at h
  | filter :: rest =>
      rw [unwrapFirst?, Option.or_eq_some_iff] at h
      rcases h with h | ⟨-, h⟩
      · exact ⟨filter, List.mem_cons_self, finds_of_unwrap? filter h⟩
      · obtain ⟨found, hfound, hfinds⟩ := finds_of_unwrapFirst? rest h
        exact ⟨found, List.mem_cons_of_mem _ hfound, hfinds⟩
termination_by structural filters

end

end Chain

/-! ## Restriction -/

namespace Sight

variable {S T : Sight} {p q r : Predicate} {entry : Entry}

/-- A predicate that fits restricts the rows as it does itself. -/
theorem Fits.restricts (h : S.Fits db p) : S.Restricts db p p :=
  ⟨id, id, fun _ _ hjoin => hjoin, fun a b hab hholds => (h.sees a b hab).symm.trans hholds⟩

/-- What never holds restricts the rows as any predicate does. -/
theorem restricts_never : S.Restricts db .never q :=
  ⟨fun _ => rfl, nofun, fun h => absurd rfl h, nofun⟩

/-- A conjunction restricts as its left side does. -/
theorem Restricts.and_left (h : S.Restricts db p q) : S.Restricts db (p.and r) q := by
  refine ⟨fun hq => Predicate.and_eq_never.2 (.inl (h.never hq)),
    fun hand => h.always (Predicate.and_eq_always.1 hand).1, fun hand join hjoin => ?_,
    fun a b hab hholds => h.holds a b hab ?_⟩
  · rw [Predicate.needs_and hand]
    exact List.mem_append_left _
      (h.joins (fun hp => hand (Predicate.and_eq_never.2 (.inl hp))) join hjoin)
  · rw [Predicate.truth_and, Truth.and_eq_holds] at hholds
    exact hholds.1

/-- A conjunction restricts as its right side does. -/
theorem Restricts.and_right (h : S.Restricts db p q) : S.Restricts db (r.and p) q := by
  refine ⟨fun hq => Predicate.and_eq_never.2 (.inr (h.never hq)),
    fun hand => h.always (Predicate.and_eq_always.1 hand).2, fun hand join hjoin => ?_,
    fun a b hab hholds => h.holds a b hab ?_⟩
  · rw [Predicate.needs_and hand]
    exact List.mem_append_right _
      (h.joins (fun hp => hand (Predicate.and_eq_never.2 (.inr hp))) join hjoin)
  · rw [Predicate.truth_and, Truth.and_eq_holds] at hholds
    exact hholds.2

end Sight

/-- Related rows are asked whether there are any. -/
def Entry.AsksAny : Entry → Prop
  | .related base => base.AsksAny
  | _ => True

namespace Sight

variable {S T : Sight} {p q r : Predicate} {entry : Entry}

/-- An `EXISTS` test holds if the subquery gives a row. -/
theorem truth_exists {base : Select} {row : Env} :
    (Predicate.condition (.exists base false)).truth db row = .holds ↔
      (base.eval db row).isEmpty = false := by
  show Truth.ofBool _ = _ ↔ _
  rw [Truth.ofBool_eq_holds, beq_iff_eq]
  rfl

/-- An entry keeps the restriction: of related rows, and of the row that a join adds. -/
theorem Restricts.enclose (hentry : entry.Leads db S T) (hasks : entry.AsksAny)
    (hp : T.Fits db p) (hq : T.Fits db q) (h : T.Restricts db p q) :
    S.Restricts db (entry.enclose p) (entry.enclose q) := by
  by_cases hnever : p = .never
  · rw [hnever, entry.enclose_never]
    exact restricts_never
  have hneverq : q ≠ .never := fun hq => hnever (h.never hq)
  cases hentry with
  | row => exact h
  | @inside base hwhole =>
      rw [Entry.enclose_related base hnever, Entry.enclose_related base hneverq]
      refine ⟨nofun, nofun, fun _ => nofun, fun a b hab hholds => ?_⟩
      obtain rfl : a = b := sees_of_whole hwhole id a b hab.of_past
      exact truth_exists.2 (h.exists_inside hasks hp hq (truth_exists.1 hholds))
  | @related base joins hbase =>
      rw [Entry.enclose_related base hnever, Entry.enclose_related base hneverq]
      refine ⟨nofun, nofun, fun _ => nofun, fun a b hab hholds => ?_⟩
      exact truth_exists.2 (h.exists hbase hasks hp hq hab.of_past (truth_exists.1 hholds))
  | @joined join always mem picks =>
      cases p with
      | never => exact absurd rfl hnever
      | always =>
          rw [h.always rfl]
          exact ((Entry.Leads.joined mem picks).fits fits_always).restricts
      | condition c =>
          cases q with
          | never => exact absurd rfl hneverq
          | always =>
              cases always with
              | true => exact ⟨nofun, nofun, fun _ => nofun, fun _ _ _ _ => rfl⟩
              | false =>
                  refine ⟨nofun, nofun, fun _ other hother => ?_, fun _ _ _ _ => rfl⟩
                  rw [List.mem_singleton.1 hother]
                  exact List.mem_cons_self
          | condition d =>
              refine ⟨nofun, nofun, fun _ other hother => ?_, fun a b hab hholds => ?_⟩
              · rcases List.mem_cons.1 hother with rfl | hother
                · exact List.mem_cons_self
                · exact List.mem_cons_of_mem _ (h.joins hnever other hother)
              · refine h.holds a b ?_ hholds
                have hab : (S.past (join :: (Predicate.condition d).needs db)).Agree a b := hab
                rwa [past_cons] at hab

/-- Behind relations that ask for any rows, a restriction of the related rows is one of the outer
rows. -/
theorem Restricts.foldr {entries : List Entry} (hentries : Entry.LeadAll db S entries T)
    (hasks : ∀ entry ∈ entries, entry.AsksAny) (hp : T.Fits db p) (hq : T.Fits db q)
    (h : T.Restricts db p q) :
    S.Restricts db (entries.foldr Entry.enclose p) (entries.foldr Entry.enclose q) := by
  induction hentries with
  | nil => exact h
  | cons first behind ih =>
      obtain ⟨hfirst, hrest⟩ := List.forall_mem_cons.1 hasks
      exact (ih hrest hp hq h).enclose first hfirst (behind.fits hp) (behind.fits hq)

end Sight

namespace Filter

variable {limits : Limits} {now : Instant} {s : Scope} {entry : Entry} {above : Nat}

/-- A conjunction with what always holds is its left side. -/
theorem and_always (p : Predicate) : p.and .always = p := by
  cases p <;> rfl

/-- A conjunction of filters goes on from what was there before, unless it never holds. -/
theorem exists_and_of_compileAll {filters : List Filter} {before p : Predicate}
    (h : compileAll limits now s above before filters = .ok p) (hnever : p ≠ .never) :
    ∃ behind, p = before.and behind := by
  induction filters generalizing before with
  | nil =>
      cases h
      exact ⟨.always, (and_always p).symm⟩
  | cons filter rest ih =>
      obtain ⟨r, -, h⟩ := compileAll_cons h
      rcases h with ⟨-, rfl⟩ | ⟨-, h⟩
      · exact absurd rfl hnever
      · obtain ⟨behind, rfl⟩ := ih h
        exact ⟨r.and behind, Predicate.and_assoc before r behind⟩

/-- The predicate of a conjunction is that of each of its filters and some others, unless it is
settled that no row matches. -/
theorem exists_of_compileAll {filters : List Filter} {filter : Filter} {before p : Predicate}
    (h : compileAll limits now s above before filters = .ok p) (hnever : p ≠ .never)
    (hfilter : filter ∈ filters) :
    ∃ r, ∃ front behind : Predicate, compileAt limits now s .row above filter = .ok r ∧
      p = (front.and r).and behind := by
  induction filters generalizing before with
  | nil => cases hfilter
  | cons first rest ih =>
      obtain ⟨r, hr, hrest⟩ := compileAll_cons h
      rcases hrest with ⟨-, rfl⟩ | ⟨-, hrest⟩
      · exact absurd rfl hnever
      · rcases List.mem_cons.1 hfilter with rfl | hfilter
        · obtain ⟨behind, rfl⟩ := exists_and_of_compileAll hrest hnever
          exact ⟨r, before, behind, hr, rfl⟩
        · exact ih hrest hfilter

/-- No row matches a conjunction with a filter that no row matches. -/
theorem never_of_compileAll {filters : List Filter} {filter : Filter} {before p : Predicate}
    (h : compileAll limits now s above before filters = .ok p) (hfilter : filter ∈ filters)
    (hnever : ∀ r, compileAt limits now s .row above filter = .ok r → r = .never) : p = .never := by
  by_contra hp
  obtain ⟨r, front, behind, hr, rfl⟩ := exists_of_compileAll h hp hfilter
  refine hp ?_
  rw [hnever r hr]
  exact Predicate.and_eq_never.2 (.inl (Predicate.and_eq_never.2 (.inr rfl)))

/-- What a field asks of what an entry leads to it asks behind the entry. -/
theorem compileAt_field_eq (name : String) (filter : Filter) :
    compileAt limits now s entry above (.field name filter) =
      (compileAt limits now s .row above (.field name filter)).map entry.enclose := by
  rw [compileAt_field_target, compileAt_field_target]
  cases guardDepth limits s above with
  | error e => rfl
  | ok => cases s.follow name >>= compileTarget limits now (above + 1) filter <;> rfl

end Filter

namespace Chain

open FilterSql.Filter

/-- A chain looks for a field in what it leads to, and does not take that as a whole. -/
def Looks : Chain → Prop
  | .marker => False
  | .field _ _ => True
  | .elemMatch rest => rest.Looks

/-- The relations that a chain looks into ask for any rows. Nothing is asked of those that lead to
what it takes as a whole. -/
def AsksAny (s : Scope) : Chain → Prop
  | .marker => True
  | .field name rest =>
    rest.Looks → ∀ target, s.follow name = .ok target →
      (∀ entry ∈ target.passed, entry.AsksAny) ∧
        ∀ entry inner, target.landing = .scope entry inner → entry.AsksAny ∧ rest.AsksAny inner
  | .elemMatch rest => rest.AsksAny s

variable {S T : Sight} {limits : Limits} {now : Instant} {s : Scope} {entry : Entry}
  {above above' : Nat} {chain : Chain} {filter part : Filter} {p q : Predicate}

/-- A match of related rows is refused where no relation has been entered, so a conjunction that
holds one is compiled only if it is settled before that no row matches. -/
theorem Finds.never_on_row (h : chain.Finds filter part) {rest : Chain}
    (hchain : chain = .elemMatch rest)
    (hp : compileAt limits now s .row above filter = .ok p) : p = .never := by
  induction h generalizing above p with
  | marker => cases hchain
  | field => cases hchain
  | elemMatch =>
      obtain ⟨hrow, -⟩ := compileAt_elemMatch hp
      exact absurd rfl hrow
  | all way mem finds ih =>
      obtain ⟨q, hq, rfl⟩ := compileAt_all hp
      exact never_of_compileAll hq mem fun r hr => ih hchain hr

/-- What is taken as a whole is compiled as it is, or it is settled that no row matches. -/
theorem Finds.never_or_eq (h : chain.Finds filter part) (hlooks : ¬chain.Looks)
    (hp : compileAt limits now s entry above filter = .ok p)
    (hq : compileAt limits now s entry above' (chain.fill part) = .ok q) : p = .never ∨ p = q := by
  induction h generalizing entry above above' p q with
  | marker part => exact .inr (compileAt_above part hp hq)
  | field => exact absurd trivial hlooks
  | @all chain filters filter part way mem finds ih =>
      cases chain with
      | marker => exact absurd rfl way
      | field name rest => exact absurd trivial hlooks
      | elemMatch rest =>
          obtain ⟨p, hinner, rfl⟩ := compileAt_all hp
          rw [never_of_compileAll hinner mem fun r hr => finds.never_on_row rfl hr,
            Entry.enclose_never]
          exact .inl rfl
  | @elemMatch rest filter part finds ih =>
      obtain ⟨-, p, hinner, rfl⟩ := compileAt_elemMatch hp
      obtain ⟨-, q, hinner', rfl⟩ := compileAt_elemMatch hq
      rcases ih hlooks hinner hinner' with hnever | heq
      · rw [hnever, Entry.enclose_never]
        exact .inl rfl
      · rw [heq]
        exact .inr rfl

/-- A filter in which a chain leads to a part restricts the chain that is filled with the part. -/
theorem Finds.restricts (h : chain.Finds filter part) (hentry : entry.Leads db S T)
    (hs : s.Orderly db T) (hchain : chain.AsksAny s) (hasks : chain.Looks → entry.AsksAny)
    (hp : compileAt limits now s entry above filter = .ok p)
    (hq : compileAt limits now s entry above' (chain.fill part) = .ok q) :
    S.Restricts db p q := by
  induction h generalizing S T s entry above above' p q with
  | marker part =>
      rw [compileAt_above part hp hq]
      exact (compileAt_fits part hentry hs hq).restricts
  | @all chain filters filter part way mem finds ih =>
      obtain ⟨p, hinner, rfl⟩ := compileAt_all hp
      by_cases hnever : p = .never
      · rw [hnever, Entry.enclose_never]
        exact Sight.restricts_never
      obtain ⟨r, front, behind, hr, hconj⟩ := exists_of_compileAll hinner hnever mem
      have hfits := compileAll_fits filters hs Sight.fits_always hinner
      cases chain with
      | marker => exact absurd rfl way
      | field name rest =>
          rw [fill, compileAt_field_eq, map_eq_ok] at hq
          obtain ⟨q, hq, rfl⟩ := hq
          have hrestricts := ih .row hs hchain (fun _ => trivial) hr hq
          refine Sight.Restricts.enclose hentry (hasks trivial) hfits
            (compileAt_fits _ .row hs hq) ?_
          rw [hconj]
          exact hrestricts.and_right.and_left
      | elemMatch rest =>
          exact absurd (never_of_compileAll hinner mem fun r hr => finds.never_on_row rfl hr) hnever
  | @field name rest filter part finds ih =>
      obtain ⟨target, p, htarget, hinner, rfl⟩ := compileAt_field hp
      obtain ⟨target', q, htarget', hinner', rfl⟩ := compileAt_field hq
      cases htarget.symm.trans htarget'
      obtain ⟨U, V, through, inner, hleads, hlanding, hthrough, hinside⟩ := hs.follow htarget
      rw [hlanding, compileLanding] at hinner hinner'
      have hfits := hleads.fits (compileAt_fits filter hthrough hinside hinner)
      have hfits' := hleads.fits (compileAt_fits (rest.fill part) hthrough hinside hinner')
      refine Sight.Restricts.enclose hentry (hasks trivial) hfits hfits' ?_
      by_cases hlooks : rest.Looks
      · obtain ⟨hpassed, hbehind⟩ := hchain hlooks target htarget
        obtain ⟨hasksThrough, hchain⟩ := hbehind through inner hlanding
        exact Sight.Restricts.foldr hleads hpassed (compileAt_fits filter hthrough hinside hinner)
          (compileAt_fits (rest.fill part) hthrough hinside hinner')
          (ih hthrough hinside hchain (fun _ => hasksThrough) hinner hinner')
      · rcases finds.never_or_eq hlooks hinner hinner' with rfl | rfl
        · rw [Entry.foldr_enclose_never]
          exact Sight.restricts_never
        · exact hfits.restricts
  | @elemMatch rest filter part finds ih =>
      obtain ⟨-, p, hinner, rfl⟩ := compileAt_elemMatch hp
      obtain ⟨-, q, hinner', rfl⟩ := compileAt_elemMatch hq
      have hfits := compileAt_fits filter .row hs hinner
      by_cases hlooks : rest.Looks
      · exact Sight.Restricts.enclose hentry (hasks hlooks) hfits (compileAt_fits _ .row hs hinner')
          (ih .row hs hchain (fun _ => trivial) hinner hinner')
      · rcases finds.never_or_eq hlooks hinner hinner' with rfl | rfl
        · rw [Entry.enclose_never]
          exact Sight.restricts_never
        · exact (hentry.fits hfits).restricts

/-- A filter that meets a template restricts the rows at least as the template does with the part of
the filter in the place of its marker. The part is found in conjunctions and fields alone, and in a
template that is filled with it. -/
theorem requireScope_restricts {schema : Schema} {row : Env}
    (hschema : schema.Orderly db (.whole row.own)) (hchain : chain.AsksAny (.ofSchema schema))
    (hpart : requireScope chain.template filter = .ok part)
    (hp : filter.compile limits now schema = .ok p)
    (hq : (chain.fill part).compile limits now schema = .ok q) :
    (p.truth db row = .holds → q.truth db row = .holds) ∧ chain.Finds filter part ∧
      ∀ other, unwrap? chain.template (chain.fill other) = some other := by
  have hfinds : chain.Finds filter part := by
    rw [requireScope] at hpart
    split at hpart
    next found hfound =>
      cases hpart
      exact finds_of_unwrap? filter hfound
    next => cases hpart
  have hplace : (Scope.ofSchema schema).Orderly db (.whole row.own) := ⟨.schema hschema, nofun⟩
  have hrestricts : (Sight.whole row.own).Restricts db p q :=
    hfinds.restricts .row hplace hchain (fun _ => trivial) hp hq
  exact ⟨hrestricts.holds row row ⟨rfl, rfl⟩, hfinds, chain.unwrap?_fill⟩

namespace Sample

/-- A column of the table of a statement. -/
def own (name : String) (valid : Identifier.isValid name.toList = true) : Expr :=
  .column ⟨.own, ⟨name, valid⟩⟩

/-- The name that the author of a comment is joined under. -/
def author : Identifier := ⟨"author", .refl true⟩

/-- The comments on a post. -/
def comments : Select :=
  { Select.empty with
    source := some ⟨⟨"comments", .refl true⟩, none⟩
    filter := .condition (.compare (own "post" (.refl true)) .eq
      (.column ⟨.enclosing, ⟨"id", .refl true⟩⟩)) }

/-- The user who wrote a comment. -/
def byAuthor : Join :=
  ⟨.left, ⟨⟨"users", .refl true⟩, some author⟩,
    .compare (own "id" (.refl true)) .eq (.column ⟨.enclosing, author⟩)⟩

/-- The team of that user, which is looked for with the row of the user. -/
def byTeam : Join :=
  ⟨.left, ⟨⟨"teams", .refl true⟩, some ⟨"team", .refl true⟩⟩,
    .compare (own "id" (.refl true)) .eq (.column ⟨.named author, ⟨"team", .refl true⟩⟩)⟩

/-- The likes of a comment. -/
def likes : FilterColumn := .ofExpr (own "likes" (.refl true)) .number

/-- The team of the author of a comment. -/
def teamOfAuthor : FilterColumn :=
  .ofExpr (.column ⟨.named author, ⟨"team", .refl true⟩⟩) .number

/-- The size of that team. -/
def sizeOfTeam : FilterColumn :=
  .ofExpr (.column ⟨.named ⟨"team", .refl true⟩, ⟨"size", .refl true⟩⟩) .number

/-- The author of a comment, with the number of the team. -/
def authorField : String × FieldDefinition :=
  ("author", .joined byAuthor (.ofFields [("team", .column teamOfAuthor none)]) false)

/-- Posts with comments that have authors and likes. -/
def posts (base : Select) : Schema :=
  .ofFields [("comments", .related base (.ofFields [authorField, ("likes", .column likes none)]))]

/-- A row of numbers. -/
def numbers (values : List (String × Int64)) : TableRow :=
  fun name => (values.find? (·.1 = name)).map fun value => .int value.2

/-- Two comments on one post by authors of whom one is known, perhaps more than once. -/
def database (users : List TableRow) : Database :=
  .plain fun table =>
    if table = "comments" then
      [numbers [("post", 1), ("author", 7), ("likes", 5)],
        numbers [("post", 1), ("author", 8), ("likes", 5)]]
    else if table = "users" then users
    else [numbers [("id", 1), ("size", 4)]]

/-- The author who is known. -/
def knownUser : TableRow := numbers [("id", 7), ("team", 1)]

/-- The post with the comments. -/
def post : Env := Env.top.onRow "posts" (numbers [("id", 1)])

/-- A comment with likes, by an author of the first team. -/
def liked : Filter :=
  .field "comments" (.all [.field "likes" (.compare .eq (.int 5)),
    .field "author" (.field "team" (.compare .eq (.int 1)))])

/-- A comment with some team of its author. -/
def byTeamOfAuthor : Chain := .field "comments" (.field "author" (.field "team" .marker))

/-- What the filter is compiled to. -/
def likedPredicate : Predicate :=
  .condition (.exists (comments.restrictBy (.all
    [.compare likes.expr .eq (.param (.int 5)),
      .joined byAuthor (.compare teamOfAuthor.expr .eq (.param (.int 1)))])) false)

/-- What the filled template is compiled to. -/
def teamPredicate : Predicate :=
  .condition (.exists (comments.restrictBy
    (.joined byAuthor (.compare teamOfAuthor.expr .eq (.param (.int 1))))) false)

/-- The comments join no tables, so any predicate that joins the author once fits them. -/
theorem comments_admit {db : Database} :
    (Sight.whole post.own).Admits db comments {byAuthor} where
  table := rfl
  grounds := trivial
  filter := Sight.sees_compare .eq rfl trivial
  keys := nofun
  having := fun _ _ _ => rfl
  unique := fun _ hjoin _ hother _ => hjoin.trans hother.symm
  same := by
    rintro _ rfl
    rfl
  apart := by
    rintro _ rfl (hname | ⟨_, ⟨⟩, -⟩)
    exact absurd hname (by decide)
  outside := by
    rintro _ rfl
    decide

/-- The columns of posts and of what is joined keep to what they can see. -/
theorem posts_orderly {db : Database} : (posts comments).Orderly db (.whole post.own) := by
  have hauthor : (Sight.within (.whole post.own) db comments {byAuthor}).Sees
      (byAuthor.picks db) :=
    Sight.sees_picks (Sight.sees_compare .eq rfl trivial)
  have hteam : ((Sight.within (.whole post.own) db comments {byAuthor}).past [byAuthor]).Sees
      fun row => teamOfAuthor.expr.value db row :=
    Sight.sees_column fun hname => hname.2 ⟨byAuthor, List.mem_singleton_self _, rfl⟩
  refine ⟨fun name field hget => ?_⟩
  obtain ⟨-, rfl⟩ := Prod.mk.inj (List.mem_singleton.1 (mem_of_find?_name hget))
  refine .related (.related comments_admit) ⟨fun name field hget => ?_⟩
  rcases List.mem_cons.1 (mem_of_find?_name hget) with hget | hget
  · obtain ⟨-, rfl⟩ := Prod.mk.inj hget
    refine .joined (.joined rfl hauthor) ⟨fun name field hget => ?_⟩
    obtain ⟨-, rfl⟩ := Prod.mk.inj (List.mem_singleton.1 (mem_of_find?_name hget))
    exact .column hteam nofun
  · obtain ⟨-, rfl⟩ := Prod.mk.inj (List.mem_singleton.1 hget)
    exact .column (Sight.sees_column rfl) nofun

/-- The comments of a post are asked whether there are any. -/
theorem byTeamOfAuthor_asksAny : byTeamOfAuthor.AsksAny (.ofSchema (posts comments)) := by
  intro _ target htarget
  cases htarget
  refine ⟨nofun, fun entry inner hlanding => ?_⟩
  cases hlanding
  refine ⟨⟨rfl, rfl⟩, fun _ target htarget => ?_⟩
  cases htarget
  refine ⟨nofun, fun entry inner hlanding => ?_⟩
  cases hlanding
  exact ⟨trivial, nofun⟩

/-- The part that is found in the filter. -/
theorem requireScope_liked :
    requireScope byTeamOfAuthor.template liked = .ok (.compare .eq (.int 1)) := by
  simp [requireScope, byTeamOfAuthor, template, fill, liked, unwrap?, unwrapFirst?, unwrapNode?]

end Sample

open Sample in
/-- A post on which the filter holds is one on which the filled template holds. -/
theorem requireScope_restricts_posts :
    (posts comments).Orderly (database [knownUser]) (.whole post.own) ∧
      byTeamOfAuthor.AsksAny (.ofSchema (posts comments)) ∧
      requireScope byTeamOfAuthor.template liked = .ok (.compare .eq (.int 1)) ∧
      liked.compile {} default (posts comments) = .ok likedPredicate ∧
      (byTeamOfAuthor.fill (.compare .eq (.int 1))).compile {} default (posts comments) =
        .ok teamPredicate ∧
      likedPredicate.truth (database [knownUser]) post = .holds ∧
      teamPredicate.truth (database [knownUser]) post = .holds := by
  have hp : liked.compile {} default (posts comments) = .ok likedPredicate := rfl
  have hq : (byTeamOfAuthor.fill (.compare .eq (.int 1))).compile {} default (posts comments) =
      .ok teamPredicate := rfl
  have hholds : likedPredicate.truth (database [knownUser]) post = .holds := by decide +kernel
  exact ⟨posts_orderly, byTeamOfAuthor_asksAny, requireScope_liked, hp, hq, hholds,
    (requireScope_restricts posts_orderly byTeamOfAuthor_asksAny requireScope_liked hp hq).1 hholds⟩

/-- A filter meets a template and holds on a row on which the filled template does not. -/
def Escapes (db : Database) (row : Env) (schema : Schema) (chain : Chain) (filter : Filter) :
    Prop :=
  ∃ part p q, requireScope chain.template filter = .ok part ∧
    filter.compile {} default schema = .ok p ∧
    (chain.fill part).compile {} default schema = .ok q ∧
    p.truth db row = .holds ∧ q.truth db row ≠ .holds

namespace Sample

/-- A post with a single comment. -/
def single : Select :=
  { comments with having := some (.compare .countRows .lt (.param (.int 2))) }

/-- A post with more than two comments. -/
def many : Select := { comments with offset := some 2 }

/-- Posts with comments that have authors, and teams that are found by the author. -/
def teams : Schema :=
  .ofFields [("comments", .related comments (.ofFields
    [authorField, ("team", .joined byTeam (.ofFields [("size", .column sizeOfTeam none)]) false)]))]

end Sample

open Sample in
/-- A condition on groups, an offset with a join that multiplies rows, and a join that is found with
the row of another one: in each case the filter holds and the filled template does not. -/
theorem requireScope_escaped :
    Escapes (database [knownUser]) post (posts single) (.field "comments" (.field "likes" .marker))
        liked ∧
      Escapes (database [knownUser, knownUser]) post (posts many)
        (.field "comments" (.field "likes" .marker))
        (.field "comments" (.all [.field "likes" (.compare .eq (.int 5)),
          .field "author" .everything])) ∧
      Escapes (database [knownUser]) post teams
        (.field "comments" (.field "team" (.field "size" .marker)))
        (.field "comments" (.all [.field "author" (.field "team" (.compare .eq (.int 1))),
          .field "team" (.field "size" (.compare .eq (.int 4)))])) := by
  refine ⟨⟨.compare .eq (.int 5), _, _, ?_, rfl, rfl, by decide +kernel, by decide +kernel⟩,
    ⟨.compare .eq (.int 5), _, _, ?_, rfl, rfl, by decide +kernel, by decide +kernel⟩,
    ⟨.compare .eq (.int 4), _, _, ?_, rfl, rfl, by decide +kernel, by decide +kernel⟩⟩
  all_goals
    simp [requireScope, template, fill, liked, unwrap?, unwrapFirst?, unwrapNode?]

end Chain

end FilterSql
