import FilterSql.Filter.Error

/-!
# Templates

A template is a filter of the program itself with a marker in the place of what a caller's filter
has to supply. `Filter.unwrap?` finds that part. It looks into conjunctions and fields and never
into alternatives and negations, since what is found there would not restrict the rows.
-/

namespace FilterSql.Filter

mutual

/-- The part of a filter at the place of the marker of a template. A conjunction of the filter is
searched first; a template that is the conjunction of one filter stands for that filter. -/
def unwrap? (template : Filter) (filter : Filter) : Option Filter :=
  match template with
  | .marker => some filter
  | template =>
    match filter with
    | .all filters => unwrapFirst? template filters
    | filter => unwrapNode? template filter
termination_by (sizeOf filter, sizeOf template, 1)

/-- The part found in the first filter of a list that has one. -/
def unwrapFirst? (template : Filter) (filters : List Filter) : Option Filter :=
  match filters with
  | [] => none
  | filter :: rest => (unwrap? template filter).or (unwrapFirst? template rest)
termination_by (sizeOf filters, sizeOf template, 2)

/-- The part found in a filter that is no conjunction. -/
def unwrapNode? (template : Filter) (filter : Filter) : Option Filter :=
  match template, filter with
  | .all [only], filter => unwrap? only filter
  | .field wanted template, .field name filter =>
    if name = wanted then unwrap? template filter else none
  | .elemMatch template, .elemMatch filter => unwrap? template filter
  | _, _ => none
termination_by (sizeOf filter, sizeOf template, 0)

end

/-- The part of a filter at the place of the marker of a template, which has to be there. -/
def requireScope (template filter : Filter) : Except FilterError Filter :=
  match unwrap? template filter with
  | some part => .ok part
  | none => .error ⟨.missingScope, .root⟩

end FilterSql.Filter
