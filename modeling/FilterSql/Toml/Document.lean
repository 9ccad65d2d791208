import FilterSql.Toml.Scalar
import FilterSql.Toml.Token

/-!
# TOML documents

A document is a table of tables. A table is defined once, by its header, by dotted keys or in
braces, and a key once in its table; `Toml.read?` refuses everything else. What is read of scalars
is what settings need: truth values and integers as such, of all others that they are well formed.
-/

namespace FilterSql

/-- A value of a document. -/
inductive Toml where
  | bool (value : Bool)
  | integer (value : Int)
  /-- A string, a floating-point number, a date or a time. -/
  | other
  | array (items : List Toml)
  | table (members : List (String × Toml))

namespace Toml

/-- How a table was defined. -/
inductive TableOrigin where
  /-- By its own header. -/
  | header
  /-- By the header of a table inside it. -/
  | outer
  /-- By dotted keys. -/
  | dotted
  deriving DecidableEq

/-- A document while it is read. -/
inductive Draft where
  | value (value : Toml)
  | table (origin : TableOrigin) (members : List (String × Draft))
  /-- The tables of an array of tables, the last one first. -/
  | tables (last : List (String × Draft)) (before : List (List (String × Draft)))

namespace Draft

/-- The member with a name. -/
def get? (name : String) (members : List (String × Draft)) : Option Draft :=
  (members.find? (·.1 = name)).map (·.2)

/-- The members with a name bound to a draft. -/
def put (name : String) (draft : Draft) : List (String × Draft) → List (String × Draft)
  | [] => [(name, draft)]
  | member :: rest =>
    if member.1 = name then (name, draft) :: rest else member :: put name draft rest

/-- The members with a value under a dotted key, each part but the last of which names a table that
only dotted keys define. -/
def putDotted (value : Draft) :
    List String → List (String × Draft) → Option (List (String × Draft))
  | [], _ => none
  | [name], members =>
    match get? name members with
    | none => some (put name value members)
    | some _ => none
  | name :: rest, members =>
    match get? name members with
    | none => (putDotted value rest []).map fun inner => put name (.table .dotted inner) members
    | some (.table origin inner) =>
      if origin = .header || (origin = .outer && rest.length = 1) then none
      else
        (putDotted value rest inner).map fun inner => put name (.table origin inner) members
    | some _ => none

/-- The members with the table at a path changed. Tables on the way that are not there yet are
defined by the way. -/
def change (edit : List (String × Draft) → Option (List (String × Draft))) :
    List String → List (String × Draft) → Option (List (String × Draft))
  | [], members => edit members
  | name :: rest, members =>
    match get? name members with
    | none => (change edit rest []).map fun inner => put name (.table .outer inner) members
    | some (.table origin inner) =>
      (change edit rest inner).map fun inner => put name (.table origin inner) members
    | some (.tables last before) =>
      (change edit rest last).map fun last => put name (.tables last before) members
    | some (.value _) => none

/-- The members with a table that its header defines. -/
def openTable (name : String) (members : List (String × Draft)) :
    Option (List (String × Draft)) :=
  match get? name members with
  | none => some (put name (.table .header []) members)
  | some (.table .outer inner) => some (put name (.table .header inner) members)
  | some _ => none

/-- The members with one more table in an array of tables. -/
def openItem (name : String) (members : List (String × Draft)) :
    Option (List (String × Draft)) :=
  match get? name members with
  | none => some (put name (.tables [] []) members)
  | some (.tables last before) => some (put name (.tables [] (last :: before)) members)
  | some _ => none

mutual

/-- The finished value. -/
def finish : Draft → Toml
  | .value v => v
  | .table _ members => .table (finishMembers members)
  | .tables last before => .array (finishTables before [.table (finishMembers last)])

/-- The finished members of a table. -/
def finishMembers : List (String × Draft) → List (String × Toml)
  | [] => []
  | (name, draft) :: rest => (name, draft.finish) :: finishMembers rest

/-- The finished tables of an array in front of those that are finished already. -/
def finishTables : List (List (String × Draft)) → List Toml → List Toml
  | [], done => done
  | members :: rest, done => finishTables rest (.table (finishMembers members) :: done)

end

end Draft

mutual

/-- A value, in at most `fuel` nested steps. -/
def value? : Nat → List Char → Option (Toml × List Char)
  | 0, _ => none
  | fuel + 1, s =>
    match s with
    | '"' :: _ => (string? s).map fun (_, rest) => (.other, rest)
    | '\'' :: _ => (string? s).map fun (_, rest) => (.other, rest)
    | '[' :: s => (items? fuel (skipBlank s)).map fun (items, rest) => (.array items, rest)
    | '{' :: s =>
      (members? fuel [] (skipBlank s)).map fun (members, rest) =>
        (.table (Draft.finishMembers members), rest)
    | s => do
      match ← scalarAt? s with
      | (.bool b, rest) => return (.bool b, rest)
      | (.integer n, rest) => return (.integer n, rest)
      | (.other, rest) => return (.other, rest)

/-- The items of an array up to its closing bracket. -/
def items? : Nat → List Char → Option (List Toml × List Char)
  | 0, _ => none
  | fuel + 1, s =>
    match s with
    | ']' :: rest => some ([], rest)
    | s => do
      let (item, s) ← value? fuel s
      match skipBlank s with
      | ']' :: rest => return ([item], rest)
      | ',' :: s =>
        let (items, rest) ← items? fuel (skipBlank s)
        return (item :: items, rest)
      | _ => none

/-- The members of a table in braces up to the closing one, added to those before. -/
def members? :
    Nat → List (String × Draft) → List Char → Option (List (String × Draft) × List Char)
  | 0, _, _ => none
  | fuel + 1, members, s =>
    match s with
    | '}' :: rest => some (members, rest)
    | s => do
      let (key, s) ← key? s
      let (value, s) ← value? fuel (skipSpace (← expect? '=' s))
      let members ← Draft.putDotted (.value value) key members
      match skipBlank s with
      | '}' :: rest => return (members, rest)
      | ',' :: s => members? fuel members (skipBlank s)
      | _ => none

end

/-- A header: whether it is that of an array of tables, and its key. -/
def header? (s : List Char) : Option (Bool × List String × List Char) :=
  match s with
  | '[' :: '[' :: s => do
    let (key, s) ← key? (skipSpace s)
    return (true, key, ← expect? ']' (← expect? ']' s))
  | '[' :: s => do
    let (key, s) ← key? (skipSpace s)
    return (false, key, ← expect? ']' s)
  | _ => none

/-- The members of a document with the table of a header opened. -/
def opened? (isArray : Bool) (key : List String) (root : List (String × Draft)) :
    Option (List (String × Draft)) :=
  match key.getLast? with
  | none => none
  | some name =>
    Draft.change (if isArray then Draft.openItem name else Draft.openTable name) key.dropLast root

/-- The members of a document from a line on, in at most `fuel` lines, in the table of the last
header. -/
def documentLines? :
    Nat → List String → List (String × Draft) → List Char → Option (List (String × Draft))
  | 0, _, _, _ => none
  | fuel + 1, header, root, s =>
    match skipBlank s with
    | [] => some root
    | '[' :: rest => do
      let (isArray, key, rest) ← header? ('[' :: rest)
      let root ← opened? isArray key root
      documentLines? fuel key root (← endOfLine? rest)
    | s => do
      let (key, s) ← key? s
      let (value, s) ← value? (s.length + 1) (skipSpace (← expect? '=' s))
      let root ← Draft.change (Draft.putDotted (.value value) key) header root
      documentLines? fuel header root (← endOfLine? s)

/-- The table of a document. -/
def read? (text : String) : Option (List (String × Toml)) :=
  let s :=
    match text.toList with
    | '\uFEFF' :: s => s
    | s => s
  (documentLines? (s.length + 1) [] [] s).map Draft.finishMembers

end Toml

end FilterSql
