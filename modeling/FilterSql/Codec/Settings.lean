import FilterSql.Codec.Record
import FilterSql.Settings
import FilterSql.Toml.Document

/-!
# Settings in documents

Settings are read from JSON and from TOML by the same rules: a setting that is not named keeps its
default, one that is unknown is refused, and a group of settings may also be a list of its settings
in order. `SettingsTree` is what the two formats have in common.
-/

namespace FilterSql

/-- A document as far as settings can tell. -/
inductive SettingsTree where
  | null
  | flag (value : Bool)
  /-- An unsigned 64-bit integer. -/
  | count (value : Nat)
  /-- A value that no setting has. -/
  | foreign
  | list (items : List SettingsTree)
  | group (members : List (String × SettingsTree))

namespace SettingsTree

mutual

/-- The document of a JSON text. -/
def ofSource : Json.Source → SettingsTree
  | .null => .null
  | .bool b => .flag b
  | .number text =>
    match Json.Source.countValue? (.number text) with
    | some n => .count n
    | none => .foreign
  | .string _ => .foreign
  | .array items => .list (ofItems items)
  | .object members =>
    match ofMembers? members with
    | some members => .group members
    | none => .foreign

/-- The documents of the items of a JSON array. -/
def ofItems : List Json.Source → List SettingsTree
  | [] => []
  | item :: rest => ofSource item :: ofItems rest

/-- The documents of the members of a JSON object. -/
def ofMembers? : List (List Char × Json.Source) → Option (List (String × SettingsTree))
  | [] => some []
  | (name, value) :: rest => do
    let name ← Json.stringOf? name
    return (name, ofSource value) :: (← ofMembers? rest)

end

mutual

/-- The document of a TOML value. -/
def ofToml : Toml → SettingsTree
  | .bool b => .flag b
  | .integer n => if 0 ≤ n ∧ n < UInt64.size then .count n.toNat else .foreign
  | .other => .foreign
  | .array items => .list (ofTomlItems items)
  | .table members => .group (ofTomlMembers members)

/-- The documents of the items of a TOML array. -/
def ofTomlItems : List Toml → List SettingsTree
  | [] => []
  | item :: rest => ofToml item :: ofTomlItems rest

/-- The documents of the members of a TOML table. -/
def ofTomlMembers : List (String × Toml) → List (String × SettingsTree)
  | [] => []
  | (name, value) :: rest => (name, ofToml value) :: ofTomlMembers rest

end

/-- A document as a record. -/
def record? : SettingsTree → Option (RecordText SettingsTree)
  | .group members => some (.named members)
  | .list items => some (.listed items)
  | _ => none

/-- A document with every list cut to a length. -/
def cut (length : Nat) : SettingsTree → SettingsTree
  | .list items => .list (items.take length)
  | tree => tree

/-- The fields of a group of settings. With `cutsLists` the items behind the last setting of a list
are passed over. -/
def fields? (cutsLists : Bool) (names : List String) (tree : SettingsTree) :
    Option (List (Option SettingsTree)) := do
  (← (if cutsLists then tree.cut names.length else tree).record?).fields? ⟨names, false, true⟩

/-- The count of a setting, or its default. -/
def countOr (default : Nat) : Option SettingsTree → Option Nat
  | none => some default
  | some (.count n) => some n
  | some _ => none

/-- The truth value of a setting, or its default. -/
def flagOr (default : Bool) : Option SettingsTree → Option Bool
  | none => some default
  | some (.flag b) => some b
  | some _ => none

/-- The count of a setting that may be absent. -/
def countOrNone : Option SettingsTree → Option (Option Nat)
  | none => some none
  | some .null => some none
  | some (.count n) => some (some n)
  | some _ => none

end SettingsTree

namespace Limits

/-- The names of the limits. -/
def names : List String :=
  ["max_in_values", "max_depth", "max_limit", "default_limit", "query_timeout_ms"]

/-- The limits of a group of settings. -/
def ofTree? (cutsLists : Bool) (tree : SettingsTree) : Option Limits := do
  let d : Limits := {}
  match ← tree.fields? cutsLists names with
  | [maxValues, maxDepth, maxPage, defaultPage, timeout] =>
    return {
      maxValues := ← SettingsTree.countOr d.maxValues maxValues
      maxDepth := ← SettingsTree.countOr d.maxDepth maxDepth
      maxPage := ← SettingsTree.countOr d.maxPage maxPage
      defaultPage := ← SettingsTree.countOr d.defaultPage defaultPage
      timeout := ← SettingsTree.countOrNone timeout }
  | _ => none

/-- Limits in JSON. -/
def toJson (l : Limits) : Json :=
  .object [
    ("max_in_values", .int l.maxValues), ("max_depth", .int l.maxDepth),
    ("max_limit", .int l.maxPage), ("default_limit", .int l.defaultPage),
    ("query_timeout_ms", match l.timeout with | some ms => .int ms | none => .null)]

end Limits

namespace Diagnostics

/-- The names of the settings on slow statements. -/
def names : List String :=
  ["slow_query_threshold_ms", "explain_slow_queries"]

/-- What is recorded of slow statements by a group of settings. -/
def ofTree? (cutsLists : Bool) (tree : SettingsTree) : Option Diagnostics := do
  let d : Diagnostics := {}
  match ← tree.fields? cutsLists names with
  | [slowFrom, explainSlow] =>
    return {
      slowFrom := ← SettingsTree.countOr d.slowFrom slowFrom
      explainSlow := ← SettingsTree.flagOr d.explainSlow explainSlow }
  | _ => none

/-- The settings on slow statements in JSON. -/
def toJson (d : Diagnostics) : Json :=
  .object [
    ("slow_query_threshold_ms", .int d.slowFrom), ("explain_slow_queries", .bool d.explainSlow)]

end Diagnostics

namespace Settings

/-- The settings of a document. -/
def ofTree? (cutsLists : Bool) (tree : SettingsTree) : Option Settings := do
  match ← tree.fields? cutsLists ["compiler", "diagnostics"] with
  | [limits, diagnostics] =>
    return {
      limits := ← (match limits with
        | some group => Limits.ofTree? cutsLists group
        | none => some {})
      diagnostics := ← (match diagnostics with
        | some group => Diagnostics.ofTree? cutsLists group
        | none => some {}) }
  | _ => none

/-- The settings that a JSON text stands for. -/
def ofSource? (s : Json.Source) : Option Settings :=
  ofTree? false (.ofSource s)

/-- The settings of a TOML document. -/
def ofToml? (text : String) : Option Settings := do
  ofTree? true (.group (SettingsTree.ofTomlMembers (← Toml.read? text)))

/-- Settings in JSON. -/
def toJson (s : Settings) : Json :=
  .object [("compiler", s.limits.toJson), ("diagnostics", s.diagnostics.toJson)]

end Settings

end FilterSql
