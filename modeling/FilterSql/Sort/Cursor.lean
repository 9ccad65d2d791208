import FilterSql.Codec.Operand
import FilterSql.Encoding.Base64Url
import FilterSql.Sort.Schema

/-!
# Cursors

A cursor is the position of a row in an order: the values of the row for the keys of the order. Its
token is the JSON object of the values in URL-safe base64. Tokens come back from callers, who can
read and forge them, so `Cursor.decode` limits their size and takes nothing on trust.
-/

namespace FilterSql

/-- A position in an order. -/
structure Cursor where
  fields : List (String × Operand)

/-- What is wrong with a token, or with a cursor for an order. -/
inductive CursorError where
  | invalidBase64
  | invalidFormat
  | tooLarge
  | tooManyFields
  /-- The keys of the order, and those of the cursor. -/
  | keyMismatch (expected found : List String)
  deriving DecidableEq

namespace CursorError

/-- The error in words. -/
def message : CursorError → String
  | invalidBase64 => "invalid base64 encoding in cursor"
  | invalidFormat => "invalid cursor format (expected JSON object)"
  | tooLarge => "cursor exceeds maximum size (4KB limit)"
  | tooManyFields => "cursor has too many fields (max 16)"
  | keyMismatch expected found =>
    "cursor keys [" ++ Text.join ", " found ++ "] do not match sort keys [" ++
      Text.join ", " expected ++ "]"

/-- The name of the kind of error. -/
def name : CursorError → String
  | invalidBase64 => "InvalidBase64"
  | invalidFormat => "InvalidFormat"
  | tooLarge => "TooLarge"
  | tooManyFields => "TooManyFields"
  | keyMismatch _ _ => "KeyMismatch"

/-- Whether the token is damaged. -/
def isFormatError : CursorError → Bool
  | invalidBase64 => true
  | invalidFormat => true
  | _ => false

/-- Whether a limit is exceeded. -/
def isLimitError : CursorError → Bool
  | tooLarge => true
  | tooManyFields => true
  | _ => false

end CursorError

namespace Cursor

/-- The cursor without fields. -/
def empty : Cursor := ⟨[]⟩

instance : Inhabited Cursor := ⟨empty⟩

/-- The octets that a token may have. -/
def maxSize : Nat := 4096

/-- The fields that a cursor may have. -/
def maxFields : Nat := 16

/-- Whether two lists hold equal fields in turn. -/
def sameFields : List (String × Operand) → List (String × Operand) → Bool
  | [], [] => true
  | (a, v) :: as, (b, w) :: bs => a == b && v.same w && sameFields as bs
  | _, _ => false

/-- Whether two cursors are equal; one that holds a NaN differs from itself. -/
def same (a b : Cursor) : Bool :=
  sameFields a.fields b.fields

instance : BEq Cursor := ⟨same⟩

/-- The position of a row in an order. -/
def ofRow {Row : Type} (s : SortSchema Row) (row : Row) (sort : List SortTerm) :
    Except SortError Cursor := do
  return ⟨← s.values row sort⟩

/-- A cursor as a JSON object with its fields in order. -/
def toJson (cursor : Cursor) : Json :=
  .object (cursor.fields.map fun (key, value) => (key, value.toJson))

/-- The token of a cursor. -/
def encode (cursor : Cursor) : String :=
  String.ofList (Base64Url.encode cursor.toJson.text.toUTF8.toList)

/-- The fields of the members of an object. -/
def ofMembers : List (String × Json) → Except CursorError (List (String × Operand))
  | [] => .ok []
  | (key, value) :: rest => do
    match Operand.ofJson? value with
    | some operand => return (key, operand) :: (← ofMembers rest)
    | none => .error .invalidFormat

/-- The members of the JSON object that some octets hold. -/
def members? (octets : List UInt8) : Option (List (String × Json)) := do
  let text ← String.fromUTF8? ⟨octets.toArray⟩
  match ← Json.read? text with
  | .object members => some members
  | _ => none

/-- The cursor of a token. -/
def decode (token : String) : Except CursorError Cursor :=
  if maxSize < token.utf8ByteSize then .error .tooLarge
  else
    match Base64Url.decode? token.toList with
    | none => .error .invalidBase64
    | some octets =>
      match members? octets with
      | none => .error .invalidFormat
      | some members =>
        if maxFields < members.length then .error .tooManyFields
        else (ofMembers members).map (⟨·⟩)

/-- The values of a cursor for the keys of an order, which have to be its own. -/
def valuesFor (cursor : Cursor) (sort : List SortTerm) : Except CursorError (List Operand) :=
  if cursor.fields.map (·.1) = sort.map (·.key) then .ok (cursor.fields.map (·.2))
  else .error (.keyMismatch (sort.map (·.key)) (cursor.fields.map (·.1)))

end Cursor

end FilterSql
