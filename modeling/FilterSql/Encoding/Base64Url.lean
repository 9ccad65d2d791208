/-!
# URL-safe base64

Octets as text in the URL-safe alphabet, without padding. Three octets become four characters; one
or two octets at the end become two or three, whose unused low bits are zero. Decoding refuses
every other text, so a sequence of octets has one written form.
-/

namespace FilterSql.Base64Url

/-- The character for six bits. -/
def digit (n : Nat) : Char :=
  if n < 26 then Char.ofNat (n + 'A'.toNat)
  else if n < 52 then Char.ofNat (n - 26 + 'a'.toNat)
  else if n < 62 then Char.ofNat (n - 52 + '0'.toNat)
  else if n = 62 then '-'
  else '_'

/-- The six bits of a character of the alphabet. -/
def value? (c : Char) : Option Nat :=
  if 'A' ≤ c && c ≤ 'Z' then some (c.toNat - 'A'.toNat)
  else if 'a' ≤ c && c ≤ 'z' then some (c.toNat - 'a'.toNat + 26)
  else if '0' ≤ c && c ≤ '9' then some (c.toNat - '0'.toNat + 52)
  else if c = '-' then some 62
  else if c = '_' then some 63
  else none

/-- Octets as groups of six bits. -/
def groups : List UInt8 → List Nat
  | a :: b :: c :: rest =>
    let n := a.toNat * 65536 + b.toNat * 256 + c.toNat
    n / 262144 :: n / 4096 % 64 :: n / 64 % 64 :: n % 64 :: groups rest
  | [a, b] =>
    let n := a.toNat * 256 + b.toNat
    [n / 1024, n / 16 % 64, n % 16 * 4]
  | [a] => [a.toNat / 4, a.toNat % 4 * 16]
  | [] => []

/-- The octets of groups of six bits, if the last group is complete and leaves no bit over. -/
def octets? : List Nat → Option (List UInt8)
  | a :: b :: c :: d :: rest =>
    let n := a * 262144 + b * 4096 + c * 64 + d
    (octets? rest).map fun octets =>
      UInt8.ofNat (n / 65536) :: UInt8.ofNat (n / 256) :: UInt8.ofNat n :: octets
  | [a, b, c] =>
    let n := a * 4096 + b * 64 + c
    if c % 4 = 0 then some [UInt8.ofNat (n / 1024), UInt8.ofNat (n / 4)] else none
  | [a, b] =>
    if b % 16 = 0 then some [UInt8.ofNat ((a * 64 + b) / 16)] else none
  | [_] => none
  | [] => some []

/-- The text of a sequence of octets. -/
def encode (octets : List UInt8) : List Char :=
  (groups octets).map digit

/-- The octets of a text, if it is the text of some. -/
def decode? (text : List Char) : Option (List UInt8) := do
  octets? (← text.mapM value?)

end FilterSql.Base64Url
