/-
# Waitset.Bytes -- byte strings, their hexadecimal text and their fingerprint

What streams carry and operations own.  `Bytes.digest` is how a byte string is shown to people: as
hexadecimal digits while it is short, and as its length with a fingerprint once it is not.
-/

namespace Waitset

/-- A string of bytes. -/
abbrev Bytes := List UInt8

namespace Bytes

/-- No block of memory has as many bytes. -/
def blockLimit : Nat := Nat.pow 2 63

/-- The lower-case hexadecimal digit of a number below sixteen. -/
def digit (n : Nat) : Char :=
  if n < 10 then Char.ofNat (48 + n) else Char.ofNat (87 + n)

/-- Two hexadecimal digits, the high one first. -/
def hexOfByte (b : UInt8) : List Char := [digit (b.toNat / 16), digit (b.toNat % 16)]

/-- Two lower-case hexadecimal digits a byte. -/
def hex (bytes : Bytes) : String := String.ofList (bytes.flatMap hexOfByte)

/-- The value of a hexadecimal digit; letters may be small or capital. -/
def digitValue? (c : Char) : Option Nat :=
  if '0' ≤ c ∧ c ≤ '9' then some (c.toNat - 48)
  else if 'a' ≤ c ∧ c ≤ 'f' then some (c.toNat - 87)
  else if 'A' ≤ c ∧ c ≤ 'F' then some (c.toNat - 55)
  else none

/-- Reads pairs of hexadecimal digits, behind the bytes that have been read. -/
def ofHexDigits? (read : Bytes) : List Char → Option Bytes
  | [] => some read.reverse
  | [_] => none
  | hi :: lo :: rest =>
    match digitValue? hi, digitValue? lo with
    | some h, some l => ofHexDigits? (UInt8.ofNat (h * 16 + l) :: read) rest
    | _, _ => none

/-- Reads what `hex` writes, and its digits in capitals too. -/
def ofHex? (text : String) : Option Bytes := ofHexDigits? [] text.toList

/-- The 64-bit Fowler-Noll-Vo fingerprint: each byte is combined by exclusive or, then the sum is
multiplied by the prime, modulo `2 ^ 64`. -/
def fingerprint (bytes : Bytes) : UInt64 :=
  bytes.foldl (fun h b => (h ^^^ b.toUInt64) * 0x100000001b3) 0xcbf29ce484222325

/-- Sixteen hexadecimal digits of a 64-bit word. -/
def hexOfWord (w : UInt64) : String :=
  String.ofList ((List.range 16).map fun i => digit ((w.toNat / Nat.pow 16 (15 - i)) % 16))

/-- The number that hexadecimal digits stand for, the highest digit first. -/
def numberOfDigits (digits : List Nat) : Nat := digits.foldl (fun n d => n * 16 + d) 0

/-- Reads hexadecimal digits as a 64-bit word: at least one, and no more than fit. -/
def wordOfHex? (text : String) : Option UInt64 :=
  match text.toList.mapM digitValue? with
  | none | some [] => none
  | some digits =>
    if numberOfDigits digits < Nat.pow 2 64 then some (UInt64.ofNat (numberOfDigits digits)) else none

/-- Up to 512 bytes are shown in full; a longer string is shown by length and fingerprint. -/
def digest (bytes : Bytes) : String :=
  if bytes.length ≤ 512 then hex bytes
  else "len:" ++ toString bytes.length ++ ":fnv:" ++ hexOfWord (fingerprint bytes)

end Bytes

end Waitset
