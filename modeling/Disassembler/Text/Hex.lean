/-!
# Bytes as hexadecimal text

**Results.** `encode` writes two lower-case digits a byte. `decode?` reads digits of either case and
passes over blanks, tabs, line feeds, form feeds and carriage returns anywhere; it refuses any other
character and an odd number of digits. `decode?_encode` says that reading undoes writing.
-/

namespace Disassembler
namespace Text
namespace Hex

/-- The lower-case digits by value. -/
def digits : List Char :=
  ['0', '1', '2', '3', '4', '5', '6', '7', '8', '9', 'a', 'b', 'c', 'd', 'e', 'f']

/-- The lower-case digit of a value below sixteen. -/
def digit (n : Nat) : Char :=
  digits.getD n '?'

/-- The value of a digit of either case. -/
def value? (c : Char) : Option Nat :=
  digits.findIdx? (· == c.toLower)

/-- Two lower-case digits a byte. -/
def encodeChars : List UInt8 → List Char
  | [] => []
  | b :: rest => digit (b.toNat / 16) :: digit (b.toNat % 16) :: encodeChars rest

/-- Reads pairs of digits with nothing between them. -/
def decodeChars? : List Char → Option (List UInt8)
  | [] => some []
  | [_] => none
  | high :: low :: rest =>
    match value? high, value? low, decodeChars? rest with
    | some h, some l, some bytes => some (UInt8.ofNat (h * 16 + l) :: bytes)
    | _, _, _ => none

/-- The separators that may stand anywhere between digits. -/
def isSeparator (c : Char) : Bool :=
  c == ' ' || c == '\t' || c == '\n' || c == '\x0c' || c == '\r'

def encode (bytes : List UInt8) : String :=
  String.ofList (encodeChars bytes)

/-- The bytes that a text of digits and separators spells. -/
def decode? (s : String) : Option (List UInt8) :=
  decodeChars? (s.toList.filter fun c => !isSeparator c)

section RoundTrip

/-- A digit has the value that it was written for, and separates nothing. -/
theorem value?_digit
    {n : Nat}
    (h : n < 16) :
    value? (digit n) = some n ∧ isSeparator (digit n) = false := by
  revert n
  decide

/-- Reading pairs of digits undoes writing them. -/
theorem decodeChars?_encodeChars
    (bytes : List UInt8) :
    decodeChars? (encodeChars bytes) = some bytes := by
  induction bytes with
  | nil =>
      rfl
  | cons b rest ih =>
      have hb : b.toNat < 256 := b.toNat_lt
      have high := (value?_digit (show b.toNat / 16 < 16 by omega)).1
      have low := (value?_digit (show b.toNat % 16 < 16 by omega)).1
      have whole : b.toNat / 16 * 16 + b.toNat % 16 = b.toNat := by omega
      simp [encodeChars, decodeChars?, high, low, ih, whole]

/-- Written bytes have no separators. -/
theorem filter_encodeChars
    (bytes : List UInt8) :
    (encodeChars bytes).filter (fun c => !isSeparator c) = encodeChars bytes := by
  induction bytes with
  | nil =>
      rfl
  | cons b rest ih =>
      have hb : b.toNat < 256 := b.toNat_lt
      have high := (value?_digit (show b.toNat / 16 < 16 by omega)).2
      have low := (value?_digit (show b.toNat % 16 < 16 by omega)).2
      simp [encodeChars, high, low, ih]

/-- Reading undoes writing. -/
theorem decode?_encode
    (bytes : List UInt8) :
    decode? (encode bytes) = some bytes := by
  simp only [decode?, encode, String.toList_ofList, filter_encodeChars]
  exact decodeChars?_encodeChars bytes

end RoundTrip
end Hex
end Text
end Disassembler
