import Disassembler.Number.Binary64

/-!
# Reading decimal numbers

**Input.** A text of decimal digits with an optional sign, point and exponent.

**Results.** `natural?` reads digits; `unsigned?` allows one plus sign before them. `Scientific` is
the exact value of a decimal text, `toBinary64` the nearest double, and `readFloat?` the reader of
floating-point texts: an optional sign, then digits with at most one point and an exponent, or one
of the words `inf`, `infinity` and `nan` in any letter case.
-/

namespace Disassembler
namespace Decimal

def digit? (c : Char) : Option Nat :=
  if '0' ≤ c ∧ c ≤ '9' then some (c.toNat - '0'.toNat) else none

/-- Reads digits onto a value already read. -/
def readDigits? (value : Nat) : List Char → Option Nat
  | [] => some value
  | c :: rest =>
    match digit? c with
    | some d => readDigits? (value * 10 + d) rest
    | none => none

/-- The value of one or more digits. -/
def natural? : List Char → Option Nat
  | [] => none
  | cs => readDigits? 0 cs

/-- The value of digits after an optional plus sign, when it is below the bound. -/
def unsigned? (bound : Nat) (s : String) : Option Nat :=
  let digits := match s.toList with
    | '+' :: rest => rest
    | cs => cs
  (natural? digits).filter (· < bound)

/-- The value of digits after an optional sign, when it lies from `-bound` to `bound - 1`. -/
def integer? (bound : Nat) (s : String) : Option Int :=
  match s.toList with
  | '-' :: rest => ((natural? rest).filter (· ≤ bound)).map fun n => -(n : Int)
  | '+' :: rest => ((natural? rest).filter (· < bound)).map fun n => (n : Int)
  | cs => ((natural? cs).filter (· < bound)).map fun n => (n : Int)

/-- The exact number `± digits * 10 ^ exponent`. -/
structure Scientific where
  negative : Bool
  -- All digits, read as one natural number.
  digits : Nat
  exponent : Int
deriving DecidableEq, Repr

namespace Scientific

/-- The number of decimal digits of a positive number. -/
def digitCount (n : Nat) : Nat :=
  (Nat.toDigits 10 n).length

/-- The nearest double. A number from `10 ^ 400` on is infinite and one below `10 ^ -400` is zero,
so that no power of ten beyond these is computed. -/
def toBinary64 (x : Scientific) : Binary64 :=
  let scale : Int := (digitCount x.digits : Int) + x.exponent
  if x.digits = 0 then Binary64.ofFields x.negative 0
  else if 400 < scale then Binary64.ofFields x.negative Binary64.infiniteFields
  else if scale < -400 then Binary64.ofFields x.negative 0
  else Binary64.ofRatio x.negative
    (x.digits * Nat.pow 10 x.exponent.toNat) (Nat.pow 10 (-x.exponent).toNat)

end Scientific

/-- An exponent: an optional sign and one or more digits. -/
def exponent? : List Char → Option Int
  | '-' :: rest => (natural? rest).map fun n => -(n : Int)
  | '+' :: rest => (natural? rest).map fun n => (n : Int)
  | cs => (natural? cs).map fun n => (n : Int)

/-- A character that ends the digits before an exponent. -/
def isExponentMark (c : Char) : Bool :=
  c == 'e' || c == 'E'

/-- Digits with at most one point among, before or after them; at least one digit. -/
def mantissa? (cs : List Char) : Option (Nat × Nat) :=
  let whole := cs.takeWhile (· != '.')
  let part := (cs.dropWhile (· != '.')).drop 1
  if (whole ++ part).isEmpty then none
  else (readDigits? 0 (whole ++ part)).map fun n => (n, part.length)

/-- A mantissa and an optional exponent. -/
def scientific? (negative : Bool) (cs : List Char) : Option Scientific :=
  let head := cs.takeWhile fun c => !isExponentMark c
  let power := match cs.dropWhile fun c => !isExponentMark c with
    | [] => some 0
    | _ :: rest => exponent? rest
  match mantissa? head, power with
  | some (digits, places), some e => some ⟨negative, digits, e - (places : Int)⟩
  | _, _ => none

/-- A floating-point number without its sign. -/
def unsignedFloat? (negative : Bool) (cs : List Char) : Option Binary64 :=
  let word := String.ofList (cs.map Char.toLower)
  if word = "inf" ∨ word = "infinity" then some (Binary64.ofFields negative Binary64.infiniteFields)
  else if word = "nan" then
    some (Binary64.ofFields negative Binary64.nanFields)
  else (scientific? negative cs).map Scientific.toBinary64

/-- A floating-point number: an optional sign, then a decimal number or a word for an infinite
number or for none. -/
def readFloat? (s : String) : Option Binary64 :=
  match s.toList with
  | '-' :: rest => unsignedFloat? true rest
  | '+' :: rest => unsignedFloat? false rest
  | cs => unsignedFloat? false cs

end Decimal
end Disassembler
