import Disassembler.Number.Shortest
import Disassembler.Text.Layout

/-!
# Doubles as decimal texts

**Input.** A double and a `FloatFormat`, which fixes all that is left open by "the fewest digits
that read back": which numbers are written without an exponent, how an exponent looks, and whether a
whole number shows a point.

**Results.** `FloatFormat.write` writes every double; those without a finite value are `nan`, `inf`
and `-inf`.
-/

namespace Disassembler

/-- The decisions of a notation for doubles. -/
structure FloatFormat where
  least : Int
  greatest : Int
  pointZero : Bool
  plusSign : Bool
  exponentWidth : Nat
  tie : Shortest.Tie
deriving Repr

namespace FloatFormat

/-- As many zeros as the argument says. -/
def zeros (n : Nat) : String :=
  String.ofList (List.replicate n '0')

/-- The digits with a point after the first `n` of them. -/
def withPoint (n : Nat) (digits : List Char) : String :=
  String.ofList (digits.take n) ++ "." ++ String.ofList (digits.drop n)

/-- A whole number, with the point that the format asks for. -/
def whole (format : FloatFormat) (digits : String) : String :=
  if format.pointZero then digits ++ ".0" else digits

/-- The decimal `digits * 10 ^ e`, whose first digit stands for `10 ^ x`, without an exponent. -/
def positional (format : FloatFormat) (digits : List Char) (e x : Int) : String :=
  if 0 ≤ e then format.whole (String.ofList digits ++ zeros e.toNat)
  else if 0 ≤ x then withPoint (x.toNat + 1) digits
  else "0." ++ zeros (-x - 1).toNat ++ String.ofList digits

/-- The sign and the digits of an exponent. -/
def exponentText (format : FloatFormat) (x : Int) : String :=
  (if x < 0 then "-" else if format.plusSign then "+" else "")
    ++ Text.padLeftWith '0' format.exponentWidth (Text.decimal x.natAbs)

/-- One digit, a point and the others if there are any, and an exponent. -/
def scientific (format : FloatFormat) (digits : List Char) (x : Int) : String :=
  (if digits.length ≤ 1 then String.ofList digits else withPoint 1 digits)
    ++ "e" ++ format.exponentText x

/-- The size of a finite double. -/
def size (format : FloatFormat) (x : Binary64) : String :=
  if x.isZero then format.whole "0"
  else
    let d := Shortest.shortest format.tie x.magnitude.1 x.magnitude.2
    let digits := Nat.toDigits 10 d.digits
    let top : Int := d.exponent + (digits.length : Int) - 1
    if format.least ≤ top ∧ top ≤ format.greatest then format.positional digits d.exponent top
    else format.scientific digits top

def write (format : FloatFormat) (x : Binary64) : String :=
  if x.isNaN then "nan"
  else (if x.negative then "-" else "") ++ (if x.isInfinite then "inf" else format.size x)

end FloatFormat
end Disassembler
