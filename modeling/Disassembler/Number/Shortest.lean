import Disassembler.Number.Binary64

/-!
# The shortest digits that read back

Every positive double is the nearest double to all numbers of an interval around it, whose ends
belong to it when the significand is even. `shortest` looks for the least number of digits with
which a decimal number lies in this interval. On the grid of decimals with `n` digits only the two
neighbours of the value can be the nearest ones in the interval; when both lie in it the nearer one
is taken, and a tie is decided by the caller.
-/

namespace Disassembler
namespace Shortest

/-- Which of two equally near decimals is taken. -/
inductive Tie where
  | up
  | even
deriving DecidableEq, Repr

/-- A positive rational interval with a distinguished point, over a common denominator. -/
structure Interval where
  low : Nat
  value : Nat
  high : Nat
  den : Nat
  closed : Bool
deriving Repr

/-- The numbers that round to the double of significand `m` and exponent `q`. -/
def Interval.ofMagnitude (m q : Nat) : Interval :=
  let below := if m = Binary64.fractions ∧ 1 < q then 1 else 2
  let up := q - 1077
  ⟨(4 * m - below) <<< up, (4 * m) <<< up, (4 * m + 2) <<< up, 1 <<< (1077 - q), m % 2 == 0⟩

/-- The number `num / den` lies in the interval. -/
def Interval.contains (i : Interval) (num den : Nat) : Bool :=
  if i.closed then i.low * den ≤ num * i.den && num * i.den ≤ i.high * den
  else i.low * den < num * i.den && num * i.den < i.high * den

/-- The decimal number `digits * 10 ^ exponent`. -/
structure Digits where
  digits : Nat
  exponent : Int
deriving DecidableEq, Repr

/-- The same number without a zero at the end of its digits. -/
def Digits.dropZero (d : Digits) : Digits :=
  if d.digits % 10 = 0 then ⟨d.digits / 10, d.exponent + 1⟩ else d

/-- The decimal with exponent `e` that lies in the interval and is nearest to its point. -/
def onGrid (tie : Tie) (i : Interval) (e : Int) : Option Digits :=
  let up := Nat.pow 10 e.toNat
  let down := Nat.pow 10 (-e).toNat
  let lower := i.value * down / (i.den * up)
  let remainder := i.value * down % (i.den * up)
  let lowerIn := i.contains (lower * up) down
  let upperIn := i.contains ((lower + 1) * up) down
  let takeUpper := match compare (2 * remainder) (i.den * up) with
    | .lt => false
    | .gt => true
    | .eq => match tie with
      | .up => true
      | .even => lower % 2 == 1
  match lowerIn, upperIn with
  | true, true => some ⟨if takeUpper then lower + 1 else lower, e⟩
  | true, false => some ⟨lower, e⟩
  | false, true => some ⟨lower + 1, e⟩
  | false, false => none

/-- Tries the grids in order. -/
def firstOnGrid (tie : Tie) (i : Interval) : List Int → Option Digits
  | [] => none
  | e :: rest => (onGrid tie i e).or (firstOnGrid tie i rest)

/-- The exponent `p` with `10 ^ (p - 1) ≤ num / den < 10 ^ p`. -/
def pointPosition (num den : Nat) : Int :=
  let estimate : Int := ((Nat.toDigits 10 num).length : Int) - ((Nat.toDigits 10 den).length : Int)
  if num * Nat.pow 10 (-estimate).toNat < den * Nat.pow 10 estimate.toNat then estimate
  else estimate + 1

/-- The shortest decimal that reads back as the positive double of significand `m` and exponent `q`.
Seventeen digits always do, so the point itself is never needed. -/
def shortest (tie : Tie) (m q : Nat) : Digits :=
  let i := Interval.ofMagnitude m q
  let p := pointPosition i.value i.den
  let grids : List Int := (List.range 17).map fun n : Nat => p - 1 - (n : Int)
  ((firstOnGrid tie i grids).getD ⟨i.value, 0⟩).dropZero

end Shortest
end Disassembler
