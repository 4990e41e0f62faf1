/-!
# Double-precision numbers

A double is its sixty-four bits: a sign, eleven bits of biased exponent and fifty-two bits of
fraction.

**Results.** `isNaN`, `isInfinite`, `isZero` and `isFinite` sort the bit patterns. `magnitude` gives
a finite double as `m * 2 ^ (q - 1075)`. `ofRatio` is the double nearest to a quotient of natural
numbers; of two nearest it is the one with the even fraction, and what is too large is infinite.
-/

namespace Disassembler

/-- A double-precision number, by its bit pattern. -/
structure Binary64 where
  -- Sign, biased exponent and fraction, from the top bit down.
  bits : UInt64
deriving DecidableEq, Repr, Inhabited

namespace Binary64

/-- The number of fractions, `2 ^ 52`. -/
abbrev fractions : Nat :=
  0x10000000000000

/-- The value of the sign bit, `2 ^ 63`. -/
abbrev signBit : Nat :=
  0x8000000000000000

def negative (x : Binary64) : Bool :=
  signBit ≤ x.bits.toNat

def biased (x : Binary64) : Nat :=
  x.bits.toNat / fractions % 2048

def fraction (x : Binary64) : Nat :=
  x.bits.toNat % fractions

/-- The double with the given sign and the given exponent and fraction fields. -/
def ofFields (negative : Bool) (fields : Nat) : Binary64 :=
  ⟨UInt64.ofNat ((if negative then signBit else 0) + fields)⟩

/-- The fields of the infinite doubles. -/
def infiniteFields : Nat :=
  2047 * fractions

/-- The fields of the doubles that are not a number. -/
def nanFields : Nat :=
  infiniteFields + fractions / 2

def infinity : Binary64 :=
  ofFields false infiniteFields

def negInfinity : Binary64 :=
  ofFields true infiniteFields

/-- The double that is not a number. -/
def nan : Binary64 :=
  ofFields false nanFields

def isNaN (x : Binary64) : Bool :=
  x.biased == 2047 && x.fraction != 0

def isInfinite (x : Binary64) : Bool :=
  x.biased == 2047 && x.fraction == 0

def isFinite (x : Binary64) : Bool :=
  x.biased != 2047

def isZero (x : Binary64) : Bool :=
  x.biased == 0 && x.fraction == 0

/-- The integer significand and the exponent of a finite double: its size is
`m * 2 ^ (q - 1075)`. -/
def magnitude (x : Binary64) : Nat × Nat :=
  if x.biased = 0 then (x.fraction, 1) else (fractions + x.fraction, x.biased)

/-- The quotient rounded to the nearest natural number, a half to the even one. -/
def roundDiv (num den : Nat) : Nat :=
  let q := num / den
  let r := num % den
  if 2 * r < den then q else if den < 2 * r then q + 1 else q + q % 2

/-- The exponent `e` with `2 ^ e ≤ num / den < 2 ^ (e + 1)`, for positive `num` and `den`. -/
def logRatio (num den : Nat) : Int :=
  let e : Int := (Nat.log2 num : Int) - (Nat.log2 den : Int)
  if num <<< (-e).toNat < den <<< e.toNat then e - 1 else e

/-- The fields of the double nearest to `num / den`. -/
def nearestFields (num den : Nat) : Nat :=
  if num = 0 then 0
  else
    let q : Int := max (logRatio num den - 52) (-1074)
    let m := roundDiv (num <<< (-q).toNat) (den <<< q.toNat)
    let fields := if m < fractions then m else (q + 1075).toNat * fractions + (m - fractions)
    min fields infiniteFields

/-- The double nearest to `num / den`, with the given sign. -/
def ofRatio (negative : Bool) (num den : Nat) : Binary64 :=
  ofFields negative (nearestFields num den)

/-- The double nearest to an integer. -/
def ofInt (n : Int) : Binary64 :=
  ofRatio (n < 0) n.natAbs 1

end Binary64
end Disassembler
