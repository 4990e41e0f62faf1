import Disassembler.Error

/-!
# Line numbers in pairs of bytes

Two encodings record line numbers as pairs of a byte increment and a line increment.

**Results.** `lnotabStarts` reads the older one: each pair first moves on in the code, then in the
source, and a start is noted where the line has changed since the last one. `linetableRanges` reads
the newer one, whose line increments have a sign and where the least of them means that a stretch of
code has no line. An error gives the position of the byte in question.
-/

namespace Disassembler
namespace Lines

/-- A stretch of code and its line. -/
structure LineRange where
  start : Nat
  stop : Nat
  line : Option Nat
deriving DecidableEq, Repr, Inhabited

/-- A line number, which has to fit thirty-two bits. -/
def toLine (position : Nat) (line : Int) : Except Error Nat :=
  if 0 ≤ line ∧ line < (UInt32.size : Int) then .ok line.toNat else .error (.lineTable position)

/-- A byte read as a number with sign. -/
def signedByte (b : UInt8) : Int :=
  if b.toNat < 128 then b.toNat else (b.toNat : Int) - 256

/-- The bytes two by two; an odd number of them is refused. -/
def pairs? : List UInt8 → Option (List (UInt8 × UInt8))
  | [] => some []
  | [_] => none
  | a :: b :: rest => (pairs? rest).map ((a, b) :: ·)

/-- The bytes two by two. An odd number of them is an error at the last one. -/
def readPairs (bytes : List UInt8) : Except Error (List (UInt8 × UInt8)) :=
  match pairs? bytes with
  | some pairs => .ok pairs
  | none => .error (.lineTable (bytes.length - 1))

section Lnotab

/-- A line increment, with or without sign. -/
def lineDelta (signed : Bool) (b : UInt8) : Int :=
  if signed then signedByte b else b.toNat

/-- The start at `addr`, when one is due: always if starts may repeat a line, else when the line
differs from that of the last start. -/
def startAt (dupLines : Bool) (last : Option Int) (position addr : Nat) (line : Int) :
    Except Error (Option (Nat × Nat)) :=
  if dupLines || last != some line then
    match toLine position line with
    | .ok l => .ok (some (addr, l))
    | .error e => .error e
  else .ok none

/-- The starts from a pair on. The state is the position of the pair, the address and the line
reached, and the line of the last start. -/
def lnotabFrom (signed dupLines : Bool) (position addr : Nat) (line : Int) (last : Option Int) :
    List (UInt8 × UInt8) → Except Error (List (Nat × Nat))
  | [] =>
    match startAt dupLines last position addr line with
    | .error e => .error e
    | .ok start => .ok start.toList
  | (byteDelta, delta) :: rest =>
    let next := line + lineDelta signed delta
    if byteDelta = 0 then lnotabFrom signed dupLines (position + 2) addr next last rest
    else
      match startAt dupLines last position addr line with
      | .error e => .error e
      | .ok none =>
        lnotabFrom signed dupLines (position + 2) (addr + byteDelta.toNat) next last rest
      | .ok (some start) =>
        match lnotabFrom signed dupLines (position + 2) (addr + byteDelta.toNat) next (some line)
          rest with
        | .error e => .error e
        | .ok starts => .ok (start :: starts)

/-- The starts of lines in the older encoding. -/
def lnotabStarts (signed dupLines : Bool) (firstLine : Nat) (bytes : List UInt8) :
    Except Error (List (Nat × Nat)) :=
  match readPairs bytes with
  | .error e => .error e
  | .ok pairs => lnotabFrom signed dupLines 0 0 firstLine none pairs

end Lnotab

section Linetable

/-- The ranges from a pair on. The state is the position of the pair and the address and the line
reached. A pair without a line increment, without a line or without bytes gives no range. -/
def linetableFrom (position addr : Nat) (line : Int) :
    List (UInt8 × UInt8) → Except Error (List LineRange)
  | [] => .ok []
  | (byteDelta, delta) :: rest =>
    let stop := addr + byteDelta.toNat
    let next := line + signedByte delta
    if delta = 0 ∨ delta = 128 then linetableFrom (position + 2) stop line rest
    else if byteDelta = 0 then linetableFrom (position + 2) stop next rest
    else
      match toLine (position + 1) next with
      | .error e => .error e
      | .ok l =>
        match linetableFrom (position + 2) stop next rest with
        | .error e => .error e
        | .ok ranges => .ok (⟨addr, stop, some l⟩ :: ranges)

/-- The ranges of the newer encoding. -/
def linetableRanges (firstLine : Nat) (bytes : List UInt8) : Except Error (List LineRange) :=
  match readPairs bytes with
  | .error e => .error e
  | .ok pairs => linetableFrom 0 0 firstLine pairs

end Linetable
end Lines
end Disassembler
