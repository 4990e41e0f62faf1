import Disassembler.Error

/-!
# Exception tables

An exception table is a sequence of entries of four numbers: the start and the length of the guarded
code and the target of the handler, all in units of two bytes, and the stack depth with a flag in
its lowest bit. A number has six bits a byte, the high ones first; the bit above says that another
byte follows, and the top bit marks the first byte of an entry.

**Results.** `ExceptionTable.parse` reads a table. An error gives the position of the byte in
question, or of the entry or number whose value does not fit sixty-four bits.
-/

namespace Disassembler

/-- Guarded code and its handler. -/
structure ExceptionEntry where
  start : Nat
  stop : Nat
  target : Nat
  depth : Nat
  -- The offset of the failing instruction is pushed too.
  lasti : Bool
deriving DecidableEq, Repr, Inhabited

def ExceptionEntry.text (e : ExceptionEntry) : String :=
  Text.decimal e.start ++ " to " ++ Text.decimal e.stop ++ " -> " ++ Text.decimal e.target ++ " ["
    ++ Text.decimal e.depth ++ "]" ++ (if e.lasti then " lasti" else "")

namespace ExceptionTable

/-- A number, and the position and the bytes after it. -/
structure Reading where
  value : Nat
  position : Nat
  rest : List UInt8
deriving DecidableEq, Repr

def bits (b : UInt8) : Nat :=
  b.toNat % 64

/-- Another byte follows. -/
def continues (b : UInt8) : Bool :=
  b.toNat / 64 % 2 == 1

/-- The byte starts an entry. -/
def startsEntry (b : UInt8) : Bool :=
  128 ≤ b.toNat

/-- The further bytes of a number, whose higher bits have the given value. -/
def varintFrom (position value : Nat) : List UInt8 → Except Error Reading
  | [] => .error (.exceptionTable position)
  | b :: rest =>
    if value * 64 < UInt64.size then
      if continues b then varintFrom (position + 1) (value * 64 + bits b) rest
      else .ok ⟨value * 64 + bits b, position + 1, rest⟩
    else .error (.exceptionTable position)

/-- A number, whose first byte starts an entry or does not. -/
def varint (first : Bool) (position : Nat) : List UInt8 → Except Error Reading
  | [] => .error (.exceptionTable position)
  | b :: rest =>
    if startsEntry b = first then
      if continues b then varintFrom (position + 1) (bits b) rest
      else .ok ⟨bits b, position + 1, rest⟩
    else .error (.exceptionTable position)

/-- A number of units, as a number of bytes. -/
def offset (first : Bool) (position : Nat) (bytes : List UInt8) : Except Error Reading :=
  match varint first position bytes with
  | .error e => .error e
  | .ok r =>
    if r.value * 2 < UInt64.size then .ok { r with value := r.value * 2 }
    else .error (.exceptionTable position)

/-- An entry, and the position and the bytes after it. -/
def readEntry (position : Nat) (bytes : List UInt8) :
    Except Error (ExceptionEntry × Nat × List UInt8) := do
  let start ← offset true position bytes
  let length ← offset false start.position start.rest
  let target ← offset false length.position length.rest
  let last ← varint false target.position target.rest
  if start.value + length.value < UInt64.size then
    return (⟨start.value, start.value + length.value, target.value, last.value / 2,
      last.value % 2 == 1⟩, last.position, last.rest)
  else throw (.exceptionTable position)

section Shrinking

/-- The further bytes of a number leave fewer bytes. -/
theorem varintFrom_length
    {position value : Nat} {bytes : List UInt8} {r : Reading}
    (h : varintFrom position value bytes = .ok r) :
    r.rest.length < bytes.length := by
  induction bytes generalizing position value with
  | nil =>
      cases h
  | cons b rest ih =>
      simp only [varintFrom] at h
      split at h
      · split at h
        · exact Nat.lt_succ_of_lt (ih h)
        · cases h
          simp
      · cases h

/-- A number leaves fewer bytes. -/
theorem varint_length
    {first : Bool} {position : Nat} {bytes : List UInt8} {r : Reading}
    (h : varint first position bytes = .ok r) :
    r.rest.length < bytes.length := by
  cases bytes with
  | nil =>
      cases h
  | cons b rest =>
      simp only [varint] at h
      split at h
      · split at h
        · exact Nat.lt_succ_of_lt (varintFrom_length h)
        · cases h
          simp
      · cases h

/-- An offset leaves fewer bytes. -/
theorem offset_length
    {first : Bool} {position : Nat} {bytes : List UInt8} {r : Reading}
    (h : offset first position bytes = .ok r) :
    r.rest.length < bytes.length := by
  simp only [offset] at h
  split at h
  · cases h
  · rename_i r heq
    split at h
    · cases h
      exact varint_length (r := r) heq
    · cases h

/-- An entry leaves fewer bytes. -/
theorem readEntry_length
    {position next : Nat} {bytes rest : List UInt8} {entry : ExceptionEntry}
    (h : readEntry position bytes = .ok (entry, next, rest)) :
    rest.length < bytes.length := by
  obtain ⟨start, hstart, h⟩ := ok_of_bind h
  obtain ⟨length, hlength, h⟩ := ok_of_bind h
  obtain ⟨target, htarget, h⟩ := ok_of_bind h
  obtain ⟨last, hlast, h⟩ := ok_of_bind h
  have h1 := offset_length hstart
  have h2 := offset_length hlength
  have h3 := offset_length htarget
  have h4 := varint_length hlast
  split at h
  · cases h
    omega
  · cases h

end Shrinking

/-- The entries from a position on. -/
def parseFrom (position : Nat) (bytes : List UInt8) : Except Error (List ExceptionEntry) :=
  match bytes with
  | [] => .ok []
  | b :: rest =>
    match _h : readEntry position (b :: rest) with
    | .error e => .error e
    | .ok (entry, next, rest') =>
      match parseFrom next rest' with
      | .error e => .error e
      | .ok entries => .ok (entry :: entries)
termination_by bytes.length
decreasing_by exact readEntry_length _h

/-- The entries of a table. -/
def parse (bytes : List UInt8) : Except Error (List ExceptionEntry) :=
  parseFrom 0 bytes

end ExceptionTable
end Disassembler
