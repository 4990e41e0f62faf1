import Disassembler.Lines.Pairs

/-!
# Location tables

A location table is a sequence of entries. The first byte of an entry has its top bit set; four bits
below give the form and the low three bits, plus one, the number of code units covered. A form adds
to the line, leaves it or has none, and may be followed by columns, which are read and dropped.
Numbers of variable length have six bits a byte, the low ones first; the bit above says that another
byte follows. A number with sign keeps the sign in its lowest bit.

**Algorithm.** `entries` reads entry by entry up to the end or to the first malformed one;
`rangesFrom` adds up their lines and addresses; `merge` joins neighbours on the same line.

**Results.** `locationRanges` is the list of maximal ranges, or the first error in the order of the
table.
-/

namespace Disassembler
namespace Lines

/-- The rest of a byte sequence and the position where it starts. -/
structure Cursor where
  position : Nat
  rest : List UInt8
deriving DecidableEq, Repr, Inhabited

namespace Cursor

def byte (c : Cursor) : Except Error (UInt8 × Cursor) :=
  match c.rest with
  | [] => .error (.lineTable c.position)
  | b :: rest => .ok (b, ⟨c.position + 1, rest⟩)

/-- The further bytes of a number, whose lower bits have the given value. -/
def varintFrom (position shift value : Nat) : List UInt8 → Except Error (Nat × Cursor)
  | [] => .error (.lineTable position)
  | b :: rest =>
    if 57 < shift then .error (.lineTable position)
    else
      let next := value + (b.toNat % 64) <<< shift
      if b.toNat / 64 % 2 = 1 then varintFrom (position + 1) (shift + 6) next rest
      else .ok (next, ⟨position + 1, rest⟩)

/-- A number of variable length. -/
def varint (c : Cursor) : Except Error (Nat × Cursor) :=
  varintFrom c.position 0 0 c.rest

/-- A number of variable length with sign. -/
def svarint (c : Cursor) : Except Error (Int × Cursor) :=
  match c.varint with
  | .error e => .error e
  | .ok (raw, next) => .ok (if raw % 2 = 1 then -(raw / 2 : Int) else raw / 2, next)

/-- Passes over a number of variable length. -/
def skipVarint (c : Cursor) : Except Error Cursor :=
  match c.varint with
  | .error e => .error e
  | .ok (_, next) => .ok next

def skipByte (c : Cursor) : Except Error Cursor :=
  match c.byte with
  | .error e => .error e
  | .ok (_, next) => .ok next

end Cursor

/-- An entry of a location table, without its columns. -/
structure LocationEntry where
  position : Nat
  units : Nat
  -- What it adds to the line; an entry without a line has none.
  delta : Option Int
deriving DecidableEq, Repr, Inhabited

/-- What follows the first byte of an entry of a form: its line increment, and what is left. -/
def readPayload (form : Nat) (c : Cursor) : Except Error (Option Int × Cursor) :=
  if form = 15 then .ok (none, c)
  else if form = 14 then do
    let (delta, c) ← c.svarint
    let c ← c.skipVarint
    let c ← c.skipVarint
    let c ← c.skipVarint
    return (some delta, c)
  else if form = 13 then do
    let (delta, c) ← c.svarint
    return (some delta, c)
  else if 10 ≤ form then do
    let c ← c.skipByte
    let c ← c.skipByte
    return (some ((form : Int) - 10), c)
  else do
    let c ← c.skipByte
    return (some 0, c)

/-- An entry that starts with the given byte. -/
def readEntry (position : Nat) (header : UInt8) (rest : List UInt8) :
    Except Error (LocationEntry × Cursor) :=
  if header.toNat < 128 then .error (.lineTable position)
  else
    match readPayload (header.toNat / 8 % 16) ⟨position + 1, rest⟩ with
    | .error e => .error e
    | .ok (delta, next) => .ok (⟨position, header.toNat % 8 + 1, delta⟩, next)

section Shrinking

/-- A number leaves fewer bytes than there were. -/
theorem varintFrom_length
    {position shift value : Nat} {bytes : List UInt8} {n : Nat} {c : Cursor}
    (h : Cursor.varintFrom position shift value bytes = .ok (n, c)) :
    c.rest.length < bytes.length := by
  induction bytes generalizing position shift value with
  | nil =>
      simp [Cursor.varintFrom] at h
  | cons b rest ih =>
      simp only [Cursor.varintFrom] at h
      split at h
      · cases h
      · split at h
        · exact Nat.lt_succ_of_lt (ih h)
        · cases h
          simp

/-- Passing over a number leaves fewer bytes. -/
theorem skipVarint_length
    {c next : Cursor}
    (h : c.skipVarint = .ok next) :
    next.rest.length < c.rest.length := by
  simp only [Cursor.skipVarint, Cursor.varint] at h
  split at h
  · cases h
  · rename_i heq
    cases h
    exact varintFrom_length heq

/-- A number with sign leaves fewer bytes. -/
theorem svarint_length
    {c next : Cursor} {n : Int}
    (h : c.svarint = .ok (n, next)) :
    next.rest.length < c.rest.length := by
  simp only [Cursor.svarint, Cursor.varint] at h
  split at h
  · cases h
  · rename_i heq
    cases h
    exact varintFrom_length heq

/-- Passing over a byte leaves fewer bytes. -/
theorem skipByte_length
    {c next : Cursor}
    (h : c.skipByte = .ok next) :
    next.rest.length < c.rest.length := by
  obtain ⟨position, rest⟩ := c
  cases rest with
  | nil =>
      cases h
  | cons b rest =>
      cases h
      simp

/-- What follows the first byte of an entry leaves no more bytes. -/
theorem readPayload_length
    {form : Nat} {c next : Cursor} {delta : Option Int}
    (h : readPayload form c = .ok (delta, next)) :
    next.rest.length ≤ c.rest.length := by
  simp only [readPayload] at h
  split at h
  · cases h
    exact Nat.le_refl _
  split at h
  · obtain ⟨⟨d, c1⟩, h1, h⟩ := ok_of_bind h
    obtain ⟨c2, h2, h⟩ := ok_of_bind h
    obtain ⟨c3, h3, h⟩ := ok_of_bind h
    obtain ⟨c4, h4, h⟩ := ok_of_bind h
    cases h
    have := svarint_length h1
    have : c2.rest.length < c1.rest.length := skipVarint_length h2
    have := skipVarint_length h3
    have := skipVarint_length h4
    omega
  split at h
  · obtain ⟨⟨d, c1⟩, h1, h⟩ := ok_of_bind h
    cases h
    exact Nat.le_of_lt (svarint_length h1)
  split at h
  · obtain ⟨c1, h1, h⟩ := ok_of_bind h
    obtain ⟨c2, h2, h⟩ := ok_of_bind h
    cases h
    have := skipByte_length h1
    have := skipByte_length h2
    omega
  · obtain ⟨c1, h1, h⟩ := ok_of_bind h
    cases h
    exact Nat.le_of_lt (skipByte_length h1)

/-- An entry leaves no more bytes than follow its first one. -/
theorem readEntry_length
    {position : Nat} {header : UInt8} {rest : List UInt8} {entry : LocationEntry} {next : Cursor}
    (h : readEntry position header rest = .ok (entry, next)) :
    next.rest.length ≤ rest.length := by
  simp only [readEntry] at h
  split at h
  · cases h
  · split at h
    · cases h
    · rename_i heq
      cases h
      exact readPayload_length heq

end Shrinking

/-- The entries up to the end or to the first malformed one, and its error. -/
def entries (position : Nat) (bytes : List UInt8) : List LocationEntry × Option Error :=
  match bytes with
  | [] => ([], none)
  | header :: rest =>
    match _h : readEntry position header rest with
    | .error e => ([], some e)
    | .ok (entry, next) =>
      let more := entries next.position next.rest
      (entry :: more.1, more.2)
termination_by bytes.length
decreasing_by exact Nat.lt_succ_of_le (readEntry_length _h)

/-- One range an entry, from an address and a line on. -/
def rangesFrom (addr : Nat) (line : Int) : List LocationEntry → Except Error (List LineRange)
  | [] => .ok []
  | entry :: rest =>
    let stop := addr + 2 * entry.units
    match entry.delta with
    | none =>
      match rangesFrom stop line rest with
      | .error e => .error e
      | .ok ranges => .ok (⟨addr, stop, none⟩ :: ranges)
    | some delta =>
      match toLine entry.position (line + delta) with
      | .error e => .error e
      | .ok l =>
        match rangesFrom stop (line + delta) rest with
        | .error e => .error e
        | .ok ranges => .ok (⟨addr, stop, some l⟩ :: ranges)

/-- Joins neighbours that touch and have the same line, or both none. -/
def merge : List LineRange → List LineRange
  | [] => []
  | r :: rest =>
    match merge rest with
    | [] => [r]
    | s :: more =>
      if r.line = s.line ∧ r.stop = s.start then ⟨r.start, s.stop, r.line⟩ :: more
      else r :: s :: more

/-- The ranges of a location table. -/
def locationRanges (firstLine : Nat) (bytes : List UInt8) : Except Error (List LineRange) :=
  let read := entries 0 bytes
  match rangesFrom 0 firstLine read.1 with
  | .error e => .error e
  | .ok ranges =>
    match read.2 with
    | some e => .error e
    | none => .ok (merge ranges)

end Lines
end Disassembler
