import Disassembler.Decode.Instruction
import Disassembler.Table.Basic
import Disassembler.Text.Affix

/-!
# Values left by earlier instructions

Folding goes through the instructions once, from the first to the last, and looks back at the
instructions already seen, each with its note. What is seen is kept last first, so that a place in
it is a suffix of the list: an instruction and all that came before it.

**Results.** `valueAt` is the value that an instruction leaves on the stack, with the place where
the instructions that contribute to it begin. `operandsFrom` collects the values that lie below each
other on the stack, jumping over all that contributes to each. A value is never taken from an
instruction that a jump leads to, since another branch may reach it with another stack. Room for all
the values is made before the first one is looked for, and there is room for `capacity` of them.
-/

namespace Disassembler

/-- What folding finds out about an instruction. -/
structure Note where
  expression : Option String := none
  start : Option Nat := none
  -- The text to be shown; where operands are missing it is no expression.
  display : Option String := none
deriving DecidableEq, Repr, Inhabited

namespace Fold

/-- An instruction with its note. -/
structure Noted where
  instruction : Instruction
  note : Note
deriving Inhabited

/-- The instructions already seen, the last one first. -/
abbrev Past := List Noted

/-- The past without the cache words at its end. -/
def skipCaches (past : Past) : Past :=
  past.dropWhile fun p => p.instruction.isCache

/-- Why no value is found. -/
inductive Miss where
  | jumpTarget
  | unusable
deriving DecidableEq, Repr

/-- A value found on the stack. -/
structure Value where
  text : String
  grouped : Bool
  source : Noted
  first : Noted
  -- What was seen before the first instruction that contributes to the value.
  before : Past

namespace Value

/-- The text inside another expression: an operator expression stands in parentheses. -/
def operand (v : Value) : String :=
  if v.grouped then "(" ++ v.text ++ ")" else v.text

/-- The offset of the first instruction that contributes to the value. -/
def start (v : Value) : Nat :=
  v.first.instruction.offset

/-- Only the instruction that leaves the value contributes to it. -/
def isAtom (v : Value) : Bool :=
  v.start == v.source.instruction.offset

end Value

/-- The text of a value without the marks of a duplication. -/
def unwrap (text : String) : String :=
  let inner (opening : String) := (Text.afterStart? opening text).bind (Text.beforeEnd? ") ")
  ((inner "push(").or (inner "copy(")).getD text

/-- The rule that an instruction is folded by. -/
def ruleOf (t : Table) (i : Instruction) : Option FoldRule :=
  (t.info i.opcode).bind (·.fold)

/-- The place of the first instruction that contributes to the value of `p`, before which `rest` was
seen: that of the instruction at the noted start, or of `p` itself when there is none. -/
def origin (p : Noted) (rest : Past) : Noted × Past :=
  match p.note.start with
  | none => (p, rest)
  | some offset =>
    match (p :: rest).dropWhile fun q => q.instruction.offset != offset with
    | [] => (p, rest)
    | q :: before => (q, before)

/-- The opcode takes nothing from the stack and leaves something. -/
def isLeaf (t : Table) (opcode : Nat) : Bool :=
  match t.info opcode with
  | some info => info.pop == 0 && 0 < info.push
  | none => false

/-- The value that the instruction of `p` leaves on the stack. -/
def valueAt (t : Table) (p : Noted) (rest : Past) : Except Miss Value :=
  if p.instruction.isJumpTarget then .error .jumpTarget
  else
    match p.note.expression with
    | some text =>
      let place := origin p rest
      .ok {
        text := unwrap text
        grouped := ((ruleOf t p.instruction).map FoldRule.isOperator).getD false
        source := p
        first := place.1
        before := place.2 }
    | none =>
      if isLeaf t p.instruction.opcode && p.instruction.repr != ""
          && t.operators.contains p.instruction.opcode then
        .ok {
          text := p.instruction.repr
          grouped := false
          source := p
          first := p
          before := rest }
      else .error .unusable

/-- Values below each other on the stack. -/
structure Operands where
  values : List Value
  miss : Option Miss
  -- What was seen before all that contributes to them.
  before : Past

/-- The most values that there is room for: one takes 48 bytes, and all of them together at most
`2 ^ 63 - 1`. -/
def capacity : Nat :=
  0x7fffffffffffffff / 48

/-- Up to `n` values from the end of the past on. -/
def operandsFrom (t : Table) (past : Past) : Nat → Operands
  | 0 => ⟨[], none, past⟩
  | n + 1 =>
    match skipCaches past with
    | [] => ⟨[], some .unusable, []⟩
    | p :: rest =>
      match valueAt t p rest with
      | .error miss => ⟨[], some miss, p :: rest⟩
      | .ok v =>
        let more := operandsFrom t v.before n
        ⟨v :: more.values, more.miss, more.before⟩

namespace Operands

/-- All values were found. -/
def complete (ops : Operands) : Bool :=
  ops.miss.isNone

/-- The offset of the first instruction that contributes to any of the values. -/
def start? (ops : Operands) : Option Nat :=
  ops.values.getLast?.map Value.start

/-- The texts of `n` values in the order of the source, with dots for the missing ones. -/
def texts (ops : Operands) (n : Nat) (text : Value → String) : List String :=
  (ops.values.map text ++ List.replicate (n - ops.values.length) "...").reverse

/-- The texts of `n` values. -/
def padded (ops : Operands) (n : Nat) : List String :=
  ops.texts n Value.text

/-- The texts of `n` values, with operator expressions in parentheses. -/
def grouped (ops : Operands) (n : Nat) : List String :=
  ops.texts n Value.operand

end Operands
end Fold
end Disassembler
