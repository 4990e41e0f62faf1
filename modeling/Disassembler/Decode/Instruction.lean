import Disassembler.Code.Basic

/-!
# Instructions

**Results.** An `Instruction` is one decoded instruction with its resolved operand. A `Fault` is
what is wrong with the bytecode at an offset; decoding goes on after it where it can.
-/

namespace Disassembler

/-- How the operand of an instruction was resolved. -/
inductive OperandKind where
  | none
  | const
  | name
  | slot
  | free
  | jumpRel
  | jumpAbs
  | compare
  | count
  | cache
deriving DecidableEq, Repr, Inhabited

def OperandKind.text : OperandKind → String
  | .none => "none"
  | .const => "const"
  | .name => "name"
  | .slot => "local"
  | .free => "free"
  | .jumpRel => "jump_rel"
  | .jumpAbs => "jump_abs"
  | .compare => "compare"
  | .count => "count"
  | .cache => "cache"

/-- What an operand stands for. -/
inductive OperandValue where
  | none
  | int (value : Nat)
  | const (value : Constant)
  | name (value : String)
  | names (values : List String)
  | target (offset : Nat)
  | symbol (value : String)
deriving Inhabited

namespace OperandValue

def text : OperandValue → String
  | .none => ""
  | .int n => Text.decimal n
  | .const c => c.text
  | .name s => s
  | .symbol s => s
  | .names values => ", ".intercalate values
  | .target offset => Text.decimal offset

def int? : OperandValue → Option Nat
  | .int n => some n
  | _ => Option.none

def name? : OperandValue → Option String
  | .name s => some s
  | .symbol s => some s
  | _ => Option.none

def const? : OperandValue → Option Constant
  | .const c => some c
  | _ => Option.none

end OperandValue

/-- One decoded instruction. -/
structure Instruction where
  offset : Nat
  opcode : Nat
  opname : String
  arg : Option Nat := none
  value : OperandValue := .none
  repr : String := ""
  hasArg : Bool := false
  hasExtendedArg : Bool := false
  kind : OperandKind := .none
  -- The bytes from the first extension through the operand.
  size : Nat := 1
  isJumpTarget : Bool := false
  startsLine : Option Nat := none
  isCache : Bool := false
  stackEffect : Option Int := none
  -- The offset of the first instruction folded into its expression.
  foldStart : Option Nat := none
  expression : Option String := none
deriving Inhabited

/-- The resolved target of a jump. -/
def Instruction.jumpTarget (i : Instruction) : Option Nat :=
  match i.kind, i.value with
  | .jumpRel, .target t => some t
  | .jumpAbs, .target t => some t
  | _, _ => none

/-- A pool that operands index. -/
inductive Pool where
  | consts
  | names
  | locals
  | free
  | comparisons
deriving DecidableEq, Repr, Inhabited

def Pool.text : Pool → String
  | .consts => "consts"
  | .names => "names"
  | .locals => "locals"
  | .free => "free variables"
  | .comparisons => "comparison operators"

/-- What is wrong with an instruction. -/
inductive Malformed where
  | unknownOpcode (opcode : Nat)
  | truncated (needed remaining : Nat)
  | indexOutOfRange (pool : Pool) (index length : Nat)
  | operandOverflow
  | jumpOutOfRange
deriving DecidableEq, Repr, Inhabited

def Malformed.message : Malformed → String
  | .unknownOpcode opcode => "unknown opcode " ++ Text.decimal opcode
  | .truncated needed remaining =>
    "truncated instruction (needs " ++ Text.decimal needed ++ " bytes, " ++ Text.decimal remaining
      ++ " remaining)"
  | .indexOutOfRange pool index length =>
    pool.text ++ " index " ++ Text.decimal index ++ " out of range (len " ++ Text.decimal length
      ++ ")"
  | .operandOverflow => "operand overflows 64 bits"
  | .jumpOutOfRange => "jump target out of range"

/-- What is wrong with the bytecode at an offset. -/
structure Fault where
  offset : Nat
  problem : Malformed
deriving DecidableEq, Repr, Inhabited

def Fault.message (f : Fault) : String :=
  "malformed bytecode at offset " ++ Text.decimal f.offset ++ ": " ++ f.problem.message

end Disassembler
