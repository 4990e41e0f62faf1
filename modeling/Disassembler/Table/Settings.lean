/-!
# How a table lays out code

**Results.** `Settings` holds what all instructions of a table share. `OperandEncoding` says how one
opcode packs its operand, and `LineFormat` how code objects record their line numbers.
-/

namespace Disassembler

/-- How the raw operand of a name, variable or comparison opcode packs its index. -/
inductive OperandEncoding where
  | plain
  -- The low bit asks for an empty slot to be pushed first.
  | nullPush
  -- The low bit marks a method load.
  | methodFlag
  -- Two flag bits below the index.
  | superMethodFlag
  -- Two variable slots, the first in the upper four bits.
  | nibblePair
  -- A comparison above a number of flag bits.
  | compareShift (bits : Nat)
  -- A comparison above five bits, of which the highest asks for a truth value.
  | compareBool
deriving DecidableEq, Repr, Inhabited

namespace OperandEncoding

def simple : List OperandEncoding :=
  [.plain, .nullPush, .methodFlag, .superMethodFlag, .nibblePair, .compareBool]

/-- The name in table definitions and data; a comparison above flag bits also writes their
number. -/
def text : OperandEncoding → String
  | .plain => "plain"
  | .nullPush => "null_push"
  | .methodFlag => "method_flag"
  | .superMethodFlag => "super_method_flag"
  | .nibblePair => "nibble_pair"
  | .compareShift _ => "compare_shift"
  | .compareBool => "compare_bool"

end OperandEncoding

/-- How line numbers are recorded. -/
inductive LineFormat where
  | lnotab
  | lnotabSigned
  | linetable
  | locations
deriving DecidableEq, Repr, Inhabited

namespace LineFormat

def all : List LineFormat :=
  [.lnotab, .lnotabSigned, .linetable, .locations]

def text : LineFormat → String
  | .lnotab => "lnotab"
  | .lnotabSigned => "lnotab_signed"
  | .linetable => "linetable"
  | .locations => "locations"

end LineFormat

/-- What all instructions of a table share. -/
structure Settings where
  wordcode : Bool := false
  -- Opcodes from here on take an operand.
  haveArgument : Nat := 90
  -- The bits by which an extended argument is shifted.
  extendedArgShift : Nat := 16
  -- The bytes that a jump operand counts.
  jumpUnit : Nat := 1
  -- Local, cell and free variables share one numbering.
  localsPlus : Bool := false
  lineTable : LineFormat := .lnotab
  exceptionTable : Bool := false
deriving DecidableEq, Repr, Inhabited

end Disassembler
