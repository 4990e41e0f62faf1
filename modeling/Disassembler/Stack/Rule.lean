import Disassembler.Number.Width
import Disassembler.Text.Words

/-!
# Stack rules

An opcode whose effect on the stack is not linear in its operand carries a `StackRule`.

**Results.** `StackRule.effect` is the change of the stack height for an operand of sixty-four bits
with sign. There is none when a step of its computation leaves that range.
-/

namespace Disassembler

/-- How the stack height depends on an operand. -/
inductive StackRule where
  | mapPairs
  | mapUnpackWithCall
  -- Leaves the targets before the star, in the low byte, and after it, in the next.
  | unpackEx
  -- Takes positional arguments, in the low byte, and keyword pairs, in the next.
  | callPacked
  | callPackedVar
  | callPackedVarKw
  | callEx
  | callEx311
  | makeFunction33
  | makeClosure33
  -- Takes one value for each of the low four bits, and a name.
  | makeFunction36
  | makeFunction311
  | nullPushFlag
  | methodFlag
  | superAttr
  | formatValue
deriving DecidableEq, Repr, Inhabited

namespace StackRule

def all : List StackRule :=
  [.mapPairs, .mapUnpackWithCall, .unpackEx, .callPacked, .callPackedVar, .callPackedVarKw, .callEx,
   .callEx311, .makeFunction33, .makeClosure33, .makeFunction36, .makeFunction311, .nullPushFlag,
   .methodFlag, .superAttr, .formatValue]

def text : StackRule → String
  | .mapPairs => "map_pairs"
  | .mapUnpackWithCall => "map_unpack_with_call"
  | .unpackEx => "unpack_ex"
  | .callPacked => "call_packed"
  | .callPackedVar => "call_packed_var"
  | .callPackedVarKw => "call_packed_var_kw"
  | .callEx => "call_ex"
  | .callEx311 => "call_ex311"
  | .makeFunction33 => "make_function33"
  | .makeClosure33 => "make_closure33"
  | .makeFunction36 => "make_function36"
  | .makeFunction311 => "make_function311"
  | .nullPushFlag => "null_push_flag"
  | .methodFlag => "method_flag"
  | .superAttr => "super_attr"
  | .formatValue => "format_value"

def ofText? : String → Option StackRule :=
  Text.named? all text

/-- The integer, when it is a number of sixty-four bits with sign. -/
def fits (n : Int) : Option Int :=
  Width.within? Width.signed64 n

/-- The number of set bits among the low four. -/
def lowBits (arg : Int) : Int :=
  arg % 2 + arg / 2 % 2 + arg / 4 % 2 + arg / 8 % 2

/-- The change of the stack height for an operand. -/
def effect (rule : StackRule) (arg : Int) : Option Int :=
  let low := arg % 256
  let high := arg / 256 % 256
  let flag := arg % 2
  match rule with
  | .mapPairs => (fits (arg * 2)).bind fun pairs => fits (1 - pairs)
  | .mapUnpackWithCall => some (1 - low)
  | .unpackEx => some (low + high)
  | .callPacked => some (-(low + 2 * high))
  | .callPackedVar => some (-(low + 2 * high) - 1)
  | .callPackedVarKw => some (-(low + 2 * high) - 2)
  | .callEx => some (-1 - flag)
  | .callEx311 => some (-2 - flag)
  | .makeFunction33 => some (1 - (2 + low + 2 * high + arg / 65536 % 32768))
  | .makeClosure33 => some (1 - (2 + low + 2 * high + arg / 65536 % 32768 + 1))
  | .makeFunction36 => some (-1 - lowBits arg)
  | .makeFunction311 => some (-lowBits arg)
  | .nullPushFlag => some (1 + flag)
  | .methodFlag => some flag
  | .superAttr => some (flag - 2)
  | .formatValue => some (-(arg / 4 % 2))

end StackRule
end Disassembler
