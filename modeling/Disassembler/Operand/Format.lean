import Disassembler.Operand.Names
import Disassembler.Text.Layout
import Disassembler.Text.Words

/-!
# Operand formats

An opcode whose operand means more than a number carries an `OperandFormat`.

**Results.** `OperandFormat.render` is the text of an operand. It depends on the format, the operand
and the number of bits by which an extended argument is shifted, and on nothing else.
-/

namespace Disassembler

/-- How an operand is written. -/
inductive OperandFormat where
  | extendedArg
  -- Positional arguments in the low byte, named ones in the next.
  | callPosNamed
  | callPositional
  | callEx
  | callKw
  | makeFunctionDefaults
  | makeFunctionCounts
  | makeFunctionFlags
  -- Mappings in the low byte, the place of the function above.
  | buildMapUnpackWithCall35
  | buildMapUnpackWithCall36
  | raiseVarargsOlder
  | raiseVarargs
  | rotTwo
  | rotThree
  | rotFour
  | isOp
  | containsOp
  | binaryOp
  | formatValue
  | intrinsic1
  | intrinsic2
  | convertValue
  | functionAttribute
deriving DecidableEq, Repr, Inhabited

namespace OperandFormat

def all : List OperandFormat :=
  [.extendedArg, .callPosNamed, .callPositional, .callEx, .callKw, .makeFunctionDefaults,
   .makeFunctionCounts, .makeFunctionFlags, .buildMapUnpackWithCall35, .buildMapUnpackWithCall36,
   .raiseVarargsOlder, .raiseVarargs, .rotTwo, .rotThree, .rotFour, .isOp, .containsOp, .binaryOp,
   .formatValue, .intrinsic1, .intrinsic2, .convertValue, .functionAttribute]

def text : OperandFormat → String
  | .extendedArg => "extended_arg"
  | .callPosNamed => "call_pos_named"
  | .callPositional => "call_positional"
  | .callEx => "call_ex"
  | .callKw => "call_kw"
  | .makeFunctionDefaults => "make_function_defaults"
  | .makeFunctionCounts => "make_function_counts"
  | .makeFunctionFlags => "make_function_flags"
  | .buildMapUnpackWithCall35 => "build_map_unpack_with_call35"
  | .buildMapUnpackWithCall36 => "build_map_unpack_with_call36"
  | .raiseVarargsOlder => "raise_varargs_older"
  | .raiseVarargs => "raise_varargs"
  | .rotTwo => "rot_two"
  | .rotThree => "rot_three"
  | .rotFour => "rot_four"
  | .isOp => "is_op"
  | .containsOp => "contains_op"
  | .binaryOp => "binary_op"
  | .formatValue => "format_value"
  | .intrinsic1 => "intrinsic1"
  | .intrinsic2 => "intrinsic2"
  | .convertValue => "convert_value"
  | .functionAttribute => "function_attribute"

def ofText? : String → Option OperandFormat :=
  Text.named? all text

/-- The words of the bits that are set, from the low bit up. -/
def flagWords (bits : Nat) : List String → List String
  | [] => []
  | word :: rest =>
    if bits % 2 = 1 then word :: flagWords (bits / 2) rest else flagWords (bits / 2) rest

/-- The words of the bits that are set, with commas between them. -/
def flagList (bits : Nat) (words : List String) : String :=
  ", ".intercalate (flagWords bits words)

/-- The name that an operand chooses, or its number when there is none. -/
def choose (names : List String) (arg : Nat) : String :=
  (names[arg]?).getD (Text.decimal arg)

/-- The operand shifted to the left, unless bits above the sixty-fourth would be lost. -/
def shift? (arg shift : Nat) : Option Nat :=
  if shift < 64 ∧ arg <<< shift < UInt64.size then some (arg <<< shift) else none

/-- The text of an operand, where an extended argument is shifted by `shift` bits. -/
def render (format : OperandFormat) (arg shift : Nat) : String :=
  let low := arg % 256
  let high := arg / 256 % 256
  let number := Text.decimal
  match format with
  | .extendedArg => number ((shift? arg shift).getD arg)
  | .callPosNamed => number low ++ " positional, " ++ number high ++ " named"
  | .callPositional => number arg ++ " positional argument" ++ (if arg = 1 then "" else "s")
  | .callEx =>
    if arg % 2 = 1 then "keyword and positional arguments" else "positional arguments only"
  | .callKw => number arg ++ " total positional and keyword args"
  | .makeFunctionDefaults => number arg ++ " default parameters"
  | .makeFunctionCounts =>
    let annotated := arg / 65536 % 32768
    if low = 0 ∧ high = 0 ∧ annotated = 0 then "No arguments"
    else number low ++ " positional, " ++ number high ++ " keyword only, " ++ number annotated
      ++ " annotated"
  | .makeFunctionFlags =>
    if arg = 0 then "No arguments" else flagList arg Operand.functionFlags
  | .buildMapUnpackWithCall35 =>
    number low ++ " mappings, function at " ++ number (low + arg / 256)
  | .buildMapUnpackWithCall36 => number arg ++ " mappings"
  | .raiseVarargsOlder =>
    choose ["reraise", "exception", "exception, parameter", "exception, parameter, traceback"] arg
  | .raiseVarargs =>
    choose ["reraise", "exception instance", "exception instance with __cause__"] arg
  | .rotTwo => "TOS, TOS1 = TOS1, TOS"
  | .rotThree => "TOS, TOS1, TOS2 = TOS1, TOS2, TOS"
  | .rotFour => "TOS, TOS1, TOS2, TOS3 = TOS1, TOS2, TOS3, TOS"
  | .isOp => if arg = 0 then "is" else "is not"
  | .containsOp => if arg = 0 then "in" else "not in"
  | .binaryOp => choose Operand.binaryOperators arg
  | .formatValue => ["", "!s", "!r", "!a"].getD (arg % 4) ""
  | .intrinsic1 => choose Operand.intrinsics1 arg
  | .intrinsic2 => choose Operand.intrinsics2 arg
  | .convertValue => choose Operand.conversions arg
  | .functionAttribute =>
    let words := flagList arg Operand.functionAttributes
    if words = "" then number arg else words

end OperandFormat
end Disassembler
