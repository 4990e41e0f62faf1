/-!
# Operands that stand for names

**Results.** The lists below give the meaning of operands that choose one of several operators,
functions or flags by number.
-/

namespace Disassembler
namespace Operand

/-- The operators of a binary operation, by operand. From the fourteenth on they assign in place. -/
def binaryOperators : List String :=
  ["+", "&", "//", "<<", "@", "*", "%", "|", "**", ">>", "-", "/", "^", "+=", "&=", "//=", "<<=",
   "@=", "*=", "%=", "|=", "**=", ">>=", "-=", "/=", "^="]

/-- The comparisons, by operand. -/
def comparisons : List String :=
  ["<", "<=", "==", "!=", ">", ">=", "in", "not in", "is", "is not", "exception match", "BAD"]

/-- The internal functions of one argument, by operand. -/
def intrinsics1 : List String :=
  ["INTRINSIC_1_INVALID", "INTRINSIC_PRINT", "INTRINSIC_IMPORT_STAR",
   "INTRINSIC_STOPITERATION_ERROR", "INTRINSIC_ASYNC_GEN_WRAP", "INTRINSIC_UNARY_POSITIVE",
   "INTRINSIC_LIST_TO_TUPLE", "INTRINSIC_TYPEVAR", "INTRINSIC_PARAMSPEC",
   "INTRINSIC_TYPEVARTUPLE", "INTRINSIC_SUBSCRIPT_GENERIC", "INTRINSIC_TYPEALIAS"]

/-- The internal functions of two arguments, by operand. -/
def intrinsics2 : List String :=
  ["INTRINSIC_2_INVALID", "INTRINSIC_PREP_RERAISE_STAR", "INTRINSIC_TYPEVAR_WITH_BOUND",
   "INTRINSIC_TYPEVAR_WITH_CONSTRAINTS", "INTRINSIC_SET_FUNCTION_TYPE_PARAMS"]

/-- What a new function takes from the stack, by bit. -/
def functionFlags : List String :=
  ["default", "keyword-only", "annotation", "closure"]

/-- The attributes that a function can be given, by bit. -/
def functionAttributes : List String :=
  ["defaults", "kwdefaults", "annotations", "closure"]

/-- The conversions of a formatted value, by operand. -/
def conversions : List String :=
  ["", "str", "repr", "ascii"]

end Operand
end Disassembler
