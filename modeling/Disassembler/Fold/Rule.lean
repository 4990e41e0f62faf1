import Disassembler.Operand.Names
import Disassembler.Text.Message
import Disassembler.Text.Words

/-!
# Fold rules

An opcode whose instructions can be shown as a source expression carries a `FoldRule`, which says
how the values left by earlier instructions are put together.

**Results.** `FoldRule.ofWords` reads the rule of a table definition: a word, and for an operator
its symbol.
-/

namespace Disassembler

/-- An operator between two values, by its position among the binary operators. -/
structure InfixSymbol where
  index : Nat
deriving DecidableEq, Repr, Inhabited

namespace InfixSymbol

def ofText? (s : String) : Option InfixSymbol :=
  (Operand.binaryOperators.findIdx? (· == s)).map InfixSymbol.mk

/-- The symbol; a position past the list shows as a question mark. -/
def text (op : InfixSymbol) : String :=
  Operand.binaryOperators.getD op.index "?"

/-- An assignment in place. -/
def isInplace (op : InfixSymbol) : Bool :=
  op.text.toList.getLast? == some '='

end InfixSymbol

/-- How instructions are folded into an expression. -/
inductive FoldRule where
  | infixOp (op : InfixSymbol)
  | compare
  | isOp
  | containsOp
  | binaryOp
  | matMul
  | subscript
  | negate
  | invert
  | not
  | positive
  | returnValue
  | returnConst
  | dupTop
  | store
  | storeAttr
  | storeSubscr
  | attr
  | buildList
  | buildTuple
  | buildSet
  | buildMap
  -- A map that starts empty; the operand is a hint.
  | buildMapHint
  | buildConstKeyMap
  | buildSlice
  | buildString
  | formatValue
  | callFunction
  -- A call with positional and keyword counts packed into the operand.
  | callFunctionPacked
  | callFunctionKw
  | callMethod
  | call
  -- A keyword call with a place for the object.
  | callKw
  | importName
  | importFrom
  | loadBuildClass
  | makeFunction
  | makeFunctionOld
  | raiseVarargs
deriving DecidableEq, Repr, Inhabited

namespace FoldRule

def simple : List FoldRule :=
  [.compare, .isOp, .containsOp, .binaryOp, .matMul, .subscript, .negate, .invert, .not, .positive,
   .returnValue, .returnConst, .dupTop, .store, .storeAttr, .storeSubscr, .attr, .buildList,
   .buildTuple, .buildSet, .buildMap, .buildMapHint, .buildConstKeyMap, .buildSlice, .buildString,
   .formatValue, .callFunction, .callFunctionPacked, .callFunctionKw, .callMethod, .call, .callKw,
   .importName, .importFrom, .loadBuildClass, .makeFunction, .makeFunctionOld, .raiseVarargs]

/-- The name in data; fixed operators also write their position. -/
def text : FoldRule → String
  | .infixOp _ => "infix"
  | .compare => "compare"
  | .isOp => "is_op"
  | .containsOp => "contains_op"
  | .binaryOp => "binary_op"
  | .matMul => "mat_mul"
  | .subscript => "subscript"
  | .negate => "negate"
  | .invert => "invert"
  | .not => "not"
  | .positive => "positive"
  | .returnValue => "return_value"
  | .returnConst => "return_const"
  | .dupTop => "dup_top"
  | .store => "store"
  | .storeAttr => "store_attr"
  | .storeSubscr => "store_subscr"
  | .attr => "attr"
  | .buildList => "build_list"
  | .buildTuple => "build_tuple"
  | .buildSet => "build_set"
  | .buildMap => "build_map"
  | .buildMapHint => "build_map_hint"
  | .buildConstKeyMap => "build_const_key_map"
  | .buildSlice => "build_slice"
  | .buildString => "build_string"
  | .formatValue => "format_value"
  | .callFunction => "call_function"
  | .callFunctionPacked => "call_function_packed"
  | .callFunctionKw => "call_function_kw"
  | .callMethod => "call_method"
  | .call => "call"
  | .callKw => "call_kw"
  | .importName => "import_name"
  | .importFrom => "import_from"
  | .loadBuildClass => "load_build_class"
  | .makeFunction => "make_function"
  | .makeFunctionOld => "make_function_old"
  | .raiseVarargs => "raise_varargs"

/-- The word in table definitions: the name in data, but one word for the matrix product. -/
def word (rule : FoldRule) : String :=
  match rule with
  | .matMul => "matmul"
  | other => other.text

/-- Why a word and a parameter are no rule. -/
inductive ReadError where
  | symbolMissing
  | unknownSymbol (symbol : String)
  | surplus (word parameter : String)
  | unknown (word : String)
deriving DecidableEq, Repr

def ReadError.message : ReadError → String
  | .symbolMissing => "infix needs an operator symbol"
  | .unknownSymbol symbol => "unknown infix operator " ++ Text.Message.quoted symbol
  | .surplus word parameter =>
    "extended format " ++ word ++ " takes no parameter, got " ++ Text.Message.quoted parameter
  | .unknown word => "unknown extended format " ++ Text.Message.quoted word

/-- The rule that a word and an optional parameter stand for. -/
def ofWords (w : String) (parameter : Option String) : Except ReadError FoldRule :=
  if w = "infix" then
    match parameter with
    | none => .error .symbolMissing
    | some symbol =>
      match InfixSymbol.ofText? symbol with
      | some op => .ok (.infixOp op)
      | none => .error (.unknownSymbol symbol)
  else
    match parameter with
    | some p => .error (.surplus w p)
    | none =>
      match Text.named? simple word w with
      | some rule => .ok rule
      | none => .error (.unknown w)

/-- The result is an operator expression, which stands in parentheses inside another. -/
def isOperator : FoldRule → Bool
  | .infixOp _ | .compare | .isOp | .containsOp | .binaryOp | .matMul | .negate | .invert | .not
  | .positive => true
  | _ => false

end FoldRule
end Disassembler
