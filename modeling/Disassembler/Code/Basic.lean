import Disassembler.Number.FloatText
import Disassembler.Text.Literal

/-!
# Constants and code objects

A code object holds bytecode and the pools that its operands index; its constants may hold further
code objects.

**Results.** `Constant.repr` is the text of a constant as in source code. `CodeObject.nested` are
the code objects directly among the constants, and `CodeObject.slots` the variables in the order of
the merged numbering.
-/

namespace Disassembler

mutual

/-- A value in the constant pool of a code object. -/
inductive Constant where
  | none
  | ellipsis
  | bool (value : Bool)
  | int (value : Int)
  -- Any other integer, by its decimal digits.
  | bigInt (digits : String)
  | float (value : Binary64)
  | complex (real imag : Binary64)
  | str (value : String)
  | bytes (value : List UInt8)
  | tuple (items : List Constant)
  -- A frozen set, with its items in the order in which they are stored.
  | frozenSet (items : List Constant)
  | code (value : CodeObject)

/-- A compiled piece of a program. -/
structure CodeObject where
  name : String := ""
  argcount : Nat := 0
  firstLine : Nat := 1
  code : List UInt8
  consts : List Constant := []
  names : List String := []
  varnames : List String := []
  cellvars : List String := []
  freevars : List String := []
  lineTable : List UInt8 := []
  exceptionTable : List UInt8 := []

end

instance : Inhabited Constant := ⟨.none⟩

instance : Inhabited CodeObject := ⟨⟨"", 0, 1, [], [], [], [], [], [], [], []⟩⟩

namespace Constant

/-- Doubles in constants: positional from `10 ^ -4` up to `10 ^ 16`, a whole number with `.0`, an
exponent with its sign and at least two digits, and a tie to the larger number. -/
def floatFormat : FloatFormat :=
  ⟨-4, 15, true, true, 2, .up⟩

/-- The parts of a complex number: as above, but a whole number without a point. -/
def partFormat : FloatFormat :=
  { floatFormat with pointZero := false }

/-- A complex number. The real part is left out when it is the positive zero. -/
def complexText (real imag : Binary64) : String :=
  let imagText := partFormat.write imag
  if real.isZero && !real.negative then imagText ++ "j"
  else
    let sign := if imagText.toList.head? = some '-' then "" else "+"
    "(" ++ partFormat.write real ++ sign ++ imagText ++ "j)"

mutual

/-- The constant as in source code, where strings prefer a quotation mark. -/
def repr (preferred : Text.Literal.Quote) : Constant → String
  | .none => "None"
  | .ellipsis => "Ellipsis"
  | .bool true => "True"
  | .bool false => "False"
  | .int n => Text.signed n
  | .bigInt digits => digits
  | .float x => floatFormat.write x
  | .complex real imag => complexText real imag
  | .str s => Text.Literal.quoteText preferred s
  | .bytes value => Text.Literal.quoteBytes value
  | .tuple [item] => "(" ++ repr preferred item ++ ",)"
  | .tuple items => "(" ++ ", ".intercalate (reprs preferred items) ++ ")"
  | .frozenSet [] => "frozenset()"
  | .frozenSet items => "frozenset(\x7b" ++ ", ".intercalate (reprs preferred items) ++ "\x7d)"
  | .code value => "<code object " ++ value.name ++ ">"

/-- Each of some constants as in source code. -/
def reprs (preferred : Text.Literal.Quote) : List Constant → List String
  | [] => []
  | item :: rest => repr preferred item :: reprs preferred rest

end

def text (c : Constant) : String :=
  c.repr .single

def str? : Constant → Option String
  | .str s => some s
  | _ => Option.none

/-- The code object of a code constant. -/
def code? : Constant → Option CodeObject
  | .code value => some value
  | _ => Option.none

end Constant

namespace CodeObject

/-- The code objects directly among the constants, in order. -/
def nested (c : CodeObject) : List CodeObject :=
  c.consts.filterMap Constant.code?

/-- The variables in the merged numbering: local variables, then cells that are no local variables,
then free variables. -/
def slots (c : CodeObject) : List String :=
  c.varnames ++ c.cellvars.filter (fun v => !c.varnames.contains v) ++ c.freevars

end CodeObject
end Disassembler
