import Disassembler.Code.Basic
import Disassembler.ExceptionTable
import Disassembler.Lines.Starts
import Disassembler.Table.Basic

/-!
# What operands are resolved against

**Results.** `Environment.ofCode` is the view of a code object that a table asks for: the numbering
of variables, the line starts and the exception entries follow the table's settings.
-/

namespace Disassembler

/-- The pools, lines and handlers of a code object. -/
structure Environment where
  consts : List Constant := []
  names : List String := []
  locals : List String := []
  free : List String := []
  lineStarts : Lines.StartMap := ∅
  exceptionEntries : List ExceptionEntry := []

namespace Environment

/-- The exception entries of a code object, for tables that have them. -/
def entriesOf (code : CodeObject) (settings : Settings) : Except Error (List ExceptionEntry) :=
  if settings.exceptionTable then ExceptionTable.parse code.exceptionTable else .ok []

/-- The local variables. -/
def localsOf (code : CodeObject) (settings : Settings) : List String :=
  if settings.localsPlus then code.slots else code.varnames

/-- The cell and free variables. -/
def freeOf (code : CodeObject) (settings : Settings) : List String :=
  if settings.localsPlus then code.slots else code.cellvars ++ code.freevars

/-- The view of a code object under settings. -/
def ofCode (code : CodeObject) (settings : Settings) (dupLines : Bool) :
    Except Error Environment :=
  match Lines.startMap code settings.lineTable dupLines with
  | .error e => .error e
  | .ok lineStarts =>
    match entriesOf code settings with
    | .error e => .error e
    | .ok exceptionEntries => .ok {
        consts := code.consts
        names := code.names
        locals := localsOf code settings
        free := freeOf code settings
        lineStarts := lineStarts
        exceptionEntries := exceptionEntries }

end Environment
end Disassembler
