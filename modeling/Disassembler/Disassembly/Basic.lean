import Disassembler.Catalog
import Disassembler.Decode.Basic
import Disassembler.Fold.Annotate

/-!
# Disassemblies

**Results.** `disassemble` decodes a code object and all code objects nested in its constants. A
line table or an exception table that cannot be read makes the whole fail, and so do instructions
whose operands there is no room for; what is wrong with single instructions is recorded as faults.
`Disassembly.walk` lists a disassembly and all nested ones, each before those inside it.
-/

namespace Disassembler

/-- How to disassemble. -/
structure Options where
  showCaches : Bool := false
  extended : Bool := false
  dupLines : Bool := false
deriving DecidableEq, Repr, Inhabited

/-- The decoded form of a code object and of those nested in it. -/
structure Disassembly where
  name : String
  table : TableKey
  code : List UInt8
  instructions : List Instruction
  faults : List Fault
  -- One note an instruction, if expressions were put together.
  notes : List Note
  exceptionEntries : List ExceptionEntry
  children : List Disassembly
deriving Inhabited

namespace Disassembly

/-- The first fault at an offset. -/
def faultAt (d : Disassembly) (offset : Nat) : Option Fault :=
  d.faults.find? fun f => f.offset == offset

mutual

/-- The disassembly and all nested ones, each before those inside it. -/
def walk : Disassembly → List Disassembly
  | ⟨name, table, code, instructions, faults, notes, exceptionEntries, children⟩ =>
    ⟨name, table, code, instructions, faults, notes, exceptionEntries, children⟩ :: walkAll children

/-- The disassemblies and all nested ones. -/
def walkAll : List Disassembly → List Disassembly
  | [] => []
  | d :: rest => walk d ++ walkAll rest

end

/-- The number of faults in the disassembly and all nested ones. -/
def faultCount (d : Disassembly) : Nat :=
  (d.walk.flatMap fun d => d.faults).length

end Disassembly

/-- Why there is no disassembly. An overflow is no error of the library, but ends all work on the
code object and on those around it. -/
inductive Failure where
  | error (e : Error)
  | overflow
deriving DecidableEq, Repr

/-- The notes of instructions if expressions are put together, and none otherwise. -/
def notesFor (t : Table) (options : Options) (instructions : List Instruction) :
    Option (List Note) :=
  if options.extended then annotate? t instructions else some []

/-- The disassembly of one code object, without those nested in it. -/
def disassembleAlone (t : Table) (options : Options) (c : CodeObject) :
    Except Failure Disassembly :=
  match Environment.ofCode c t.settings options.dupLines with
  | .error e => .error (.error e)
  | .ok env =>
    let decoded := decode t env options.showCaches c.code
    match notesFor t options decoded.instructions with
    | none => .error .overflow
    | some notes =>
      .ok {
        name := c.name
        table := t.key
        code := c.code
        instructions :=
          if options.extended then applyNotes decoded.instructions notes else decoded.instructions
        faults := decoded.faults
        notes := notes
        exceptionEntries := env.exceptionEntries
        children := [] }

/-- A result before others. All of them are waited for, so that an overflow of any is not hidden by
an error that comes before it. -/
def consResult (first : Except Failure Disassembly) (rest : Except Failure (List Disassembly)) :
    Except Failure (List Disassembly) :=
  match first, rest with
  | .ok d, .ok ds => .ok (d :: ds)
  | .error .overflow, _ | _, .error .overflow => .error .overflow
  | .error e, _ | _, .error e => .error e

mutual

/-- The disassembly of a code object and of those nested in it. -/
def disassemble (t : Table) (options : Options) : CodeObject → Except Failure Disassembly
  | ⟨name, argcount, firstLine, code, consts, names, varnames, cellvars, freevars, lineTable,
      exceptionTable⟩ =>
    match disassembleAlone t options ⟨name, argcount, firstLine, code, consts, names, varnames,
        cellvars, freevars, lineTable, exceptionTable⟩ with
    | .error e => .error e
    | .ok d =>
      match disassembleNested t options consts with
      | .error e => .error e
      | .ok children => .ok { d with children := children }

/-- The disassemblies of the code objects among constants. -/
def disassembleNested (t : Table) (options : Options) :
    List Constant → Except Failure (List Disassembly)
  | [] => .ok []
  | .code c :: rest => consResult (disassemble t options c) (disassembleNested t options rest)
  | _ :: rest => disassembleNested t options rest

end

/-- The disassembly of a code object with the table of a version and an implementation. -/
def disassembleFor (version : Version) (implementation : Implementation) (options : Options)
    (c : CodeObject) : Except Failure Disassembly :=
  match Catalog.find version implementation with
  | .error e => .error (.error e)
  | .ok t => disassemble t options c

end Disassembler
