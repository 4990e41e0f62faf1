import Disassembler.Disassembly.Basic

/-!
# Listings

A listing has one line an instruction:

    1    00000 LOAD_NAME                0 (a)
         00002 LOAD_NAME                1 (b)
    2 >> 00004 BINARY_ADD           TOS = a + b

The columns are the source line where one starts, a mark for jump targets, the offset, the name of
the opcode, the operand, and the text of the operand in parentheses. An extended listing adds the
expression. What is wrong with an instruction stands at the end of its line, together with its
bytes.

**Results.** `Listing.render` is the listing of a disassembly and of all nested ones.
-/

namespace Disassembler

/-- What a listing shows. -/
inductive Style where
  | basic
  | extended
deriving DecidableEq, Repr, Inhabited

namespace Listing

/-- The hexadecimal bytes from an offset up to the next instruction. -/
def rawHex (d : Disassembly) (offset : Nat) : String :=
  let stop := ((d.instructions.map (·.offset)).find? (offset < ·)).getD d.code.length
  Text.Hex.encode ((d.code.take stop).drop offset)

/-- What is wrong at an offset, and the bytes there. -/
def faultText (d : Disassembly) (f : Fault) : String :=
  "<malformed: " ++ f.problem.message ++ "> " ++ rawHex d f.offset

/-- The columns up to the offset. -/
def margin (line : Option Nat) (isJumpTarget : Bool) (offset : Nat) : String :=
  Text.padLeft 4 ((line.map Text.decimal).getD "") ++ " "
    ++ Text.padLeft 2 (if isJumpTarget then ">>" else "") ++ " "
    ++ Text.padLeftWith '0' 5 (Text.decimal offset) ++ " "

/-- The operand and the expression, for instructions that are folded and have a text. -/
def extendedText (t : Table) (i : Instruction) (note : Note) : Option String :=
  match note.display, t.info i.opcode with
  | some display, some info =>
    if info.fold.isSome then
      some ((if i.repr = "" then "" else "(" ++ i.repr ++ ") ; ")
        ++ (if 0 < info.push then "TOS = " else "") ++ Text.trimRight display)
    else none
  | _, _ => none

/-- What follows the operand. -/
def tail (t : Table) (style : Style) (i : Instruction) (note : Option Note) : String :=
  let expression := match style with
    | .extended => note.bind (extendedText t i)
    | .basic => none
  match expression with
  | some text => " " ++ text
  | none => if i.repr = "" then "" else " (" ++ i.repr ++ ")"

/-- The line of an instruction. -/
def line (t : Table) (style : Style) (d : Disassembly) (i : Instruction) (note : Option Note) :
    String :=
  let operand := match i.arg with
    | some arg => " " ++ Text.padLeft 5 (Text.decimal arg)
    | none => ""
  let fault := match d.faultAt i.offset with
    | some f => "  " ++ faultText d f
    | none => ""
  Text.trimRight (margin i.startsLine i.isJumpTarget i.offset ++ Text.padRight 20 i.opname
    ++ operand ++ tail t style i note ++ fault)

/-- The lines of instructions with their notes. An empty line stands before an instruction that
starts a line, unless it is the first one. -/
def instructionLines (t : Table) (style : Style) (d : Disassembly) (isFirst : Bool) :
    List Instruction → List Note → List String
  | [], _ => []
  | i :: rest, notes =>
    let gap := if !isFirst && i.startsLine.isSome then [""] else []
    gap ++ line t style d i notes.head? :: instructionLines t style d false rest (notes.drop 1)

/-- The faults where no instruction starts. -/
def looseFaults (d : Disassembly) : List Fault :=
  d.faults.filter fun f => !d.instructions.any fun i => i.offset == f.offset

/-- The exception handlers, if there are any. -/
def exceptionLines (entries : List ExceptionEntry) : List String :=
  if entries.isEmpty then [] else "ExceptionTable:" :: entries.map fun e => "  " ++ e.text

/-- The lines of a disassembly without nested ones. -/
def ownLines (t : Table) (style : Style) (d : Disassembly) : List String :=
  instructionLines t style d true d.instructions d.notes
    ++ (looseFaults d).map (fun f =>
      Text.trimRight (margin none false f.offset ++ faultText d f))
    ++ exceptionLines d.exceptionEntries

mutual

/-- The lines of a disassembly and of all nested ones. -/
def lines (t : Table) (style : Style) : Disassembly → List String
  | ⟨name, table, code, instructions, faults, notes, exceptionEntries, children⟩ =>
    ownLines t style ⟨name, table, code, instructions, faults, notes, exceptionEntries, children⟩
      ++ childLines t style children

/-- The lines of nested disassemblies, each after a heading. -/
def childLines (t : Table) (style : Style) : List Disassembly → List String
  | [] => []
  | d :: rest =>
    "" :: ("Disassembly of <code object " ++ d.name ++ ">:") :: (lines t style d
      ++ childLines t style rest)

end

def render (t : Table) (style : Style) (d : Disassembly) : String :=
  Text.unlines (lines t style d)

end Listing

/-- The listing of a code object, extended if the options say so. -/
def disassembleToText (t : Table) (options : Options) (c : CodeObject) :
    Except Failure String :=
  match disassemble t options c with
  | .error e => .error e
  | .ok d => .ok (Listing.render t (if options.extended then .extended else .basic) d)

end Disassembler
