import Disassembler.Fold.Expression

/-!
# Notes on instructions

**Results.** `annotate?` gives every instruction its note, in one pass from the first to the last,
unless there is no room for the operands of one. An instruction that already carries an expression
keeps it. `applyNotes` writes expressions and starts back into the instructions.
-/

namespace Disassembler
namespace Fold

/-- The offset of an instruction that takes nothing from the stack. -/
def seed (t : Table) (i : Instruction) : Option Nat :=
  match t.info i.opcode with
  | some info => if info.pop = 0 ∧ i.isCache = false then some i.offset else none
  | none => none

/-- A plain load of a value with a text. -/
def isLoad (t : Table) (i : Instruction) : Bool :=
  i.hasArg && i.repr != "" && t.is i.opcode .nullaryLoad

/-- The note of an instruction that comes after the past, if there is room for its operands. -/
def noteOf? (t : Table) (past : Past) (i : Instruction) : Option Note :=
  match i.expression with
  | some text => some ⟨some text, i.foldStart, some text⟩
  | none =>
    match ruleOf t i with
    | none =>
      some (if isLoad t i then ⟨some i.repr, some i.offset, none⟩ else ⟨none, seed t i, none⟩)
    | some rule =>
      match fold t past i rule with
      | .folded text start => some ⟨some text, some start, some text⟩
      | .degraded text => some ⟨none, seed t i, some text⟩
      | .declined => some ⟨none, seed t i, none⟩
      | .overflow => none

/-- The notes of instructions that come after the past. -/
def annotateFrom? (t : Table) (past : Past) : List Instruction → Option (List Note)
  | [] => some []
  | i :: rest => do
    let note ← noteOf? t past i
    let notes ← annotateFrom? t (⟨i, note⟩ :: past) rest
    return note :: notes

end Fold

/-- The notes of instructions, if there is room for the operands of all of them. -/
def annotate? (t : Table) (instructions : List Instruction) : Option (List Note) :=
  Fold.annotateFrom? t [] instructions

/-- The instructions with the expressions and the starts of their notes. -/
def applyNotes (instructions : List Instruction) (notes : List Note) : List Instruction :=
  List.zipWith (fun i note => { i with expression := note.expression, foldStart := note.start })
    instructions notes

end Disassembler
