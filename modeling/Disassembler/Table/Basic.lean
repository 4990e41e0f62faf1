import Disassembler.Table.Edit
import Disassembler.Table.Key
import Disassembler.Text.Order
import Std.Data.ExtTreeMap
import Std.Data.ExtTreeSet

/-!
# Opcode tables

A table maps opcodes to what is known about them, names to opcodes, and classes to the sets of their
members. Four fields are computed from the others when a table is finalized; until then they are
those of the parent. The maps are determined by their entries, so that two tables with the same
entries are equal.

**Results.** `Table` and its queries.
-/

namespace Disassembler

open Std (ExtTreeMap ExtTreeSet)

/-- What is known about one opcode. -/
structure OpInfo where
  name : String
  -- Of both counts, `-(k + 1)` stands for the operand and `k` more.
  pop : Int
  push : Int
  format : Option OperandFormat := none
  fold : Option FoldRule := none
  stackRule : Option StackRule := none
  encoding : OperandEncoding := .plain
  cacheEntries : Nat := 0
  backward : Bool := false
deriving DecidableEq, Repr, Inhabited

/-- The information with one property bound. -/
def OpInfo.bind (info : OpInfo) : Binding → OpInfo
  | .format v => { info with format := v }
  | .fold v => { info with fold := v }
  | .stackRule v => { info with stackRule := v }
  | .encoding v => { info with encoding := v }
  | .cacheEntries v => { info with cacheEntries := v }

/-- A set of opcodes. -/
abbrev OpcodeSet := ExtTreeSet Nat

/-- The members of each class. -/
abbrev ClassSets := ExtTreeMap OpClass OpcodeSet

/-- The members of a class; a class that is not there has none. -/
def ClassSets.membersOf (sets : ClassSets) (c : OpClass) : OpcodeSet :=
  (sets[c]?).getD ∅

/-- A table of opcodes. -/
structure Table where
  key : TableKey
  parent : Option TableKey
  settings : Settings
  ops : ExtTreeMap Nat OpInfo
  opcodes : ExtTreeMap String Nat Text.byteOrder
  classes : ClassSets
  operators : OpcodeSet
  jumps : OpcodeSet
  binaries : OpcodeSet
  extendedArg : Option Nat
deriving DecidableEq

namespace Table

/-- A table without opcodes, in which every class is empty. -/
def empty (key : TableKey) : Table where
  key := key
  parent := none
  settings := {}
  ops := ∅
  opcodes := ∅
  classes := ExtTreeMap.ofList (OpClass.all.map fun c => (c, ∅))
  operators := ∅
  jumps := ∅
  binaries := ∅
  extendedArg := none

/-- What is known about an opcode. -/
def info (t : Table) (opcode : Nat) : Option OpInfo :=
  t.ops[opcode]?

/-- The opcode of a name. -/
def opcodeOf (t : Table) (name : String) : Option Nat :=
  t.opcodes[name]?

/-- The name of an opcode; one without a name shows its number. -/
def nameOf (t : Table) (opcode : Nat) : String :=
  match t.info opcode with
  | some i => i.name
  | none => "<" ++ Text.decimal opcode ++ ">"

/-- The members of a class. -/
def members (t : Table) (c : OpClass) : OpcodeSet :=
  t.classes.membersOf c

/-- The opcode is in the class. -/
def is (t : Table) (opcode : Nat) (c : OpClass) : Bool :=
  (t.members c).contains opcode

/-- The classes of an opcode, in order. -/
def classesOf (t : Table) (opcode : Nat) : List OpClass :=
  OpClass.all.filter (t.is opcode)

/-- Instructions of the opcode take an operand. -/
def hasArgument (t : Table) (opcode : Nat) : Bool :=
  t.settings.haveArgument ≤ opcode

/-- The opcode jumps. -/
def isJump (t : Table) (opcode : Nat) : Bool :=
  t.jumps.contains opcode

/-- The comparison with an index. -/
def comparison? (index : Nat) : Option String :=
  Operand.comparisons[index]?

/-- The number of opcodes. -/
def size (t : Table) : Nat :=
  t.ops.size

/-- The operand format of the opcode with a name. -/
def formatFor (t : Table) (name : String) : Option OperandFormat :=
  (t.opcodeOf name).bind fun opcode => (t.info opcode).bind (·.format)

/-- The text of a plain operand of an opcode; empty when no format is bound. -/
def renderOperand (t : Table) (opcode arg : Nat) : String :=
  match (t.info opcode).bind (·.format) with
  | some f => f.render arg t.settings.extendedArgShift
  | none => ""

end Table
end Disassembler
