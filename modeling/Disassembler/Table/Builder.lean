import Disassembler.Error
import Disassembler.Table.Basic

/-!
# Building opcode tables

A builder holds a table under construction. Edits are applied in order; `finalize` checks the table
and computes the sets that follow from its classes, after which no edit succeeds any more.

**Results.** Every operation gives an `Outcome`: the builder as the operation leaves it, and the
error if there is one. `Table.build` makes a table from a parent, if there is one, and a list of
edits.
-/

namespace Disassembler

open Std (ExtTreeMap ExtTreeSet)

namespace Table

section Changes

/-- The table without an opcode and its name. -/
def erase (t : Table) (name : String) (opcode : Nat) : Table :=
  { t with
    ops := t.ops.erase opcode
    opcodes := t.opcodes.erase name
    classes := t.classes.map fun _ set => set.erase opcode }

/-- The table without any opcode. -/
def clear (t : Table) : Table :=
  { t with
    ops := ∅
    opcodes := ∅
    classes := t.classes.map fun _ _ => ∅ }

/-- The information of an opcode after a definition. What was bound to it before stays bound. -/
def defineInfo (old : Option OpInfo) (d : OpDef) : OpInfo :=
  let info := old.getD ⟨d.name, d.pop, d.push, none, none, none, .plain, 0, false⟩
  { info with pop := d.pop, push := d.push, backward := info.backward || d.backward }

/-- The class sets with an opcode added to some classes. -/
def addToClasses (sets : ClassSets) (opcode : Nat) : List OpClass → ClassSets
  | [] => sets
  | c :: rest => addToClasses (sets.insert c ((sets.membersOf c).insert opcode)) opcode rest

/-- The table with an opcode defined, or added to. -/
def insert (t : Table) (d : OpDef) : Table :=
  { t with
    ops := t.ops.insert d.opcode (defineInfo t.ops[d.opcode]? d)
    opcodes := t.opcodes.insert d.name d.opcode
    classes := addToClasses t.classes d.opcode d.classes }

/-- Why a definition does not fit a table. -/
def conflict? (t : Table) (d : OpDef) : Option TableFault :=
  match (t.info d.opcode).filter fun i => i.name != d.name with
  | some other => some (.defineOther d.name d.opcode other.name)
  | none =>
    match (t.opcodeOf d.name).filter (· != d.opcode) with
    | some actual => some (.defineElsewhere d.name d.opcode actual)
    | none => none

end Changes

section Checks

/-- The pairs of operand classes, each with those after it. -/
def operandPairs : List OpClass → List (OpClass × OpClass)
  | [] => []
  | c :: rest => rest.map (fun d => (c, d)) ++ operandPairs rest

/-- An opcode in two operand classes. -/
def overlap? (t : Table) : Option TableFault :=
  (operandPairs OpClass.operand).findSome? fun p =>
    (t.members p.1 ∩ t.members p.2).toList.head?.map fun opcode =>
      .overlap opcode (t.nameOf opcode) p.1 p.2

/-- An opcode whose name does not lead back to it. -/
def unmapped? (t : Table) : Option TableFault :=
  t.ops.toList.findSome? fun (opcode, info) =>
    if t.opcodes[info.name]? = some opcode then none else some (.unmapped opcode info.name)

/-- The extended-argument opcode, which has to fit a byte. -/
def findExtendedArg (t : Table) : Except TableFault Nat :=
  match t.opcodeOf "EXTENDED_ARG" with
  | none => .error .extendedArgUndefined
  | some opcode => if opcode < 256 then .ok opcode else .error .extendedArgPseudo

/-- The extended-argument opcode of a table that passes all checks, or the first fault. -/
def check (t : Table) : Except TableFault Nat :=
  match t.overlap? with
  | some fault => .error fault
  | none =>
    match t.unmapped? with
    | some fault => .error fault
    | none => t.findExtendedArg

/-- The opcodes whose result can be an operand of an expression. -/
def computeOperators (t : Table) : OpcodeSet :=
  t.members .nullaryOp ∪ t.members .unary ∪ t.members .binary ∪ t.members .ternary
    ∪ t.members .varargs ∪ (t.members .nargs \ t.members .noFollow)

/-- The table with the sets that follow from its classes. -/
def withDerived (t : Table) (extendedArg : Nat) : Table :=
  { t with
    operators := t.computeOperators
    jumps := t.members .jumpRel ∪ t.members .jumpAbs
    binaries := t.members .binary
    extendedArg := some extendedArg }

end Checks

/-- A table under construction. -/
structure Builder where
  table : Table
  frozen : Bool
deriving DecidableEq

/-- What an operation on a builder leaves behind. -/
structure Outcome where
  builder : Builder
  error : Option Error
deriving DecidableEq

/-- Goes on with the builder that an operation leaves, unless it failed. -/
def Outcome.andThen (o : Outcome) (next : Builder → Outcome) : Outcome :=
  match o.error with
  | some _ => o
  | none => next o.builder

namespace Builder

/-- A builder for a table without a parent. -/
def new (key : TableKey) : Builder :=
  ⟨Table.empty key, false⟩

/-- A builder for a table made from a parent, which need not be finalized. -/
def ofParent (parent : Table) (key : TableKey) : Builder :=
  ⟨{ parent with key := key, parent := some parent.key }, false⟩

/-- The operation succeeds with a new table. -/
def done (b : Builder) (t : Table) : Outcome :=
  ⟨{ b with table := t }, none⟩

/-- The operation fails and leaves the builder as it is. -/
def fail (b : Builder) (fault : TableFault) : Outcome :=
  ⟨b, some (.inconsistentTable b.table.key fault)⟩

/-- Removes the opcode with a name and a number. -/
def remove (b : Builder) (name : String) (opcode : Nat) : Outcome :=
  match b.table.opcodeOf name with
  | none => b.fail (.removeUndefined name opcode)
  | some actual =>
    if actual = opcode then b.done (b.table.erase name opcode)
    else b.fail (.removeOther name opcode actual)

/-- Defines an opcode, or adds to its definition. -/
def define (b : Builder) (d : OpDef) : Outcome :=
  match b.table.conflict? d with
  | some fault => b.fail fault
  | none => b.done (b.table.insert d)

/-- Removes the opcode that has a number, if there is one. -/
def removeOpcode (b : Builder) (opcode : Nat) : Outcome :=
  match b.table.info opcode with
  | some old => b.remove old.name opcode
  | none => ⟨b, none⟩

/-- Removes the opcode that has a name, if there is one. -/
def removeName (b : Builder) (name : String) : Outcome :=
  match b.table.opcodeOf name with
  | some old => b.remove name old
  | none => ⟨b, none⟩

/-- Binds a property to the opcode with a name. -/
def bind (b : Builder) (name : String) (binding : Binding) : Outcome :=
  match b.table.opcodeOf name with
  | none => b.fail (.bindUndefined binding name)
  | some opcode =>
    match b.table.info opcode with
    | none => b.fail (.bindEmpty name opcode)
    | some info =>
      b.done { b.table with ops := b.table.ops.insert opcode (info.bind binding) }

/-- Applies one edit. -/
def apply (b : Builder) (edit : Edit) : Outcome :=
  if b.frozen then ⟨b, some (.frozenTable b.table.key)⟩
  else
    match edit with
    | .remove name opcode => b.remove name opcode
    | .define d => b.define d
    | .redefine d =>
      ((b.removeOpcode d.opcode).andThen fun b => b.removeName d.name).andThen fun b => b.define d
    | .removeAll => b.done b.table.clear
    | .setting s => b.done { b.table with settings := b.table.settings.set s }
    | .bind name binding => b.bind name binding

/-- Applies edits up to the first that fails. -/
def applyAll (b : Builder) : List Edit → Outcome
  | [] => ⟨b, none⟩
  | edit :: rest => (b.apply edit).andThen fun b => b.applyAll rest

/-- Checks the table and computes the sets that follow from its classes. A finalized table stays as
it is. -/
def finalize (b : Builder) : Outcome :=
  if b.frozen then ⟨b, none⟩
  else
    match b.table.check with
    | .error fault => b.fail fault
    | .ok extendedArg => ⟨⟨b.table.withDerived extendedArg, true⟩, none⟩

/-- The finalized table. -/
def toTable (b : Builder) : Except Error Table :=
  match b.finalize with
  | ⟨_, some e⟩ => .error e
  | ⟨b, none⟩ => .ok b.table

/-- A builder for a table made from a parent, or from nothing. -/
def start (parent : Option Table) (key : TableKey) : Builder :=
  match parent with
  | some p => ofParent p key
  | none => new key

end Builder

/-- The finalized table that edits make from a parent, or from nothing. -/
def build (parent : Option Table) (key : TableKey) (edits : List Edit) : Except Error Table :=
  match (Builder.start parent key).applyAll edits with
  | ⟨_, some e⟩ => .error e
  | ⟨b, none⟩ => b.toTable

end Table
end Disassembler
