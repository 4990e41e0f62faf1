import Disassembler.Decode.Chunk
import Disassembler.Decode.Operand
import Disassembler.Stack.Effect

/-!
# Decoding bytecode

**Algorithm.** The bytecode is cut into chunks; each chunk becomes an instruction, from the first to
the last, where an extended argument is carried over to the next one; at last the instructions that
a jump or an exception handler leads to are marked.

**Results.** `decode` never fails: what is wrong with an instruction is recorded as a fault, and an
instruction stands in the result all the same.
-/

namespace Disassembler
namespace Decode

/-- Instructions and what is wrong with the bytecode. -/
structure Decoded where
  instructions : List Instruction
  faults : List Fault
deriving Inhabited

/-- The first fault at an offset. -/
def Decoded.faultAt (d : Decoded) (offset : Nat) : Option Fault :=
  d.faults.find? fun f => f.offset == offset

/-- What extensions leave for the next instruction. -/
structure Carry where
  pending : Nat := 0
  -- Where the first extension starts.
  start : Option Nat := none
deriving DecidableEq, Repr, Inhabited

/-- One instruction with what is wrong with it and what it leaves for the next one. -/
structure Step where
  instruction : Instruction
  problems : List Malformed
  carry : Carry

/-- The instruction of a chunk whose opcode is not defined. -/
def unknownStep (t : Table) (env : Environment) (c : Chunk) : Step where
  instruction := {
    offset := c.offset
    opcode := c.opcode
    opname := t.nameOf c.opcode
    size := c.width
    startsLine := env.lineStarts[c.offset]? }
  problems := [.unknownOpcode c.opcode]
  carry := {}

/-- The operand of a chunk with what extensions add to it, when the opcode takes one. -/
def operandOf (t : Table) (c : Chunk) (carry : Carry) : Option Nat :=
  if t.hasArgument c.opcode then some (c.raw + carry.pending) else none

/-- An instruction with its operand resolved, and what is wrong with the operand. -/
def withOperand (i : Instruction) (arg : Nat) (resolved : Except Malformed Resolved) :
    Instruction × List Malformed :=
  let i := { i with arg := some arg, hasArg := true }
  match resolved with
  | .ok r => ({ i with value := r.value, repr := r.repr, kind := r.kind }, [])
  | .error p =>
    let repr := match p with
      | .indexOutOfRange _ index _ => "<index " ++ Text.decimal index ++ ">"
      | _ => ""
    ({ i with value := .int arg, repr := repr, kind := .count }, [p])

/-- What an extension leaves for the next instruction: its operand, shifted. -/
def extend (t : Table) (arg : Option Nat) : Nat × List Malformed :=
  match arg with
  | none => (0, [])
  | some a =>
    match OperandFormat.shift? a t.settings.extendedArgShift with
    | some shifted => (shifted, [])
    | none => (0, [.operandOverflow])

/-- The instruction of a chunk whose opcode is defined. -/
def knownStep (t : Table) (env : Environment) (info : OpInfo) (carry : Carry) (c : Chunk) : Step :=
  let sum := operandOf t c carry
  let arg := sum.filter (· < UInt64.size)
  let overflow := if sum.isSome && arg.isNone then [Malformed.operandOverflow] else []
  let isExtension := t.extendedArg == some c.opcode
  let extension := if isExtension then extend t arg else (0, [])
  let base : Instruction := {
    offset := c.offset
    opcode := c.opcode
    opname := info.name
    startsLine := env.lineStarts[c.offset]?
    hasExtendedArg := !isExtension && carry.start.isSome
    size := if isExtension then c.width else c.next - carry.start.getD c.offset
    stackEffect := stackEffect t c.opcode arg }
  let result := match arg with
    | none => (base, [])
    | some a => withOperand base a (resolve t env info c.opcode a c.next)
  { instruction := result.1
    problems := overflow ++ extension.2 ++ result.2
    carry := ⟨extension.1, if isExtension then some (carry.start.getD c.offset) else none⟩ }

/-- The instruction of a chunk. -/
def step (t : Table) (env : Environment) (carry : Carry) (c : Chunk) : Step :=
  match t.info c.opcode with
  | some info => knownStep t env info carry c
  | none => unknownStep t env c

/-- The cache words of a chunk as instructions, from an offset on. -/
def cacheWords (opcode offset : Nat) : List UInt8 → List Instruction
  | _ :: content :: rest =>
    { offset := offset
      opcode := opcode
      opname := "CACHE"
      arg := some content.toNat
      kind := .cache
      size := 2
      isCache := true } :: cacheWords opcode (offset + 2) rest
  | _ => []

/-- The opcode of cache words. -/
def cacheOpcode (t : Table) : Nat :=
  (t.opcodeOf "CACHE").getD 0

/-- The instructions of chunks, and what is wrong with them. -/
def decodeChunks (t : Table) (env : Environment) (showCaches : Bool) (carry : Carry) :
    List Chunk → Decoded
  | [] => ⟨[], []⟩
  | c :: rest =>
    let s := step t env carry c
    let caches := if showCaches then cacheWords (cacheOpcode t) c.next c.caches else []
    let more := decodeChunks t env showCaches s.carry rest
    ⟨s.instruction :: (caches ++ more.instructions),
      s.problems.map (Fault.mk c.offset) ++ more.faults⟩

/-- The offsets that a jump or an exception handler leads to. -/
def targets (env : Environment) (instructions : List Instruction) : List Nat :=
  instructions.filterMap Instruction.jumpTarget ++ env.exceptionEntries.map (·.target)

/-- The instructions, with those at the given offsets marked. Cache words are never marked. -/
def markTargets (offsets : List Nat) (instructions : List Instruction) : List Instruction :=
  instructions.map fun i =>
    if i.isCache then i else { i with isJumpTarget := offsets.contains i.offset }

end Decode

open Decode

/-- The instructions of bytecode. -/
def decode (t : Table) (env : Environment) (showCaches : Bool) (code : List UInt8) : Decoded :=
  let cut := chunks t 0 code
  let d := decodeChunks t env showCaches {} cut.1
  ⟨markTargets (targets env d.instructions) d.instructions, d.faults ++ cut.2.toList⟩

end Disassembler
