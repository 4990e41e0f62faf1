import Disassembler.Decode.Instruction
import Disassembler.Table.Basic

/-!
# Cutting bytecode into chunks

A chunk is the bytes of one instruction and of the cache words after it. Every instruction is two
bytes wide in a wordcode table; in any other one it is three bytes wide with an operand and one byte
without.

**Results.** `chunks` cuts bytecode from its start up to the end, or up to the first place where an
instruction or the caches after one do not fit into the bytes that are left. Where the cuts fall
depends only on the bytes and the table.
-/

namespace Disassembler
namespace Decode

/-- The bytes of one instruction and its caches. -/
structure Chunk where
  offset : Nat
  opcode : Nat
  raw : Nat
  width : Nat
  caches : List UInt8
deriving DecidableEq, Repr, Inhabited

/-- The offset after the operand. -/
def Chunk.next (c : Chunk) : Nat :=
  c.offset + c.width

/-- The number of operand bytes of an opcode. -/
def operandBytes (t : Table) (opcode : Nat) : Nat :=
  if t.settings.wordcode then 1 else if t.hasArgument opcode then 2 else 0

/-- The number of cache bytes after an instruction. -/
def cacheBytes (t : Table) (opcode : Nat) : Nat :=
  if t.settings.wordcode then
    match t.info opcode with
    | some info => 2 * info.cacheEntries
    | none => 0
  else 0

/-- The value of bytes, the low one first. -/
def littleEndian : List UInt8 → Nat
  | [] => 0
  | b :: rest => b.toNat + 256 * littleEndian rest

/-- The chunks from an offset on, and the fault that ends them early. -/
def chunks (t : Table) (offset : Nat) (bytes : List UInt8) : List Chunk × Option Fault :=
  match bytes with
  | [] => ([], none)
  | b :: rest =>
    let opcode := b.toNat
    let operand := operandBytes t opcode
    let caches := cacheBytes t opcode
    let width := 1 + operand
    if rest.length < operand then ([], some ⟨offset, .truncated width (1 + rest.length)⟩)
    else
      let raw := littleEndian (rest.take operand)
      let after := rest.drop operand
      if after.length < caches then
        ([⟨offset, opcode, raw, width, []⟩],
          some ⟨offset + width, .truncated caches after.length⟩)
      else
        let more := chunks t (offset + width + caches) (after.drop caches)
        (⟨offset, opcode, raw, width, after.take caches⟩ :: more.1, more.2)
termination_by bytes.length
decreasing_by
  simp only [List.length_drop, List.length_cons]
  omega

end Decode
end Disassembler
