import Disassembler.Proofs.Tiling
import Mathlib.Data.List.Chain

/-!
# Code without faults

**Input.**  Any table, environment and bytecode.

**Results.**
* `faultless_decode`: where nothing is wrong with bytecode, the table knows every instruction, and
  its operand was resolved.
* `isChain_short_decode`: after an instruction that extends no operand comes one whose operand has
  two bytes at most.
-/

namespace Disassembler
namespace Decode

section Faults

/-- An instruction that the table knows and whose operand was resolved. -/
structure Faultless (t : Table) (env : Environment) (i : Instruction) (info : OpInfo) : Prop where
  known : t.info i.opcode = some info
  name : i.opname = info.name
  effect : i.stackEffect = stackEffect t i.opcode i.arg
  operand : t.hasArgument i.opcode = true →
    ∃ a next r, i.arg = some a ∧ resolve t env info i.opcode a next = .ok r ∧ i.value = r.value
  bare : t.hasArgument i.opcode = false → i.value = .none

variable {t : Table} {env : Environment} {i : Instruction} {info : OpInfo}

/-- Only operands of the class of constants are resolved to constants. -/
theorem is_const_of_resolve
    {opcode arg next : Nat} {r : Resolved} {c : Constant}
    (h : resolve t env info opcode arg next = .ok r)
    (hvalue : r.value = .const c) :
    t.is opcode .const = true := by
  grind [resolve, resolveName, resolveVariable, resolveJump, resolveComparison]

theorem Faultless.is_const
    {c : Constant}
    (h : Faultless t env i info)
    (hvalue : i.value = .const c) :
    t.is i.opcode .const = true := by
  cases hargument : t.hasArgument i.opcode with
  | false =>
      rw [h.bare hargument] at hvalue
      cases hvalue
  | true =>
      obtain ⟨a, next, r, _, hresolve, heq⟩ := h.operand hargument
      rw [heq] at hvalue
      exact is_const_of_resolve hresolve hvalue

/-- The operand of a name that may ask for an empty slot is bounded by the number of names. -/
theorem Faultless.lt_of_nullPush
    (h : Faultless t env i info)
    (hargument : t.hasArgument i.opcode = true)
    (hconst : t.is i.opcode .const = false)
    (hname : t.is i.opcode .name = true)
    (hencoding : info.encoding = .nullPush) :
    ∃ a, i.arg = some a ∧ a < 2 * env.names.length := by
  obtain ⟨a, next, r, harg, hresolve, _⟩ := h.operand hargument
  refine ⟨a, harg, ?_⟩
  simp only [resolve, hconst, hname, resolveName, nameIndex, hencoding, entry, Bool.false_eq_true,
    if_false, if_true] at hresolve
  split at hresolve
  · cases hresolve
  · rename_i hentry
    split at hentry
    · rename_i hget
      have hlt := (List.getElem?_eq_some_iff.mp hget).1
      omega
    · cases hentry

/-- The mark of a jump target is no part of what is resolved. -/
theorem Faultless.mark
    (h : Faultless t env i info) (mark : Bool) :
    Faultless t env { i with isJumpTarget := mark } info :=
  ⟨h.known, h.name, h.effect, h.operand, h.bare⟩

/-- A step without problems gives an instruction that is known and resolved. -/
theorem faultless_step
    {carry : Carry} {c : Chunk}
    (h : (step t env carry c).problems = []) :
    ∃ info, Faultless t env (step t env carry c).instruction info := by
  unfold step at h ⊢
  cases hinfo : t.info c.opcode with
  | none =>
      simp [hinfo, unknownStep] at h
  | some info =>
      simp only [hinfo] at h ⊢
      refine ⟨info, ?_⟩
      cases hargument : t.hasArgument c.opcode with
      | false =>
          have hsum : operandOf t c carry = none := by
            simp [operandOf, hargument]
          simp only [knownStep, hsum, Option.filter_none]
          exact ⟨hinfo, rfl, rfl, by simp [hargument], fun _ => rfl⟩
      | true =>
          have hsum : operandOf t c carry = some (c.raw + carry.pending) := by
            simp [operandOf, hargument]
          simp only [knownStep, hsum, List.append_eq_nil_iff] at h ⊢
          by_cases hfits : c.raw + carry.pending < UInt64.size
          · have hfilter : (some (c.raw + carry.pending)).filter (· < UInt64.size) =
                some (c.raw + carry.pending) := by
              simp [Option.filter, hfits]
            simp only [hfilter] at h ⊢
            cases hresolve : resolve t env info c.opcode (c.raw + carry.pending) c.next with
            | error p =>
                simp [hresolve, withOperand] at h
            | ok r =>
                refine ⟨hinfo, rfl, rfl, ?_, by simp [withOperand, hargument]⟩
                intro _
                exact ⟨_, c.next, r, rfl, hresolve, rfl⟩
          · simp [Option.filter, hfits] at h

end Faults

section Operands

variable {t : Table} {env : Environment}

theorem littleEndian_lt
    {bytes : List UInt8}
    (h : bytes.length ≤ 2) :
    littleEndian bytes < 65536 := by
  match bytes with
  | [] =>
      simp [littleEndian]
  | [b] =>
      have hb := b.toNat_lt
      simp only [littleEndian]
      omega
  | [b, c] =>
      have hb := b.toNat_lt
      have hc := c.toNat_lt
      simp only [littleEndian]
      omega
  | _ :: _ :: _ :: rest =>
      simp only [List.length_cons] at h
      omega

/-- An instruction has two operand bytes at most. -/
theorem IsChunk.raw_lt
    {code : List UInt8} {o : Nat} {c : Chunk}
    (h : IsChunk t code o c) :
    c.raw < 65536 := by
  have hlength : ((code.drop (o + 1)).take (widthAt t code o - 1)).length ≤ 2 := by
    have hwidth : widthAt t code o ≤ 3 := by
      unfold widthAt
      split
      · omega
      · split <;> omega
    rw [List.length_take]
    omega
  rw [h.raw]
  exact littleEndian_lt hlength

/-- The operand of an instruction, if it has one, has two bytes. -/
def TwoBytesAtMost (i : Instruction) : Prop :=
  ∀ a, i.arg = some a → a < 65536

/-- An instruction that extends no operand comes before one whose operand has two bytes. -/
def Short (t : Table) (i j : Instruction) : Prop :=
  t.extendedArg ≠ some i.opcode → TwoBytesAtMost j

theorem withOperand_arg
    (i : Instruction) (arg : Nat) (resolved : Except Malformed Resolved) :
    (withOperand i arg resolved).1.arg = some arg := by
  cases resolved <;> rfl

/-- With nothing carried over, an operand is what its bytes say. -/
theorem twoBytesAtMost_step
    {carry : Carry} {c : Chunk}
    (hpending : carry.pending = 0)
    (hraw : c.raw < 65536) :
    TwoBytesAtMost (step t env carry c).instruction := by
  intro a ha
  unfold step at ha
  split at ha
  · simp only [knownStep] at ha
    split at ha
    · cases ha
    · rename_i b hb
      rw [withOperand_arg, Option.some.injEq] at ha
      subst ha
      obtain ⟨hsum, _⟩ := Option.filter_eq_some_iff.mp hb
      simp only [operandOf, Option.ite_none_right_eq_some, Option.some.injEq] at hsum
      omega
  · cases ha

/-- Only extensions leave something for the next instruction. -/
theorem carry_of_not_extension
    {carry : Carry} {c : Chunk}
    (h : t.extendedArg ≠ some c.opcode) :
    (step t env carry c).carry = {} := by
  unfold step
  split
  · simp [knownStep, h]
  · rfl

theorem isChain_short_decodeChunks
    {cs : List Chunk} (carry : Carry)
    (hraw : ∀ c ∈ cs, c.raw < 65536) :
    (decodeChunks t env false carry cs).instructions.IsChain (Short t) ∧
      (carry.pending = 0 →
        ∀ i ∈ (decodeChunks t env false carry cs).instructions.head?, TwoBytesAtMost i) := by
  induction cs generalizing carry with
  | nil =>
      refine ⟨List.IsChain.nil, ?_⟩
      rintro _ i ⟨⟩
  | cons c cs ih =>
      obtain ⟨hchain, hhead⟩ := ih (step t env carry c).carry
        (fun d hd => hraw d (List.mem_cons_of_mem c hd))
      rw [decodeChunks_cons, List.head?_cons]
      refine ⟨List.isChain_cons.mpr ⟨?_, hchain⟩, ?_⟩
      · intro j hj hextension
        rw [(step_frame t env carry c).2.1] at hextension
        exact hhead (congrArg Carry.pending (carry_of_not_extension hextension)) j hj
      · intro hpending i hi
        obtain rfl : (step t env carry c).instruction = i := by simpa using hi
        exact twoBytesAtMost_step hpending (hraw c List.mem_cons_self)

end Operands

section Listings

variable {t : Table} {env : Environment} {code : List UInt8}

theorem faultless_decodeChunks
    {cs : List Chunk} (carry : Carry)
    (h : (decodeChunks t env false carry cs).faults = []) :
    ∀ i ∈ (decodeChunks t env false carry cs).instructions, ∃ info, Faultless t env i info := by
  induction cs generalizing carry with
  | nil =>
      intro i hi
      cases hi
  | cons c cs ih =>
      rw [decodeChunks_cons, List.append_eq_nil_iff, List.map_eq_nil_iff] at h
      intro i hi
      rcases List.mem_cons.mp hi with rfl | hi
      · exact faultless_step h.1
      · exact ih _ h.2 i hi

/-- Where nothing is wrong, every instruction is known and resolved. -/
theorem faultless_decode
    (h : (decode t env false code).faults = []) :
    ∀ i ∈ (decode t env false code).instructions, ∃ info, Faultless t env i info := by
  simp only [decode, List.append_eq_nil_iff] at h
  intro i hi
  simp only [decode, markTargets, List.mem_map] at hi
  obtain ⟨j, hj, rfl⟩ := hi
  obtain ⟨info, hinfo⟩ := faultless_decodeChunks {} h.1 j hj
  split
  · exact ⟨info, hinfo⟩
  · exact ⟨info, hinfo.mark _⟩

/-- After an instruction that extends no operand comes one whose operand has two bytes. -/
theorem isChain_short_decode :
    (decode t env false code).instructions.IsChain (Short t) := by
  have hraw : ∀ c ∈ (chunks t 0 code).1, c.raw < 65536 := by
    intro c hc
    exact ((cut_chunks t code).isChunk c hc).1.raw_lt
  have hchain : (decodeChunks t env false {} (chunks t 0 code).1).instructions.IsChain (Short t) :=
    (isChain_short_decodeChunks {} hraw).1
  simp only [decode, markTargets]
  refine List.isChain_map_of_isChain _ ?_ hchain
  intro i j hshort hextension a ha
  have hopcode : t.extendedArg ≠ some i.opcode := by
    split at hextension <;> exact hextension
  have harg : j.arg = some a := by
    split at ha <;> exact ha
  exact hshort hopcode a harg

end Listings
end Decode
end Disassembler
