import Disassembler.Proofs.Caches
import Disassembler.Proofs.Finalized
import Disassembler.Proofs.Steps

/-!
# Each fault once

A step looks at one instruction in several places, and each may find something wrong.  They exclude
each other: an operand that does not fit is looked at no further, and the operand of an extension
stands for itself, so there is nothing to look up.

**Input.**  A finalized table whose extensions are in no operand class; any environment and
bytecode, with cache words listed or not.

**Results.**
* `length_problems_step`: a step finds at most one thing wrong.
* `ascending_decodeChunks`: so faults have ascending offsets.
* `faultsApart_decode`: a truncation comes last and after all instructions, and every other fault
  has an instruction of its own.
* `find?_eq_some_iff_of_ascending`: each fault is the one that is found at its offset.
-/

namespace Disassembler
namespace Decode

section Steps

/-- The operands of extensions stand for themselves. -/
def PlainExtensions (t : Table) : Prop :=
  ∀ x info env a next, t.extendedArg = some x →
    resolve t env info x a next = .ok ⟨.int a, t.renderOperand x a, .count⟩

/-- Extensions in no operand class of a finalized table stand for themselves. -/
theorem plainExtensions_of_operandClasses
    {b : Table.Builder}
    (hreach : Table.Reachable b) (hfrozen : b.frozen = true)
    (hclasses : ∀ x, b.table.opcodeOf "EXTENDED_ARG" = some x →
      ∀ c ∈ OpClass.operand, b.table.is x c = false) :
    PlainExtensions b.table := by
  intro x info env a next hextension
  rw [hreach.extendedArg_eq hfrozen] at hextension
  have hnone := hclasses x hextension
  simp only [OpClass.operand, List.forall_mem_cons] at hnone
  obtain ⟨hname, hconst, hslot, hfree, hrel, habs, hcompare, _⟩ := hnone
  have hjump : b.table.isJump x = false := by
    rw [Bool.eq_false_iff, ne_eq, hreach.isJump_iff hfrozen, hrel, habs]
    simp
  simp only [resolve, hconst, hname, hslot, hfree, hjump, hcompare, Bool.false_eq_true, if_false]

variable {t : Table}

theorem length_extend
    (a : Nat) :
    (extend t (some a)).2.length ≤ 1 := by
  simp only [extend]
  split <;> simp

theorem Records.length_le
    {a : Nat} {i : Instruction} {problems : List Malformed} {resolved : Except Malformed Resolved}
    (h : Records a i problems resolved) :
    problems.length ≤ 1 := by
  cases h with
  | resolved _ _ _ hnone =>
      simp [hnone]
  | unresolved _ _ hone =>
      simp [hone]

/-- A step finds at most one thing wrong. -/
theorem length_problems_step
    (hextensions : PlainExtensions t) (env : Environment) (carry : Carry) (c : Chunk) :
    (step t env carry c).problems.length ≤ 1 := by
  cases hinfo : t.info c.opcode with
  | none =>
      simp [step, hinfo, unknownStep]
  | some info =>
      cases hoperand : t.hasArgument c.opcode with
      | false =>
          simp [step, hinfo, knownStep, operandOf, hoperand, extend]
      | true =>
          by_cases hfits : c.raw + carry.pending < UInt64.size
          · obtain ⟨_, problems, hproblems, hrecords⟩ := step_of_fits env hinfo hoperand hfits
            rw [hproblems, List.length_append]
            by_cases hextension : t.extendedArg = some c.opcode
            · rw [hextensions c.opcode info env _ c.next hextension] at hrecords
              cases hrecords with
              | resolved _ _ _ hnone =>
                  rw [hnone, if_pos hextension]
                  exact length_extend _
            · rw [if_neg hextension, List.length_nil, Nat.zero_add]
              exact hrecords.length_le
          · rw [(step_of_overflow hinfo hoperand hfits).2]
            simp

end Steps

section Listings

variable {t : Table} {env : Environment} {showCaches : Bool} {code : List UInt8}

/-- Faults with ascending offsets. -/
def Ascending (faults : List Fault) : Prop :=
  faults.Pairwise fun f g => f.offset < g.offset

/-- Of faults with ascending offsets, the one at an offset is the one that is found there. -/
theorem find?_eq_some_iff_of_ascending
    {faults : List Fault} {f : Fault} {offset : Nat}
    (h : Ascending faults) :
    faults.find? (fun f => f.offset == offset) = some f ↔ f ∈ faults ∧ f.offset = offset := by
  constructor
  · intro hfind
    exact ⟨List.mem_of_find?_eq_some hfind, by simpa using List.find?_some hfind⟩
  · rintro ⟨hf, rfl⟩
    obtain ⟨before, after, rfl⟩ := List.append_of_mem hf
    have hbefore : ∀ g ∈ before, (g.offset == f.offset) = false := by
      intro g hg
      have hlt := (List.pairwise_append.mp h).2.2 g hg f List.mem_cons_self
      exact beq_eq_false_iff_ne.mpr hlt.ne
    exact List.find?_eq_some_iff_append.mpr
      ⟨beq_self_eq_true _, before, after, rfl, by simpa using hbefore⟩

/-- The faults of chunks in order have ascending offsets. -/
theorem ascending_decodeChunks
    (hextensions : PlainExtensions t) {cs : List Chunk}
    (hcs : (cs.map Chunk.offset).Pairwise (· < ·)) (carry : Carry) :
    Ascending (decodeChunks t env showCaches carry cs).faults := by
  induction cs generalizing carry with
  | nil =>
      exact List.Pairwise.nil
  | cons c cs ih =>
      rw [List.map_cons, List.pairwise_cons] at hcs
      rw [decodeChunks_cons]
      refine List.pairwise_append.mpr ⟨?_, ih hcs.2 _, ?_⟩
      · have hone := length_problems_step hextensions env carry c
        match hproblems : (step t env carry c).problems, hone with
        | [], _ =>
            exact List.Pairwise.nil
        | [p], _ =>
            exact List.pairwise_singleton _ _
      · intro f hf g hg
        obtain ⟨p, _, rfl⟩ := List.mem_map.mp hf
        obtain ⟨d, hd, hoffset⟩ := offset_of_mem_faults hg
        rw [hoffset]
        exact hcs.1 _ (List.mem_map_of_mem hd)

variable (t env showCaches code)

/-- A fault that is no truncation has the offset of an instruction that is no cache word. -/
theorem exists_instruction_of_fault
    {f : Fault}
    (hf : f ∈ (decodeChunks t env showCaches {} (chunks t 0 code).1).faults) :
    ∃ i ∈ (decode t env showCaches code).instructions,
      i.isCache = false ∧ i.offset = f.offset := by
  obtain ⟨c, hc, hoffset⟩ := offset_of_mem_faults hf
  have hstart : f.offset ∈ starts (decode t env showCaches code) := by
    rw [starts_decode, hoffset]
    exact List.mem_map_of_mem hc
  obtain ⟨i, hi, heq⟩ := List.mem_map.mp hstart
  obtain ⟨hmem, hplain⟩ := List.mem_filter.mp hi
  exact ⟨i, hmem, by simpa using hplain, heq⟩

/-- All instructions lie before the place where decoding stops. -/
theorem offset_lt_stopAt
    {i : Instruction}
    (hi : i ∈ (decode t env showCaches code).instructions) :
    i.offset < stopAt code (chunks t 0 code).2 := by
  have hextent := extent_le_of_mem_decode t env showCaches code hi
  have hpos := extent_pos t code (place i)
  omega

/-- Faults lie within the bytecode, or right at its end. -/
theorem fault_le_length
    {f : Fault}
    (hf : f ∈ (decode t env showCaches code).faults) :
    f.offset ≤ code.length := by
  have hstop := (cut_chunks t code).stopAt_bounds.2
  rcases List.mem_append.mp hf with hf | hf
  · obtain ⟨i, hi, _, heq⟩ := exists_instruction_of_fault t env showCaches code hf
    have hlt := offset_lt_stopAt t env showCaches code hi
    omega
  · rw [Option.mem_def.mp (Option.mem_toList.mp hf)] at hstop
    exact hstop

/-- Faults are recorded once each: their offsets ascend, a truncation is the last one and comes
after all instructions, and any other has an instruction of its own. -/
structure FaultsApart (d : Decoded) : Prop where
  ascending : Ascending d.faults
  truncated : ∀ f ∈ d.faults, ∀ needed remaining, f.problem = .truncated needed remaining →
    d.faults.getLast? = some f ∧ ∀ i ∈ d.instructions, i.offset < f.offset
  other : ∀ f ∈ d.faults, NotTruncated f.problem →
    ∃ i ∈ d.instructions, i.isCache = false ∧ i.offset = f.offset

theorem faultsApart_decode
    (hextensions : PlainExtensions t) :
    FaultsApart (decode t env showCaches code) := by
  have hothers := notTruncated_decodeChunks t env showCaches {} (chunks t 0 code).1
  have hplaces := fun f => exists_instruction_of_fault t env showCaches code (f := f)
  have hfaults : (decode t env showCaches code).faults =
      (decodeChunks t env showCaches {} (chunks t 0 code).1).faults ++
        (chunks t 0 code).2.toList := rfl
  have hstop : ∀ f ∈ (chunks t 0 code).2, ∀ i ∈ (decode t env showCaches code).instructions,
      i.offset < f.offset := by
    intro f hf i hi
    have hlt := offset_lt_stopAt t env showCaches code hi
    rw [Option.mem_def.mp hf] at hlt
    exact hlt
  constructor
  case ascending =>
    rw [hfaults]
    refine List.pairwise_append.mpr ⟨ascending_decodeChunks hextensions
      (chunks_ascending t code) {}, ?_, ?_⟩
    · cases (chunks t 0 code).2 <;> simp
    · intro f hf g hg
      obtain ⟨i, hi, _, heq⟩ := hplaces f hf
      rw [← heq]
      exact hstop g (Option.mem_toList.mp hg) i hi
  case truncated =>
    intro f hf needed remaining hproblem
    rw [hfaults] at hf ⊢
    rcases List.mem_append.mp hf with hf | hf
    · exact absurd hproblem (hothers f hf needed remaining)
    · have hcut := Option.mem_toList.mp hf
      exact ⟨by simp [Option.mem_def.mp hcut], hstop f hcut⟩
  case other =>
    intro f hf hproblem
    rw [hfaults] at hf
    rcases List.mem_append.mp hf with hf | hf
    · exact hplaces f hf
    · exact absurd hproblem ((cut_chunks t code).truncated f (Option.mem_toList.mp hf))

end Listings
end Decode
end Disassembler
