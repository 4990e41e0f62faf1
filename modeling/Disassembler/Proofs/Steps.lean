import Disassembler.Proofs.Faultless

/-!
# The steps behind a listing

Decoding takes one step per chunk, and a step hands on to the next only what extensions leave.

**Input.**  Any table, environment and bytecode, with cache words listed or not.

**Results.**
* `step_of_fits`, `step_of_overflow`: what the step of a chunk with an operand gives.
* `split_decodeChunks`: a listing that is cut before an instruction comes from chunks that are cut.
* `exists_step_of_mem_decode`: every instruction of a listing is that of a step, but for its mark.
* `mem_faults_decode_iff`: what is wrong at an offset is what the step there finds wrong.
-/

namespace Disassembler
namespace Decode

section Operands

variable {t : Table} {env : Environment} {carry : Carry} {c : Chunk} {info : OpInfo}

/-- The operand bytes of the instruction at an offset, the low one first. -/
def operandAt (t : Table) (code : List UInt8) (o : Nat) : Nat :=
  if t.settings.wordcode then (code.getD (o + 1) 0).toNat
  else if t.hasArgument (opcodeAt code o) then
    (code.getD (o + 1) 0).toNat + 256 * (code.getD (o + 2) 0).toNat
  else 0

theorem take_drop_getD
    {code : List UInt8} {o : Nat} (n : Nat)
    (h : o < code.length) :
    (code.drop o).take (n + 1) = code.getD o 0 :: (code.drop (o + 1)).take n := by
  rw [List.drop_eq_getElem_cons h, List.take_succ_cons]
  simp [List.getD, h]

/-- The operand of a chunk is made of the operand bytes where it stands. -/
theorem IsChunk.raw_eq
    {code : List UInt8} {o : Nat}
    (h : IsChunk t code o c)
    (hfits : o + widthAt t code o ≤ code.length) :
    c.raw = operandAt t code o := by
  rw [h.raw]
  unfold operandAt
  unfold widthAt at hfits ⊢
  split
  · rename_i hword
    rw [if_pos hword] at hfits
    rw [take_drop_getD 0 (by omega)]
    simp [littleEndian]
  · rename_i hword
    rw [if_neg hword] at hfits
    split
    · rename_i hoperand
      rw [if_pos hoperand] at hfits
      rw [take_drop_getD 1 (by omega), take_drop_getD 0 (by omega)]
      simp [littleEndian]
    · simp [littleEndian]

/-- What a step records of a resolved operand, and of one that cannot be resolved. -/
inductive Records (a : Nat) (i : Instruction) (problems : List Malformed) :
    Except Malformed Resolved → Prop
  | resolved {r : Resolved}
      (hvalue : i.value = r.value)
      (hrepr : i.repr = r.repr)
      (hkind : i.kind = r.kind)
      (hproblems : problems = []) :
      Records a i problems (.ok r)
  | unresolved {p : Malformed}
      (hvalue : i.value = .int a)
      (hkind : i.kind = .count)
      (hproblems : problems = [p]) :
      Records a i problems (.error p)

theorem records_withOperand
    (i : Instruction) (a : Nat) (resolved : Except Malformed Resolved) :
    Records a (withOperand i a resolved).1 (withOperand i a resolved).2 resolved := by
  cases resolved with
  | ok r =>
      exact .resolved rfl rfl rfl rfl
  | error p =>
      exact .unresolved rfl rfl rfl

theorem operandOf_eq_some
    (h : t.hasArgument c.opcode = true) :
    operandOf t c carry = some (c.raw + carry.pending) := by
  simp [operandOf, h]

theorem filter_of_fits
    {a : Nat}
    (h : a < UInt64.size) :
    (some a).filter (· < UInt64.size) = some a := by
  simp [Option.filter, h]

/-- An operand that fits is resolved.  What is wrong is that an extension is too large, or what
resolving finds. -/
theorem step_of_fits
    (env : Environment)
    (hinfo : t.info c.opcode = some info)
    (hoperand : t.hasArgument c.opcode = true)
    (hfits : c.raw + carry.pending < UInt64.size) :
    (step t env carry c).instruction.arg = some (c.raw + carry.pending) ∧
    ∃ problems,
      (step t env carry c).problems =
        (if t.extendedArg = some c.opcode then (extend t (some (c.raw + carry.pending))).2
          else []) ++ problems ∧
      Records (c.raw + carry.pending) (step t env carry c).instruction problems
        (resolve t env info c.opcode (c.raw + carry.pending) c.next) := by
  simp only [step, hinfo, knownStep, operandOf_eq_some hoperand, filter_of_fits hfits]
  refine ⟨withOperand_arg _ _ _, _, ?_, records_withOperand _ _ _⟩
  by_cases hextension : t.extendedArg = some c.opcode <;> simp [hextension]

/-- An operand that does not fit is left out, and nothing is handed on. -/
theorem step_of_overflow
    (hinfo : t.info c.opcode = some info)
    (hoperand : t.hasArgument c.opcode = true)
    (hover : ¬ c.raw + carry.pending < UInt64.size) :
    (step t env carry c).instruction.arg = none ∧
    (step t env carry c).problems = [.operandOverflow] := by
  have hfilter : (some (c.raw + carry.pending)).filter (· < UInt64.size) = none := by
    simp [Option.filter, hover]
  simp only [step, hinfo, knownStep, operandOf_eq_some hoperand, hfilter]
  by_cases hextension : t.extendedArg = some c.opcode <;> simp [hextension, extend]

/-- Only a known opcode that takes an operand gives one, and only if it fits. -/
theorem operand_of_step
    {a : Nat}
    (h : (step t env carry c).instruction.arg = some a) :
    (∃ info, t.info c.opcode = some info) ∧ t.hasArgument c.opcode = true ∧
      a = c.raw + carry.pending ∧ a < UInt64.size := by
  unfold step at h
  cases hinfo : t.info c.opcode with
  | none =>
      rw [hinfo] at h
      cases h
  | some info =>
      rw [hinfo] at h
      simp only [knownStep] at h
      split at h
      · cases h
      · rename_i b hb
        rw [withOperand_arg, Option.some.injEq] at h
        subst h
        obtain ⟨hsum, hlt⟩ := Option.filter_eq_some_iff.mp hb
        simp only [operandOf, Option.ite_none_right_eq_some, Option.some.injEq] at hsum
        exact ⟨⟨info, rfl⟩, hsum.1, hsum.2.symm, by simpa using hlt⟩

theorem kind_of_no_operand
    (h : (step t env carry c).instruction.arg = none) :
    (step t env carry c).instruction.kind = .none := by
  unfold step at h ⊢
  cases hinfo : t.info c.opcode with
  | none =>
      rfl
  | some info =>
      simp only [hinfo, knownStep] at h ⊢
      cases hfilter : (operandOf t c carry).filter (· < UInt64.size) with
      | none =>
          rfl
      | some a =>
          simp only [hfilter, withOperand_arg] at h
          cases h

theorem withOperand_extent
    (i : Instruction) (a : Nat) (resolved : Except Malformed Resolved) :
    (withOperand i a resolved).1.hasExtendedArg = i.hasExtendedArg ∧
    (withOperand i a resolved).1.size = i.size := by
  cases resolved <;> exact ⟨rfl, rfl⟩

/-- An extension counts its own bytes; any other instruction counts from the first of the extensions
before it. -/
theorem step_extent
    (env : Environment) (carry : Carry)
    (hinfo : t.info c.opcode = some info) :
    (step t env carry c).instruction.hasExtendedArg =
      (!(t.extendedArg == some c.opcode) && carry.start.isSome) ∧
    (step t env carry c).instruction.size =
      if t.extendedArg == some c.opcode then c.width
      else c.next - carry.start.getD c.offset := by
  simp only [step, hinfo, knownStep]
  split
  · exact ⟨rfl, rfl⟩
  · exact withOperand_extent _ _ _

end Operands

section Runs

variable (t : Table) (env : Environment) (showCaches : Bool)

/-- What chunks leave for the next instruction. -/
def carryAfter (carry : Carry) (cs : List Chunk) : Carry :=
  cs.foldl (fun k c => (step t env k c).carry) carry

theorem decodeChunks_append
    (carry : Carry) (xs ys : List Chunk) :
    decodeChunks t env showCaches carry (xs ++ ys) =
      ⟨(decodeChunks t env showCaches carry xs).instructions ++
          (decodeChunks t env showCaches (carryAfter t env carry xs) ys).instructions,
        (decodeChunks t env showCaches carry xs).faults ++
          (decodeChunks t env showCaches (carryAfter t env carry xs) ys).faults⟩ := by
  induction xs generalizing carry with
  | nil =>
      rfl
  | cons c xs ih =>
      simp only [List.cons_append, decodeChunks_cons, ih, List.append_assoc]
      rfl

theorem carryAfter_append
    (carry : Carry) (xs ys : List Chunk) :
    carryAfter t env carry (xs ++ ys) = carryAfter t env (carryAfter t env carry xs) ys :=
  List.foldl_append

variable {t env showCaches} {carry : Carry} {cs : List Chunk}

/-- A listing that is cut before an instruction comes from chunks that are cut. -/
theorem split_decodeChunks
    {before rest : List Instruction}
    (h : (decodeChunks t env showCaches carry cs).instructions = before ++ rest)
    (hrest : ∀ i ∈ rest.head?, i.isCache = false) :
    ∃ xs ys, cs = xs ++ ys ∧
      (decodeChunks t env showCaches carry xs).instructions = before ∧
      (decodeChunks t env showCaches (carryAfter t env carry xs) ys).instructions = rest := by
  induction cs generalizing carry before with
  | nil =>
      obtain ⟨rfl, rfl⟩ := List.nil_eq_append_iff.mp h
      exact ⟨[], [], rfl, rfl, rfl⟩
  | cons c cs ih =>
      cases before with
      | nil =>
          exact ⟨[], c :: cs, rfl, rfl, h⟩
      | cons i before =>
          rw [decodeChunks_cons, List.cons_append, List.cons.injEq] at h
          obtain ⟨hfirst, hmore⟩ := h
          rcases List.append_eq_append_iff.mp hmore with ⟨tail, rfl, hsplit⟩ | ⟨words, hwords, rfl⟩
          · obtain ⟨xs, ys, rfl, rfl, hys⟩ := ih hsplit
            refine ⟨c :: xs, ys, rfl, ?_, hys⟩
            rw [decodeChunks_cons, hfirst]
          · -- The cut cannot fall among the cache words of the chunk.
            have hnone : words = [] := by
              cases words with
              | nil =>
                  rfl
              | cons w words =>
                  have hplain := hrest w (by simp)
                  have hmem : w ∈ listedCaches t showCaches c := by
                    rw [hwords]
                    simp
                  have hcache := (listedCaches_frame t showCaches c w hmem).1
                  rw [hplain] at hcache
                  cases hcache
            subst hnone
            refine ⟨[c], cs, rfl, ?_, rfl⟩
            rw [List.append_nil] at hwords
            rw [decodeChunks_cons, hfirst, ← hwords]
            simp [decodeChunks]

theorem offset_of_mem_faults
    {f : Fault}
    (h : f ∈ (decodeChunks t env showCaches carry cs).faults) :
    ∃ c ∈ cs, f.offset = c.offset := by
  induction cs generalizing carry with
  | nil =>
      cases h
  | cons c cs ih =>
      rw [decodeChunks_cons] at h
      rcases List.mem_append.mp h with h | h
      · obtain ⟨p, _, rfl⟩ := List.mem_map.mp h
        exact ⟨c, List.mem_cons_self, rfl⟩
      · obtain ⟨d, hd, hoffset⟩ := ih h
        exact ⟨d, List.mem_cons_of_mem c hd, hoffset⟩

end Runs

section Listings

variable {t : Table} {env : Environment} {showCaches : Bool} {code : List UInt8}
  {xs ys : List Chunk} {c : Chunk}

theorem lt_after
    (t : Table) (code : List UInt8) (o : Nat) :
    o < after t code o := by
  unfold after widthAt
  split
  · omega
  · split <;> omega

theorem chunks_ascending
    (t : Table) (code : List UInt8) :
    ((chunks t 0 code).1.map Chunk.offset).Pairwise (· < ·) := by
  refine List.IsChain.pairwise ((cut_chunks t code).follows.imp ?_)
  rintro a b rfl
  exact lt_after t code a

theorem Cut.truncated
    {o : Nat} {cs : List Chunk} {stop : Option Fault}
    (h : Cut t code o cs stop) :
    ∀ f ∈ stop, ¬ NotTruncated f.problem := by
  induction h with
  | done =>
      simp
  | short =>
      rintro f hf hp
      cases hf
      exact hp _ _ rfl
  | shortCaches =>
      rintro f hf hp
      cases hf
      exact hp _ _ rfl
  | next _ _ _ _ _ ih =>
      exact ih

/-- What is wrong at the offset of a chunk is what its step finds wrong. -/
theorem mem_faults_decode_iff
    (env : Environment) (showCaches : Bool) {p : Malformed}
    (hcut : (chunks t 0 code).1 = xs ++ c :: ys)
    (hp : NotTruncated p) :
    ⟨c.offset, p⟩ ∈ (decode t env showCaches code).faults ↔
      p ∈ (step t env (carryAfter t env {} xs) c).problems := by
  have hascending := chunks_ascending t code
  rw [hcut, List.map_append, List.map_cons, List.pairwise_append, List.pairwise_cons] at hascending
  obtain ⟨_, ⟨hafter, _⟩, hbefore⟩ := hascending
  have helsewhere : ∀ (carry : Carry) (cs : List Chunk),
      (∀ d ∈ cs, d.offset ≠ c.offset) →
      ⟨c.offset, p⟩ ∉ (decodeChunks t env showCaches carry cs).faults := by
    intro carry cs hcs hf
    obtain ⟨d, hd, hoffset⟩ := offset_of_mem_faults hf
    exact hcs d hd hoffset.symm
  have hxs := helsewhere {} xs fun d hd =>
    (hbefore _ (List.mem_map_of_mem hd) _ List.mem_cons_self).ne
  have hys := helsewhere (step t env (carryAfter t env {} xs) c).carry ys fun d hd =>
    (hafter _ (List.mem_map_of_mem hd)).ne'
  have hstop : ⟨c.offset, p⟩ ∉ (chunks t 0 code).2.toList := by
    intro hf
    exact (cut_chunks t code).truncated _ (Option.mem_toList.mp hf) hp
  simp only [decode, hcut, decodeChunks_append, decodeChunks_cons, List.mem_append, hxs, hys,
    hstop, false_or, or_false, List.mem_map, Fault.mk.injEq, true_and, exists_eq_right]

/-- An instruction, marked if it stands at one of the given offsets. -/
def mark (offsets : List Nat) (i : Instruction) : Instruction :=
  if i.isCache then i else { i with isJumpTarget := offsets.contains i.offset }

theorem markTargets_eq_map
    (offsets : List Nat) (instructions : List Instruction) :
    markTargets offsets instructions = instructions.map (mark offsets) :=
  rfl

theorem exists_mark
    (offsets : List Nat) (i : Instruction) :
    ∃ m, mark offsets i = { i with isJumpTarget := m } := by
  unfold mark
  split
  · exact ⟨i.isJumpTarget, rfl⟩
  · exact ⟨_, rfl⟩

theorem isCache_mark
    (offsets : List Nat) (i : Instruction) :
    (mark offsets i).isCache = i.isCache := by
  obtain ⟨m, hm⟩ := exists_mark offsets i
  rw [hm]

/-- A marked listing that is cut before an instruction comes from chunks that are cut. -/
theorem split_markTargets
    {carry : Carry} {cs : List Chunk} {offsets : List Nat} {before rest : List Instruction}
    (h : markTargets offsets (decodeChunks t env showCaches carry cs).instructions = before ++ rest)
    (hrest : ∀ i ∈ rest.head?, i.isCache = false) :
    ∃ xs ys, cs = xs ++ ys ∧
      markTargets offsets (decodeChunks t env showCaches carry xs).instructions = before ∧
      markTargets offsets
        (decodeChunks t env showCaches (carryAfter t env carry xs) ys).instructions = rest := by
  obtain ⟨first, second, hsplit, rfl, rfl⟩ := List.map_eq_append_iff.mp h
  have hsecond : ∀ i ∈ second.head?, i.isCache = false := by
    intro i hi
    rw [← isCache_mark offsets i]
    refine hrest _ ?_
    rw [List.head?_map]
    exact Option.mem_map_of_mem _ hi
  obtain ⟨xs, ys, rfl, rfl, rfl⟩ := split_decodeChunks hsplit hsecond
  exact ⟨xs, ys, rfl, rfl, rfl⟩

/-- Every instruction of a listing is that of a step, but for its mark. -/
theorem exists_step_of_mem_decode
    {i : Instruction}
    (hi : i ∈ (decode t env showCaches code).instructions)
    (hplain : i.isCache = false) :
    ∃ xs c ys m, (chunks t 0 code).1 = xs ++ c :: ys ∧
      i = { (step t env (carryAfter t env {} xs) c).instruction with isJumpTarget := m } := by
  obtain ⟨before, rest, hsplit⟩ := List.append_of_mem hi
  simp only [decode] at hsplit
  obtain ⟨xs, ys, hcut, _, hrest⟩ := split_markTargets hsplit (by simpa using hplain)
  cases ys with
  | nil =>
      cases hrest
  | cons c ys =>
      rw [decodeChunks_cons, markTargets_eq_map, List.map_cons, List.cons.injEq] at hrest
      obtain ⟨m, hm⟩ := exists_mark _ (step t env (carryAfter t env {} xs) c).instruction
      exact ⟨xs, c, ys, m, hcut, hrest.1.symm.trans hm⟩

end Listings
end Decode
end Disassembler
