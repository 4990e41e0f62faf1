import Disassembler.Proofs.Derived
import Disassembler.Proofs.Steps

/-!
# Decoding bytecode that goes on

Decoding looks no further ahead than the instruction and the cache words that it cuts off.  So what
was decoded stands when more bytes are appended, but for two things: where the bytecode was too
short decoding now goes on, and new jumps may lead back into what was decoded before.

**Input.**  Any table, environment and bytecode, with cache words listed or not, and any bytes to
append.

**Results.**
* `Grows cs ds`: the chunks `ds` go on where the chunks `cs` stop; the last one of `cs` may be
  without its cache words.  So grow the chunks of bytecode with bytes appended (`grows_chunks`).
* `decodeChunks_grows`: what is decoded of such chunks goes on likewise.
* `decode_appended`: decoding bytecode with bytes appended keeps all instructions, all marks and all
  faults but a truncation.
-/

namespace Disassembler
namespace Decode

section Cutting

/-- Chunks that go on where others stop, which is before a chunk or before its cache words. -/
inductive Grows : List Chunk → List Chunk → Prop
  | stopped (ds : List Chunk) :
      Grows [] ds
  | stoppedInCaches (d : Chunk) (ds : List Chunk) :
      Grows [{ d with caches := [] }] (d :: ds)
  | next (c : Chunk) {cs ds : List Chunk}
      (hrest : Grows cs ds) :
      Grows (c :: cs) (c :: ds)

variable (t : Table) (offset : Nat) (b : UInt8) (rest : List UInt8)

/-- Where the bytes of an operand are there, an instruction is cut off, with cache words or
without. -/
theorem chunks_of_operand
    (hoperand : operandBytes t b.toNat ≤ rest.length) :
    ∃ caches ds, (chunks t offset (b :: rest)).1 =
      ⟨offset, b.toNat, littleEndian (rest.take (operandBytes t b.toNat)),
        1 + operandBytes t b.toNat, caches⟩ :: ds := by
  rw [chunks]
  simp only [Nat.not_lt.mpr hoperand, if_false]
  split
  · exact ⟨[], [], rfl⟩
  · exact ⟨_, _, rfl⟩

/-- Where the cache words are there as well, cutting goes on after them. -/
theorem chunks_of_caches
    (hoperand : operandBytes t b.toNat ≤ rest.length)
    (hcaches : cacheBytes t b.toNat ≤ (rest.drop (operandBytes t b.toNat)).length) :
    (chunks t offset (b :: rest)).1 =
      ⟨offset, b.toNat, littleEndian (rest.take (operandBytes t b.toNat)),
        1 + operandBytes t b.toNat,
        (rest.drop (operandBytes t b.toNat)).take (cacheBytes t b.toNat)⟩ ::
      (chunks t (offset + (1 + operandBytes t b.toNat) + cacheBytes t b.toNat)
        ((rest.drop (operandBytes t b.toNat)).drop (cacheBytes t b.toNat))).1 := by
  rw [chunks]
  simp only [Nat.not_lt.mpr hoperand, Nat.not_lt.mpr hcaches, if_false]

/-- The chunks of bytecode grow with the bytes that are appended. -/
theorem grows_chunks
    (bytes more : List UInt8) :
    Grows (chunks t offset bytes).1 (chunks t offset (bytes ++ more)).1 := by
  fun_induction chunks t offset bytes with
  | case1 offset =>
      exact .stopped _
  | case2 offset b rest opcode operand width hshort =>
      exact .stopped _
  | case3 offset b rest opcode operand caches width hfits raw tail hshort =>
      have hoperand : operandBytes t b.toNat ≤ rest.length := Nat.not_lt.mp hfits
      obtain ⟨words, ds, hchunks⟩ := chunks_of_operand t offset b (rest ++ more)
        (hoperand.trans (List.sublist_append_left rest more).length_le)
      rw [List.take_append_of_le_length hoperand] at hchunks
      rw [List.cons_append, hchunks]
      exact .stoppedInCaches ⟨offset, opcode, raw, width, words⟩ ds
  | case4 offset b rest opcode operand caches width hfits raw tail hfitsCaches next ih =>
      -- Both the operand and the cache words lie before the appended bytes.
      have hoperand : operandBytes t b.toNat ≤ rest.length := Nat.not_lt.mp hfits
      have hcaches : cacheBytes t b.toNat ≤ (rest.drop (operandBytes t b.toNat)).length :=
        Nat.not_lt.mp hfitsCaches
      have htail : (rest ++ more).drop (operandBytes t b.toNat) =
          rest.drop (operandBytes t b.toNat) ++ more :=
        List.drop_append_of_le_length hoperand
      have hchunks := chunks_of_caches t offset b (rest ++ more)
        (hoperand.trans (List.sublist_append_left rest more).length_le)
        (by rw [htail, List.length_append]; omega)
      rw [List.take_append_of_le_length hoperand, htail, List.take_append_of_le_length hcaches,
        List.drop_append_of_le_length hcaches] at hchunks
      rw [List.cons_append, hchunks]
      exact .next _ ih

end Cutting

section Decoding

variable (t : Table) (env : Environment) (showCaches : Bool)

/-- The step of a chunk does not look at its cache words. -/
theorem step_withoutCaches
    (carry : Carry) (c : Chunk) :
    step t env carry { c with caches := [] } = step t env carry c := by
  rfl

/-- What is decoded of chunks stands when the chunks grow. -/
theorem decodeChunks_grows
    {cs ds : List Chunk}
    (h : Grows cs ds) (carry : Carry) :
    (decodeChunks t env showCaches carry cs).instructions <+:
      (decodeChunks t env showCaches carry ds).instructions ∧
    (decodeChunks t env showCaches carry cs).faults <+:
      (decodeChunks t env showCaches carry ds).faults := by
  induction h generalizing carry with
  | stopped ds =>
      exact ⟨List.nil_prefix, List.nil_prefix⟩
  | stoppedInCaches d ds =>
      rw [decodeChunks_cons, decodeChunks_cons, step_withoutCaches]
      constructor
      · cases showCaches <;> simp [listedCaches, cacheWords, decodeChunks]
      · simp [decodeChunks]
  | next c hrest ih =>
      obtain ⟨hinstructions, hfaults⟩ := ih (step t env carry c).carry
      rw [decodeChunks_cons, decodeChunks_cons]
      constructor
      · exact List.prefix_cons_inj _ |>.mpr ((List.prefix_append_right_inj _).mpr hinstructions)
      · exact (List.prefix_append_right_inj _).mpr hfaults

/-- An instruction without its mark. -/
def unmark (i : Instruction) : Instruction :=
  { i with isJumpTarget := false }

/-- The faults without a truncation at the end. -/
def withoutTruncation (faults : List Fault) : List Fault :=
  match faults.getLast? with
  | some ⟨_, .truncated _ _⟩ => faults.dropLast
  | _ => faults

theorem withoutTruncation_of_forall
    {faults : List Fault}
    (h : ∀ f ∈ faults, NotTruncated f.problem) :
    withoutTruncation faults = faults := by
  unfold withoutTruncation
  split
  · rename_i hlast
    exact absurd rfl (h _ (List.mem_of_getLast? hlast) _ _)
  · rfl

/-- The fault that ends cutting is the truncation at the end. -/
theorem withoutTruncation_decode
    (code : List UInt8) :
    withoutTruncation (decode t env showCaches code).faults =
      (decodeChunks t env showCaches {} (chunks t 0 code).1).faults := by
  have hothers := notTruncated_decodeChunks t env showCaches {} (chunks t 0 code).1
  have hstop := (cut_chunks t code).truncated
  simp only [decode]
  cases hcut : (chunks t 0 code).2 with
  | none =>
      rw [Option.toList_none, List.append_nil, withoutTruncation_of_forall hothers]
  | some f =>
      obtain ⟨offset, problem⟩ := f
      have hproblem := hstop _ hcut
      cases problem with
      | truncated needed remaining =>
          simp [withoutTruncation]
      | _ =>
          exact absurd (by simp [NotTruncated]) hproblem

theorem unmark_mark
    (offsets : List Nat) (i : Instruction) :
    unmark (mark offsets i) = unmark i := by
  obtain ⟨m, hm⟩ := exists_mark offsets i
  rw [hm]
  rfl

theorem isJumpTarget_mark_mono
    {offsets offsets' : List Nat} {i : Instruction}
    (hoffsets : offsets ⊆ offsets')
    (h : (mark offsets i).isJumpTarget = true) :
    (mark offsets' i).isJumpTarget = true := by
  unfold mark at h ⊢
  split at h
  · rename_i hcache
    rwa [if_pos hcache]
  · rename_i hcache
    rw [if_neg hcache]
    exact List.contains_iff_mem.mpr (hoffsets (List.contains_iff_mem.mp h))

/-- Jumps and handlers lead to the same places when more instructions come after them. -/
theorem targets_subset
    {is js : List Instruction}
    (h : is <+: js) :
    targets env is ⊆ targets env js := by
  unfold targets
  refine List.append_subset.mpr ⟨?_, List.subset_append_right _ _⟩
  exact List.Subset.trans (h.sublist.filterMap _).subset (List.subset_append_left _ _)

/-- Decoding bytecode with bytes appended keeps all instructions but for their marks, every mark,
and all faults but a truncation at the end. -/
theorem decode_appended
    (code more : List UInt8) :
    (decode t env showCaches code).instructions.map unmark <+:
      (decode t env showCaches (code ++ more)).instructions.map unmark ∧
    (∀ (k : Nat) (i j : Instruction),
      (decode t env showCaches code).instructions[k]? = some i →
      (decode t env showCaches (code ++ more)).instructions[k]? = some j →
      i.isJumpTarget = true → j.isJumpTarget = true) ∧
    withoutTruncation (decode t env showCaches code).faults <+:
      (decode t env showCaches (code ++ more)).faults := by
  obtain ⟨hinstructions, hfaults⟩ :=
    decodeChunks_grows t env showCaches (grows_chunks t 0 code more) {}
  refine ⟨?_, ?_, ?_⟩
  · simp only [decode, markTargets_eq_map, List.map_map, Function.comp_def, unmark_mark]
    exact hinstructions.map unmark
  · intro k i j hi hj hmarked
    simp only [decode, markTargets_eq_map, List.getElem?_map, Option.map_eq_some_iff] at hi hj
    obtain ⟨i', hi', rfl⟩ := hi
    obtain ⟨j', hj', rfl⟩ := hj
    have hsubset := targets_subset env hinstructions
    obtain ⟨tail, htail⟩ := hinstructions
    have hsame : j' = i' := by
      have hk := (List.getElem?_eq_some_iff.mp hi').1
      rw [← htail, List.getElem?_append_left hk, hi'] at hj'
      exact (Option.some.inj hj').symm
    rw [hsame]
    exact isJumpTarget_mark_mono hsubset hmarked
  · rw [withoutTruncation_decode]
    exact hfaults.trans (List.prefix_append _ _)

end Decoding

section Sample

/-- A load of a name that is missing, a jump over nothing, and an attribute that is missing, cut off
in its cache word. -/
def cutAttribute : List UInt8 :=
  [101, 5, 112, 4, 9, 0, 106, 0, 0]

/-- With the rest of the cache word and a jump to the start appended, the truncation is gone and one
more instruction is marked; all else stands. -/
theorem decode_appended_cutAttribute :
    (decode .sample {} true cutAttribute).instructions.map (fun i => (i.offset, i.isJumpTarget)) =
      [(0, false), (2, false), (4, true), (6, false)] ∧
    (decode .sample {} true cutAttribute).faults =
      [⟨0, .indexOutOfRange .names 5 0⟩, ⟨6, .indexOutOfRange .names 0 0⟩,
        ⟨8, .truncated 2 1⟩] ∧
    (decode .sample {} true (cutAttribute ++ [0, 112, 0])).instructions.map
        (fun i => (i.offset, i.isJumpTarget)) =
      [(0, true), (2, false), (4, true), (6, false), (8, false), (10, false)] ∧
    (decode .sample {} true (cutAttribute ++ [0, 112, 0])).faults =
      [⟨0, .indexOutOfRange .names 5 0⟩, ⟨6, .indexOutOfRange .names 0 0⟩] ∧
    (decode .sample {} true cutAttribute).instructions.map unmark <+:
      (decode .sample {} true (cutAttribute ++ [0, 112, 0])).instructions.map unmark := by
  obtain ⟨hinstructions, _, _⟩ := decode_appended .sample {} true cutAttribute [0, 112, 0]
  refine ⟨?_, ?_, ?_, ?_, hinstructions⟩ <;> decide +kernel

end Sample
end Decode
end Disassembler
