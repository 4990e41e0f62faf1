import Disassembler.Proofs.Finalized
import Disassembler.Proofs.Steps

/-!
# Where jumps lead

A jump counts its operand in units of the table: from the first byte, or from the next instruction
on or back.

**Input.**  Any finalized table, environment and bytecode, with cache words listed or not.

**Results.**
* `jumpTarget?_eq_some_iff`: resolving finds the exact target, where it and the distance fit.
* `decode_jumps`: every jump of a listing is resolved to its exact target or recorded as out of
  range, and the marked instructions are just those that a jump or an exception handler leads to.
-/

namespace Disassembler
namespace Decode

section Targets

variable {t : Table} {info : OpInfo} {opcode a next : Nat}

/-- The offset that a relative jump counts from, `next` being the offset after its operand. -/
def jumpBase (info : OpInfo) (next : Nat) : Nat :=
  next + 2 * info.cacheEntries

/-- The target of a jump over the integers. -/
def exactTarget (t : Table) (info : OpInfo) (opcode a next : Nat) : Int :=
  if t.is opcode .jumpAbs then a * t.settings.jumpUnit
  else if info.backward then jumpBase info next - a * t.settings.jumpUnit
  else jumpBase info next + a * t.settings.jumpUnit

/-- The distance and the target of a jump fit sixty-four bits. -/
def InRange (t : Table) (info : OpInfo) (opcode a next : Nat) : Prop :=
  a * t.settings.jumpUnit < UInt64.size ∧
    0 ≤ exactTarget t info opcode a next ∧ exactTarget t info opcode a next < (UInt64.size : Int)

instance : Decidable (InRange t info opcode a next) :=
  inferInstanceAs (Decidable (_ ∧ _))

/-- Resolving a jump finds its exact target, where that is in range. -/
theorem jumpTarget?_eq_some_iff
    {target : Nat} :
    jumpTarget? t info opcode a next = some target ↔
      InRange t info opcode a next ∧ (target : Int) = exactTarget t info opcode a next := by
  simp only [jumpTarget?, InRange, exactTarget, relativeTarget, jumpBase]
  generalize hd : a * t.settings.jumpUnit = d
  have hcast : (a : Int) * (t.settings.jumpUnit : Int) = (d : Int) := by
    rw [← hd]
    exact (Int.natCast_mul _ _).symm
  rw [hcast]
  generalize UInt64.size = size
  by_cases hfits : d < size
  · rw [if_pos hfits, Option.filter_eq_some_iff]
    cases t.is opcode .jumpAbs with
    | true =>
        simp only [if_true, Option.some.injEq, decide_eq_true_eq]
        omega
    | false =>
        cases info.backward with
        | true =>
            simp only [Bool.false_eq_true, if_false, if_true, Option.ite_none_right_eq_some,
              Option.some.injEq, decide_eq_true_eq]
            omega
        | false =>
            simp only [Bool.false_eq_true, if_false, Option.some.injEq, decide_eq_true_eq]
            omega
  · simp [hfits]

end Targets

section Steps

variable {b : Table.Builder} {env : Environment} {carry : Carry} {c : Chunk} {info : OpInfo}

/-- In a frozen table an opcode that jumps is in no other operand class, so its operand is resolved
as a jump. -/
theorem resolve_of_jump
    {opcode a next : Nat}
    (hreach : Table.Reachable b) (hfrozen : b.frozen = true)
    (hjump : b.table.is opcode .jumpRel = true ∨ b.table.is opcode .jumpAbs = true) :
    resolve b.table env info opcode a next = resolveJump b.table info opcode a next := by
  have hother : ∀ d ∈ OpClass.operand, d ≠ .jumpRel → d ≠ .jumpAbs →
      ¬ b.table.is opcode d = true := by
    intro d hd hrel habs hod
    rcases hjump with hjump | hjump
    · exact hrel (hreach.operandClass_unique hfrozen hd (by decide) hod hjump)
    · exact habs (hreach.operandClass_unique hfrozen hd (by decide) hod hjump)
  rw [resolve, if_neg (hother .const (by decide) (by decide) (by decide)),
    if_neg (hother .name (by decide) (by decide) (by decide)),
    if_neg (hother .slot (by decide) (by decide) (by decide)),
    if_neg (hother .free (by decide) (by decide) (by decide)),
    if_pos ((hreach.isJump_iff hfrozen).mpr hjump)]

theorem jumpOutOfRange_not_mem_extend
    (t : Table) (arg : Option Nat) :
    Malformed.jumpOutOfRange ∉ (extend t arg).2 := by
  unfold extend
  split
  · simp
  · split <;> simp

theorem jumpTarget_eq_some_iff
    {i : Instruction} {o : Nat} :
    i.jumpTarget = some o ↔ (i.kind = .jumpRel ∨ i.kind = .jumpAbs) ∧ i.value = .target o := by
  unfold Instruction.jumpTarget
  split
  · simp_all
  · simp_all
  · rename_i hrel habs
    constructor
    · intro h
      cases h
    · rintro ⟨hkind | hkind, hvalue⟩
      · exact absurd hvalue (hrel o hkind)
      · exact absurd hvalue (habs o hkind)

/-- A jump gets its exact target if that is in range, and is recorded as out of range if not. -/
theorem step_of_jump
    {a : Nat}
    (hreach : Table.Reachable b) (hfrozen : b.frozen = true)
    (hinfo : b.table.info c.opcode = some info)
    (hjump : b.table.is c.opcode .jumpRel = true ∨ b.table.is c.opcode .jumpAbs = true)
    (harg : (step b.table env carry c).instruction.arg = some a) :
    (InRange b.table info c.opcode a c.next →
      ∃ n : Nat, (n : Int) = exactTarget b.table info c.opcode a c.next ∧
        (step b.table env carry c).instruction.value = .target n ∧
        (step b.table env carry c).instruction.repr = "to " ++ Text.decimal n ∧
        (step b.table env carry c).instruction.jumpTarget = some n ∧
        .jumpOutOfRange ∉ (step b.table env carry c).problems) ∧
    (¬ InRange b.table info c.opcode a c.next →
      (step b.table env carry c).instruction.value = .int a ∧
        .jumpOutOfRange ∈ (step b.table env carry c).problems) := by
  obtain ⟨_, hoperand, rfl, hfits⟩ := operand_of_step harg
  obtain ⟨_, problems, hproblems, hrecords⟩ := step_of_fits env hinfo hoperand hfits
  rw [resolve_of_jump hreach hfrozen hjump, resolveJump] at hrecords
  have hextension : Malformed.jumpOutOfRange ∉
      (if b.table.extendedArg = some c.opcode then
        (extend b.table (some (c.raw + carry.pending))).2 else []) := by
    split
    · exact jumpOutOfRange_not_mem_extend _ _
    · simp
  rw [hproblems]
  cases htarget : jumpTarget? b.table info c.opcode (c.raw + carry.pending) c.next with
  | some n =>
      obtain ⟨hrange, hexact⟩ := jumpTarget?_eq_some_iff.mp htarget
      rw [htarget] at hrecords
      cases hrecords with
      | resolved hvalue hrepr hkind hnone =>
          refine ⟨fun _ => ⟨n, hexact, hvalue, hrepr, ?_, ?_⟩, fun hnot => absurd hrange hnot⟩
          · refine jumpTarget_eq_some_iff.mpr ⟨?_, hvalue⟩
            rw [hkind]
            dsimp only
            split
            · exact Or.inr rfl
            · exact Or.inl rfl
          · rw [hnone, List.append_nil]
            exact hextension
  | none =>
      have hrange : ¬ InRange b.table info c.opcode (c.raw + carry.pending) c.next := by
        intro hrange
        have hsome := jumpTarget?_eq_some_iff.mpr ⟨hrange, Int.toNat_of_nonneg hrange.2.1⟩
        rw [htarget] at hsome
        cases hsome
      rw [htarget] at hrecords
      cases hrecords with
      | unresolved hvalue _ hone =>
          refine ⟨fun h => absurd h hrange, fun _ => ⟨hvalue, ?_⟩⟩
          rw [hone]
          exact List.mem_append_right _ List.mem_cons_self

theorem isJump_of_resolve
    {t : Table} {opcode a next : Nat} {r : Resolved}
    (h : resolve t env info opcode a next = .ok r)
    (hkind : r.kind = .jumpRel ∨ r.kind = .jumpAbs) :
    t.isJump opcode = true := by
  grind [resolve, resolveConst, resolveName, resolveVariable, resolveJump, resolveComparison]

/-- Only jumps with an operand lead anywhere. -/
theorem jump_of_jumpTarget
    {t : Table} {o : Nat}
    (h : (step t env carry c).instruction.jumpTarget = some o) :
    t.isJump c.opcode = true ∧ ∃ a, (step t env carry c).instruction.arg = some a := by
  obtain ⟨hkind, _⟩ := jumpTarget_eq_some_iff.mp h
  cases harg : (step t env carry c).instruction.arg with
  | none =>
      rw [kind_of_no_operand harg] at hkind
      simp at hkind
  | some a =>
      obtain ⟨⟨info, hinfo⟩, hoperand, rfl, hfits⟩ := operand_of_step harg
      obtain ⟨_, problems, _, hrecords⟩ := step_of_fits env hinfo hoperand hfits
      refine ⟨?_, _, rfl⟩
      cases hresolve : resolve t env info c.opcode (c.raw + carry.pending) c.next with
      | ok r =>
          rw [hresolve] at hrecords
          cases hrecords with
          | resolved _ _ hsame _ =>
              exact isJump_of_resolve hresolve (hsame ▸ hkind)
      | error p =>
          rw [hresolve] at hrecords
          cases hrecords with
          | unresolved _ hcount _ =>
              rw [hcount] at hkind
              simp at hkind

end Steps

section Listings

/-- An instruction of a listing jumps, with an operand. -/
structure Jumps (t : Table) (i : Instruction) (info : OpInfo) (a : Nat) : Prop where
  plain : i.isCache = false
  known : t.info i.opcode = some info
  operand : i.arg = some a
  jump : t.is i.opcode .jumpRel = true ∨ t.is i.opcode .jumpAbs = true

variable {b : Table.Builder} {env : Environment} {showCaches : Bool} {code : List UInt8}

theorem cacheWords_unmarked
    (opcode offset : Nat) (bytes : List UInt8) :
    ∀ i ∈ cacheWords opcode offset bytes, i.isJumpTarget = false := by
  fun_induction cacheWords opcode offset bytes with
  | case1 offset _ content rest ih =>
      intro i hi
      rcases List.mem_cons.mp hi with rfl | hi
      · rfl
      · exact ih i hi
  | case2 =>
      simp

theorem exists_cacheWords
    {t : Table} {carry : Carry} {cs : List Chunk} {i : Instruction}
    (hi : i ∈ (decodeChunks t env showCaches carry cs).instructions)
    (hcache : i.isCache = true) :
    ∃ opcode offset bytes, i ∈ cacheWords opcode offset bytes := by
  induction cs generalizing carry with
  | nil =>
      cases hi
  | cons c cs ih =>
      rw [decodeChunks_cons, List.mem_cons, List.mem_append] at hi
      rcases hi with rfl | hi | hi
      · rw [(step_frame t env carry c).2.2.1] at hcache
        cases hcache
      · unfold listedCaches at hi
        split at hi
        · exact ⟨_, _, _, hi⟩
        · cases hi
      · exact ih hi

/-- The offset after an instruction of a listing and the caches it announces is where the next one
stands, unless caches are announced that are not there. -/
theorem offset_eq_jumpBase
    {t : Table} {before rest : List Instruction} {i j : Instruction} {info : OpInfo}
    (hlisted : plain (decode t env showCaches code).instructions = before ++ i :: j :: rest)
    (hinfo : t.info i.opcode = some info)
    (hcaches : t.settings.wordcode = true ∨ info.cacheEntries = 0) :
    j.offset = jumpBase info (i.offset + widthAt t code i.offset) := by
  have hfollows := (cut_chunks t code).follows
  rw [← starts_decode t env showCaches, starts, hlisted, List.map_append, List.map_cons,
    List.map_cons, List.isChain_append, List.isChain_cons_cons] at hfollows
  have hi : i ∈ plain (decode t env showCaches code).instructions := by
    rw [hlisted]
    simp
  obtain ⟨byte, hbyte, hopcode⟩ := opcode_of_mem_plain_decode t env showCaches code hi
  have hat : opcodeAt code i.offset = i.opcode := by
    rw [hopcode, opcodeAt, List.getD, hbyte]
    rfl
  rw [hfollows.2.1.1, after, jumpBase, cachesAt, hat, hinfo]
  rcases hcaches with hword | hnone
  · rw [if_pos hword]
  · simp [hnone]

/-- Cache words are neither jumps nor marked. -/
theorem cacheWord_of_mem_decode
    {t : Table} {i : Instruction}
    (hi : i ∈ (decode t env showCaches code).instructions)
    (hcache : i.isCache = true) :
    i.jumpTarget = none ∧ i.isJumpTarget = false := by
  simp only [decode, markTargets_eq_map] at hi
  obtain ⟨j, hj, rfl⟩ := List.mem_map.mp hi
  rw [isCache_mark] at hcache
  obtain ⟨opcode, offset, bytes, hwords⟩ := exists_cacheWords hj hcache
  rw [mark, if_pos hcache]
  exact ⟨(cacheWords_frame opcode offset bytes j hwords).2.1, cacheWords_unmarked _ _ _ j hwords⟩

theorem jumpTarget_mark
    (offsets : List Nat) (i : Instruction) :
    (mark offsets i).jumpTarget = i.jumpTarget := by
  obtain ⟨m, hm⟩ := exists_mark offsets i
  rw [hm]
  rfl

/-- An instruction is marked if one leads to it, or an exception handler does. -/
theorem isJumpTarget_iff
    {t : Table} {i : Instruction}
    (hi : i ∈ (decode t env showCaches code).instructions)
    (hplain : i.isCache = false) :
    i.isJumpTarget = true ↔
      (∃ j ∈ (decode t env showCaches code).instructions, j.jumpTarget = some i.offset) ∨
        ∃ e ∈ env.exceptionEntries, e.target = i.offset := by
  simp only [decode, markTargets_eq_map] at hi ⊢
  generalize (decodeChunks t env showCaches {} (chunks t 0 code).1).instructions = listing at hi ⊢
  obtain ⟨j, hj, rfl⟩ := List.mem_map.mp hi
  rw [isCache_mark] at hplain
  have hmarked : mark (targets env listing) j =
      { j with isJumpTarget := (targets env listing).contains j.offset } := by
    rw [mark, if_neg (by simp [hplain])]
  rw [hmarked]
  simp only [targets, List.contains_iff_mem, List.mem_append, List.mem_filterMap, List.mem_map,
    exists_exists_and_eq_and, jumpTarget_mark]

/-- The instructions that lead somewhere are the jumps with a target. -/
theorem jumpTarget_eq_some_iff_jumps
    {i : Instruction} {o : Nat}
    (hreach : Table.Reachable b) (hfrozen : b.frozen = true)
    (hi : i ∈ (decode b.table env showCaches code).instructions) :
    i.jumpTarget = some o ↔ ∃ info a, Jumps b.table i info a ∧ i.value = .target o := by
  constructor
  · intro h
    have hplain : i.isCache = false := by
      cases hcache : i.isCache with
      | false =>
          rfl
      | true =>
          rw [(cacheWord_of_mem_decode hi hcache).1] at h
          cases h
    obtain ⟨xs, c, ys, m, _, rfl⟩ := exists_step_of_mem_decode hi hplain
    obtain ⟨hjump, a, harg⟩ := jump_of_jumpTarget h
    obtain ⟨⟨info, hinfo⟩, _⟩ := operand_of_step harg
    have hopcode := (step_frame b.table env (carryAfter b.table env {} xs) c).2.1
    refine ⟨info, a, ⟨hplain, ?_, harg, ?_⟩, (jumpTarget_eq_some_iff.mp h).2⟩
    · exact hopcode ▸ hinfo
    · exact hopcode ▸ (hreach.isJump_iff hfrozen).mp hjump
  · rintro ⟨info, a, hjumps, hvalue⟩
    obtain ⟨xs, c, ys, m, _, rfl⟩ := exists_step_of_mem_decode hi hjumps.plain
    have hopcode := (step_frame b.table env (carryAfter b.table env {} xs) c).2.1
    obtain ⟨hin, hout⟩ := step_of_jump hreach hfrozen (hopcode ▸ hjumps.known)
      (hopcode ▸ hjumps.jump) hjumps.operand
    by_cases hrange : InRange b.table info c.opcode a c.next
    · obtain ⟨n, _, htarget, _, hleads, _⟩ := hin hrange
      have hn : n = o := OperandValue.target.inj (htarget.symm.trans hvalue)
      subst hn
      exact hleads
    · have hint := (hout hrange).1
      exact absurd (hint.symm.trans hvalue) (by simp)

/-- A jump of a listing has its exact target if that is in range, and a fault if not. -/
theorem resolves_of_jumps
    {i : Instruction} {info : OpInfo} {a : Nat}
    (hreach : Table.Reachable b) (hfrozen : b.frozen = true)
    (hi : i ∈ (decode b.table env showCaches code).instructions)
    (hjumps : Jumps b.table i info a) :
    (InRange b.table info i.opcode a (i.offset + widthAt b.table code i.offset) →
      ∃ n : Nat,
        (n : Int) =
          exactTarget b.table info i.opcode a (i.offset + widthAt b.table code i.offset) ∧
        i.value = .target n ∧ i.repr = "to " ++ Text.decimal n ∧
        ⟨i.offset, .jumpOutOfRange⟩ ∉ (decode b.table env showCaches code).faults) ∧
    (¬ InRange b.table info i.opcode a (i.offset + widthAt b.table code i.offset) →
      i.value = .int a ∧
        ⟨i.offset, .jumpOutOfRange⟩ ∈ (decode b.table env showCaches code).faults) := by
  obtain ⟨xs, c, ys, m, hcut, rfl⟩ := exists_step_of_mem_decode hi hjumps.plain
  obtain ⟨hoffset, hopcode, _⟩ := step_frame b.table env (carryAfter b.table env {} xs) c
  have hchunk := ((cut_chunks b.table code).isChunk c (by rw [hcut]; simp)).1
  have hnext : c.offset + widthAt b.table code c.offset = c.next := by
    rw [Chunk.next, hchunk.width]
  have hfault := mem_faults_decode_iff env showCaches hcut
    (p := .jumpOutOfRange) (fun _ _ => by simp)
  obtain ⟨hin, hout⟩ := step_of_jump hreach hfrozen (hopcode ▸ hjumps.known)
    (hopcode ▸ hjumps.jump) hjumps.operand
  dsimp only
  rw [hoffset, hopcode, hnext, hfault]
  refine ⟨?_, hout⟩
  intro hrange
  obtain ⟨n, hexact, hvalue, hrepr, _, hnone⟩ := hin hrange
  exact ⟨n, hexact, hvalue, hrepr, hnone⟩

/-- In a listing by a finalized table every jump whose distance and exact target fit sixty-four bits
has that target, and any other one its bare operand and a fault that says so; a jump counts from
where the next instruction stands.  An instruction is marked exactly when a jump has its offset for
a target or an exception handler starts there, and a cache word never is. -/
theorem decode_jumps
    (hreach : Table.Reachable b) (hfrozen : b.frozen = true)
    (env : Environment) (showCaches : Bool) (code : List UInt8) :
    (∀ i ∈ (decode b.table env showCaches code).instructions, ∀ info a,
      Jumps b.table i info a →
      (InRange b.table info i.opcode a (i.offset + widthAt b.table code i.offset) →
        ∃ n : Nat,
          (n : Int) =
            exactTarget b.table info i.opcode a (i.offset + widthAt b.table code i.offset) ∧
          i.value = .target n ∧ i.repr = "to " ++ Text.decimal n ∧
          ⟨i.offset, .jumpOutOfRange⟩ ∉ (decode b.table env showCaches code).faults) ∧
      (¬ InRange b.table info i.opcode a (i.offset + widthAt b.table code i.offset) →
        i.value = .int a ∧
          ⟨i.offset, .jumpOutOfRange⟩ ∈ (decode b.table env showCaches code).faults) ∧
      (b.table.settings.wordcode = true ∨ info.cacheEntries = 0 →
        ∀ before j rest,
          plain (decode b.table env showCaches code).instructions = before ++ i :: j :: rest →
          j.offset = jumpBase info (i.offset + widthAt b.table code i.offset))) ∧
    (∀ i ∈ (decode b.table env showCaches code).instructions, i.isCache = false →
      (i.isJumpTarget = true ↔
        (∃ j ∈ (decode b.table env showCaches code).instructions, ∃ info a,
          Jumps b.table j info a ∧ j.value = .target i.offset) ∨
        ∃ e ∈ env.exceptionEntries, e.target = i.offset)) ∧
    (∀ i ∈ (decode b.table env showCaches code).instructions, i.isCache = true →
      i.isJumpTarget = false) := by
  refine ⟨?_, ?_, fun i hi hcache => (cacheWord_of_mem_decode hi hcache).2⟩
  · intro i hi info a hjumps
    obtain ⟨hin, hout⟩ := resolves_of_jumps hreach hfrozen hi hjumps
    refine ⟨hin, hout, ?_⟩
    intro hcaches before j rest hlisted
    exact offset_eq_jumpBase hlisted hjumps.known hcaches
  · intro i hi hplain
    rw [isJumpTarget_iff hi hplain]
    refine or_congr ?_ Iff.rfl
    refine exists_congr fun j => and_congr_right fun hj => ?_
    exact jumpTarget_eq_some_iff_jumps hreach hfrozen hj

end Listings

section Sample

/-- A jump on, one back over its cache word, and one back past the first byte. -/
def jumpCode : List UInt8 :=
  [110, 1, 9, 0, 140, 3, 0, 0, 140, 200, 0, 0]

/-- What the table knows about the jumps back. -/
def backInfo : OpInfo :=
  ⟨"JUMP_BACKWARD", 0, 0, none, none, none, .plain, 1, true⟩

/-- The second jump of the sample leads back to the instruction between the first two, which is
marked; the third is out of range. -/
theorem decode_jumps_jumpCode :
    ∃ i j k,
      i ∈ (decode Table.sampleFrozen.table {} true jumpCode).instructions ∧
      j ∈ (decode Table.sampleFrozen.table {} true jumpCode).instructions ∧
      k ∈ (decode Table.sampleFrozen.table {} true jumpCode).instructions ∧
      i.offset = 4 ∧ i.value = .target 2 ∧
      j.offset = 8 ∧ j.value = .int 200 ∧
      ⟨8, .jumpOutOfRange⟩ ∈ (decode Table.sampleFrozen.table {} true jumpCode).faults ∧
      k.offset = 2 ∧ k.isJumpTarget = true := by
  obtain ⟨hjumps, hmarks, _⟩ := decode_jumps Table.reachable_sampleFrozen
    Table.frozen_sampleFrozen {} true jumpCode
  have hlisting : ((decode Table.sampleFrozen.table {} true jumpCode).instructions.map
      fun i => (i.offset, i.opcode, i.arg, i.isCache)) =
      [(0, 110, some 1, false), (2, 9, none, false), (4, 140, some 3, false),
        (6, 0, some 0, true), (8, 140, some 200, false), (10, 0, some 0, true)] := by
    decide +kernel
  have hinfo : Table.sampleFrozen.table.info 140 = some backInfo := by
    decide
  have hclass : Table.sampleFrozen.table.is 140 .jumpRel = true := by
    decide
  have hrow : ∀ row ∈ [(2, 9, none, false), (4, 140, some 3, false), (8, 140, some 200, false)],
      ∃ i ∈ (decode Table.sampleFrozen.table {} true jumpCode).instructions,
        (i.offset, i.opcode, i.arg, i.isCache) = row := by
    intro row hrow
    rw [← List.mem_map, hlisting]
    revert row
    decide
  obtain ⟨k, hk, hkrow⟩ := hrow _ List.mem_cons_self
  obtain ⟨i, hi, hirow⟩ := hrow (4, 140, some 3, false) (by decide)
  obtain ⟨j, hj, hjrow⟩ := hrow (8, 140, some 200, false) (by decide)
  simp only [Prod.mk.injEq] at hkrow hirow hjrow
  obtain ⟨hioffset, hiopcode, hiarg, hicache⟩ := hirow
  obtain ⟨hjoffset, hjopcode, hjarg, hjcache⟩ := hjrow
  have hijumps : Jumps Table.sampleFrozen.table i backInfo 3 :=
    ⟨hicache, hiopcode ▸ hinfo, hiarg, Or.inl (hiopcode ▸ hclass)⟩
  have hjjumps : Jumps Table.sampleFrozen.table j backInfo 200 :=
    ⟨hjcache, hjopcode ▸ hinfo, hjarg, Or.inl (hjopcode ▸ hclass)⟩
  have hiresolved := (hjumps i hi _ 3 hijumps).1
  have hjresolved := (hjumps j hj _ 200 hjjumps).2.1
  rw [hioffset, hiopcode] at hiresolved
  rw [hjoffset, hjopcode] at hjresolved
  obtain ⟨n, hexact, hvalue, _⟩ := hiresolved (by decide)
  obtain ⟨hint, hfault⟩ := hjresolved (by decide)
  have hn : n = 2 := by
    have htwo : exactTarget Table.sampleFrozen.table backInfo 140 3
        (4 + widthAt Table.sampleFrozen.table jumpCode 4) = 2 := by
      decide
    omega
  subst hn
  refine ⟨i, j, k, hi, hj, hk, hioffset, hvalue, hjoffset, hint, hfault, hkrow.1, ?_⟩
  rw [hmarks k hk hkrow.2.2.2, hkrow.1]
  exact Or.inl ⟨i, hi, _, 3, hijumps, hvalue⟩

end Sample
end Decode
end Disassembler
