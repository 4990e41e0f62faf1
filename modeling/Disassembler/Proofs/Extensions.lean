import Disassembler.Proofs.Finalized
import Disassembler.Proofs.Steps
import Mathlib.Algebra.BigOperators.Fin
import Mathlib.Tactic.Ring

/-!
# Extended operands

Extensions in a row add to the operand of the instruction after them: each shifts what has come
together before it and adds its own operand.

**Input.**  Any finalized table whose extensions take an operand, announce no cache words and shift
by less than sixty-four bits; any environment and bytecode, with cache words listed or not.

**Results.**
* `pendingAfter_eq`: what extensions leave is the sum of their operands, each with its own shift.
* `no_overflow_iff_of_extends`, `no_overflow_iff_of_operand`: when a step records no overflow.
* `noOverflow_concat_iff`: along extensions and the operand after them nothing overflows just if the
  whole sum fits.
* `Run.exists_behind`: a maximal run in a listing comes from chunks that nothing is left for.
* `decode_extended`: operands, faults and lengths of such a run.
-/

namespace Disassembler
namespace Decode

section Sums

/-- The operand that extensions with the given operands make out of the operand after them. -/
def extendedOperand (shift : Nat) (extensions : List Nat) (own : Nat) : Nat :=
  own + ∑ i : Fin extensions.length,
    extensions.get i * 2 ^ (shift * (extensions.length - i.val))

/-- What extensions leave after something was left already. -/
def pendingAfter (shift pending : Nat) : List Nat → Nat
  | [] => pending
  | e :: rest => pendingAfter shift ((e + pending) * 2 ^ shift) rest

/-- What is left only grows. -/
theorem le_pendingAfter
    (shift pending : Nat) (es : List Nat) :
    pending ≤ pendingAfter shift pending es := by
  induction es generalizing pending with
  | nil =>
      exact Nat.le_refl _
  | cons e es ih =>
      calc pending ≤ (e + pending) * 2 ^ shift :=
            Nat.le_trans (Nat.le_add_left _ _) (Nat.le_mul_of_pos_right _ (Nat.two_pow_pos shift))
        _ ≤ pendingAfter shift ((e + pending) * 2 ^ shift) es := ih _

theorem pendingAfter_eq
    (shift pending : Nat) (es : List Nat) :
    pendingAfter shift pending es =
      pending * 2 ^ (shift * es.length) +
        ∑ i : Fin es.length, es.get i * 2 ^ (shift * (es.length - i.val)) := by
  induction es generalizing pending with
  | nil =>
      simp [pendingAfter]
  | cons e es ih =>
      rw [pendingAfter, ih]
      have hsum : ∑ i : Fin (e :: es).length,
          (e :: es).get i * 2 ^ (shift * ((e :: es).length - i.val)) =
          e * 2 ^ (shift * (es.length + 1)) +
            ∑ i : Fin es.length, es.get i * 2 ^ (shift * (es.length - i.val)) := by
        refine (Fin.sum_univ_succ _).trans ?_
        simp
      rw [hsum, List.length_cons, Nat.mul_add, Nat.mul_one, pow_add]
      ring

theorem extendedOperand_eq
    (shift : Nat) (es : List Nat) (own : Nat) :
    extendedOperand shift es own = own + pendingAfter shift 0 es := by
  rw [extendedOperand, pendingAfter_eq, Nat.zero_mul, Nat.zero_add]

end Sums

section Steps

/-- An opcode that extends the operand after it, as the table says. -/
structure Extends (t : Table) (x : Nat) (info : OpInfo) : Prop where
  extendedArg : t.extendedArg = some x
  known : t.info x = some info
  operand : t.hasArgument x = true
  caches : info.cacheEntries = 0
  shift : t.settings.extendedArgShift < 64

variable {t : Table} {env : Environment} {carry : Carry} {c : Chunk} {info : OpInfo}

theorem resolve_ne_operandOverflow
    {opcode a next : Nat} :
    resolve t env info opcode a next ≠ .error .operandOverflow := by
  grind [resolve, resolveConst, resolveName, resolveVariable, resolveJump, resolveComparison, entry]

theorem Records.no_overflow
    {i : Instruction} {problems : List Malformed} {opcode a next : Nat}
    (h : Records a i problems (resolve t env info opcode a next)) :
    .operandOverflow ∉ problems := by
  generalize hresolve : resolve t env info opcode a next = resolved at h
  cases h with
  | resolved _ _ _ hnone =>
      simp [hnone]
  | unresolved _ _ hone =>
      rintro hmem
      rw [hone, List.mem_singleton] at hmem
      subst hmem
      exact resolve_ne_operandOverflow hresolve

theorem extend_of_lt
    {a : Nat}
    (hshift : t.settings.extendedArgShift < 64)
    (h : a * 2 ^ t.settings.extendedArgShift < UInt64.size) :
    extend t (some a) = (a * 2 ^ t.settings.extendedArgShift, []) := by
  simp [extend, OperandFormat.shift?, hshift, Nat.shiftLeft_eq, h]

theorem extend_of_not_lt
    {a : Nat}
    (h : ¬ a * 2 ^ t.settings.extendedArgShift < UInt64.size) :
    extend t (some a) = (0, [.operandOverflow]) := by
  simp [extend, OperandFormat.shift?, Nat.shiftLeft_eq, h]

/-- An operand that does not overflow is the one of the chunk with what was left for it. -/
theorem arg_of_no_overflow
    (hinfo : t.info c.opcode = some info)
    (hoperand : t.hasArgument c.opcode = true)
    (h : .operandOverflow ∉ (step t env carry c).problems) :
    (step t env carry c).instruction.arg = some (c.raw + carry.pending) := by
  by_cases hfits : c.raw + carry.pending < UInt64.size
  · exact (step_of_fits env hinfo hoperand hfits).1
  · rw [(step_of_overflow hinfo hoperand hfits).2] at h
    exact absurd List.mem_cons_self h

theorem no_overflow_iff_of_operand
    (hinfo : t.info c.opcode = some info)
    (hoperand : t.hasArgument c.opcode = true)
    (hown : t.extendedArg ≠ some c.opcode) :
    .operandOverflow ∉ (step t env carry c).problems ↔ c.raw + carry.pending < UInt64.size := by
  by_cases hfits : c.raw + carry.pending < UInt64.size
  · obtain ⟨_, problems, hproblems, hrecords⟩ :=
      step_of_fits env hinfo hoperand hfits
    rw [hproblems, if_neg hown, List.nil_append]
    exact iff_of_true hrecords.no_overflow hfits
  · rw [(step_of_overflow hinfo hoperand hfits).2]
    exact iff_of_false (absurd List.mem_cons_self) hfits

/-- An extension also has to fit once it is shifted. -/
theorem no_overflow_iff_of_extends
    (h : Extends t c.opcode info) :
    .operandOverflow ∉ (step t env carry c).problems ↔
      (c.raw + carry.pending) * 2 ^ t.settings.extendedArgShift < UInt64.size := by
  have hgrows : c.raw + carry.pending ≤
      (c.raw + carry.pending) * 2 ^ t.settings.extendedArgShift :=
    Nat.le_mul_of_pos_right _ (Nat.two_pow_pos _)
  by_cases hfits : c.raw + carry.pending < UInt64.size
  · obtain ⟨_, problems, hproblems, hrecords⟩ :=
      step_of_fits env h.known h.operand hfits
    rw [hproblems, if_pos h.extendedArg]
    by_cases hshifted :
        (c.raw + carry.pending) * 2 ^ t.settings.extendedArgShift < UInt64.size
    · rw [extend_of_lt h.shift hshifted, List.nil_append]
      exact iff_of_true hrecords.no_overflow hshifted
    · rw [extend_of_not_lt hshifted]
      exact iff_of_false (absurd List.mem_cons_self) hshifted
  · rw [(step_of_overflow h.known h.operand hfits).2]
    exact iff_of_false (absurd List.mem_cons_self) (by omega)

theorem pending_of_extends
    (env : Environment)
    (h : Extends t c.opcode info)
    (hfits : (c.raw + carry.pending) * 2 ^ t.settings.extendedArgShift < UInt64.size) :
    (step t env carry c).carry.pending =
      (c.raw + carry.pending) * 2 ^ t.settings.extendedArgShift := by
  have hsum : c.raw + carry.pending < UInt64.size :=
    Nat.lt_of_le_of_lt (Nat.le_mul_of_pos_right _ (Nat.two_pow_pos _)) hfits
  simp [step, h.known, knownStep, operandOf_eq_some h.operand, filter_of_fits hsum, h.extendedArg,
    extend_of_lt h.shift hfits]

theorem start_of_extends
    (env : Environment) (carry : Carry)
    (h : Extends t c.opcode info) :
    (step t env carry c).carry.start = some (carry.start.getD c.offset) := by
  simp [step, h.known, knownStep, h.extendedArg]

end Steps

section Runs

variable (t : Table) (env : Environment)

/-- No operand overflows along chunks. -/
def NoOverflow (carry : Carry) (cs : List Chunk) : Prop :=
  ∀ xs c ys, cs = xs ++ c :: ys →
    .operandOverflow ∉ (step t env (carryAfter t env carry xs) c).problems

variable {t env} {carry : Carry} {c : Chunk} {cs es : List Chunk} {info : OpInfo}

theorem noOverflow_nil :
    NoOverflow t env carry [] := by
  intro xs c ys hsplit
  simp at hsplit

theorem noOverflow_cons_iff :
    NoOverflow t env carry (c :: cs) ↔
      .operandOverflow ∉ (step t env carry c).problems ∧
        NoOverflow t env (step t env carry c).carry cs := by
  constructor
  · intro h
    exact ⟨h [] c cs rfl, fun xs d ys hsplit => h (c :: xs) d ys (hsplit ▸ rfl)⟩
  · rintro ⟨hc, hcs⟩ xs d ys hsplit
    cases xs with
    | nil =>
        obtain ⟨rfl, rfl⟩ := List.cons.inj hsplit
        exact hc
    | cons e xs =>
        obtain ⟨rfl, rfl⟩ := List.cons.inj hsplit
        exact hcs xs d ys rfl

theorem noOverflow_append_iff
    {xs ys : List Chunk} :
    NoOverflow t env carry (xs ++ ys) ↔
      NoOverflow t env carry xs ∧ NoOverflow t env (carryAfter t env carry xs) ys := by
  induction xs generalizing carry with
  | nil =>
      exact ⟨fun h => ⟨noOverflow_nil, h⟩, fun h => h.2⟩
  | cons c xs ih =>
      rw [List.cons_append, noOverflow_cons_iff, noOverflow_cons_iff, ih, and_assoc]
      rfl

/-- Extensions overflow just if what they leave together does not fit; else they leave just that. -/
theorem noOverflow_iff_of_extends
    (env : Environment) (carry : Carry)
    (hes : ∀ e ∈ es, Extends t e.opcode info)
    (hcarry : carry.pending < UInt64.size) :
    (NoOverflow t env carry es ↔
      pendingAfter t.settings.extendedArgShift carry.pending (es.map Chunk.raw) < UInt64.size) ∧
    (NoOverflow t env carry es →
      (carryAfter t env carry es).pending =
        pendingAfter t.settings.extendedArgShift carry.pending (es.map Chunk.raw)) := by
  induction es generalizing carry with
  | nil =>
      exact ⟨iff_of_true noOverflow_nil hcarry, fun _ => rfl⟩
  | cons e es ih =>
      have he := hes e List.mem_cons_self
      rw [noOverflow_cons_iff, no_overflow_iff_of_extends he, List.map_cons, pendingAfter]
      by_cases hfits : (e.raw + carry.pending) * 2 ^ t.settings.extendedArgShift < UInt64.size
      · have hpending := pending_of_extends env he hfits
        have hrest := ih (step t env carry e).carry
          (fun d hd => hes d (List.mem_cons_of_mem e hd)) (hpending ▸ hfits)
        rw [hpending] at hrest
        exact ⟨⟨fun h => hrest.1.mp h.2, fun h => ⟨hfits, hrest.1.mpr h⟩⟩, fun h => hrest.2 h.2⟩
      · -- What is too large once stays too large, as what is left only grows.
        have hgrows := le_pendingAfter t.settings.extendedArgShift
          ((e.raw + carry.pending) * 2 ^ t.settings.extendedArgShift) (es.map Chunk.raw)
        exact ⟨iff_of_false (fun h => hfits h.1) (by omega), fun h => absurd h.1 hfits⟩

/-- Extensions and the operand after them overflow just if the whole sum does not fit. -/
theorem noOverflow_concat_iff
    {own : OpInfo}
    (hes : ∀ e ∈ es, Extends t e.opcode info)
    (hinfo : t.info c.opcode = some own)
    (hoperand : t.hasArgument c.opcode = true)
    (hown : t.extendedArg ≠ some c.opcode) :
    NoOverflow t env {} (es ++ [c]) ↔
      extendedOperand t.settings.extendedArgShift (es.map Chunk.raw) c.raw < UInt64.size := by
  obtain ⟨hiff, hpending⟩ := noOverflow_iff_of_extends env {} hes (by decide)
  rw [noOverflow_append_iff, noOverflow_cons_iff, extendedOperand_eq,
    no_overflow_iff_of_operand hinfo hoperand hown]
  constructor
  · rintro ⟨hexact, hlast, _⟩
    rw [hpending hexact] at hlast
    exact hlast
  · intro h
    have hexact := hiff.mpr (Nat.lt_of_le_of_lt (Nat.le_add_left _ _) h)
    refine ⟨hexact, ?_, noOverflow_nil⟩
    rw [hpending hexact]
    exact h

/-- The first extension is kept as the start. -/
theorem start_of_extensions
    (hes : ∀ e ∈ es, Extends t e.opcode info) :
    (carryAfter t env carry es).start = carry.start.or (es.head?.map Chunk.offset) := by
  induction es generalizing carry with
  | nil =>
      simp [carryAfter]
  | cons e es ih =>
      have he := start_of_extends env carry (hes e List.mem_cons_self)
      refine (ih fun d hd => hes d (List.mem_cons_of_mem e hd)).trans ?_
      rw [he]
      cases carry.start <;> simp

end Runs

section Listings

/-- The chunks behind neighbours in a listing, which nothing is left for by those before them. -/
structure Behind (t : Table) (env : Environment) (code : List UInt8)
    (listed : List Instruction) (cs : List Chunk) : Prop where
  cut : ∃ xs ys, (chunks t 0 code).1 = xs ++ (cs ++ ys) ∧ carryAfter t env {} xs = {}
  marked : ∃ offsets, markTargets offsets (decodeChunks t env false {} cs).instructions = listed

variable {t : Table} {env : Environment} {code : List UInt8}
  {listed earlier later : List Instruction} {p : Instruction} {cs : List Chunk} {info own : OpInfo}

/-- The operand of a listed instruction, with what those before it add. -/
def accumulated (t : Table) (code : List UInt8) (earlier : List Instruction) (p : Instruction) :
    Nat :=
  extendedOperand t.settings.extendedArgShift (earlier.map fun q => operandAt t code q.offset)
    (operandAt t code p.offset)

theorem Behind.places
    (h : Behind t env code listed cs) :
    listed.map (fun i => (i.offset, i.opcode)) = cs.map fun c => (c.offset, c.opcode) := by
  obtain ⟨offsets, rfl⟩ := h.marked
  rw [map_markTargets _ (fun _ _ => rfl), ← plain_decodeChunks t env false,
    map_plain_decodeChunks]

theorem Behind.offsets
    (h : Behind t env code listed cs) :
    listed.map Instruction.offset = cs.map Chunk.offset := by
  simpa [Function.comp_def] using congrArg (List.map Prod.fst) h.places

theorem Behind.isChunk
    (h : Behind t env code listed cs) :
    ∀ c ∈ cs, IsChunk t code c.offset c ∧ c.raw = operandAt t code c.offset := by
  intro c hc
  obtain ⟨xs, ys, hcut, _⟩ := h.cut
  obtain ⟨hchunk, _, hfits⟩ := (cut_chunks t code).isChunk c (by simp [hcut, hc])
  exact ⟨hchunk, hchunk.raw_eq hfits⟩

theorem Behind.raws
    (h : Behind t env code listed cs) :
    cs.map Chunk.raw = listed.map fun i => operandAt t code i.offset := by
  calc cs.map Chunk.raw = cs.map fun c => operandAt t code c.offset :=
        List.map_congr_left fun c hc => (h.isChunk c hc).2
    _ = (cs.map Chunk.offset).map (operandAt t code) := by rw [List.map_map]; rfl
    _ = listed.map fun i => operandAt t code i.offset := by rw [← h.offsets, List.map_map]; rfl

theorem Behind.extends
    (h : Behind t env code listed cs)
    (hlisted : ∀ i ∈ listed, Extends t i.opcode info) :
    ∀ c ∈ cs, Extends t c.opcode info := by
  intro c hc
  have hplace := List.mem_map_of_mem (f := fun c => (c.offset, c.opcode)) hc
  rw [← h.places, List.mem_map] at hplace
  obtain ⟨i, hi, heq⟩ := hplace
  rw [← (Prod.mk.inj heq).2]
  exact hlisted i hi

/-- Each instruction has a chunk of its own. -/
theorem Behind.split
    (h : Behind t env code (earlier ++ p :: later) cs) :
    ∃ xs c ys, cs = xs ++ c :: ys ∧ Behind t env code earlier xs ∧ later.length = ys.length ∧
      ∃ m, p = { (step t env (carryAfter t env {} xs) c).instruction with isJumpTarget := m } := by
  obtain ⟨before, rest, hcut, hcarry⟩ := h.cut
  obtain ⟨offsets, hmarked⟩ := h.marked
  have hplain : p.isCache = false := by
    have hp : p ∈ markTargets offsets (decodeChunks t env false {} cs).instructions := by
      simp [hmarked]
    rw [← plain_decodeChunks t env false, ← plain_markTargets] at hp
    simpa using (List.mem_filter.mp hp).2
  obtain ⟨xs, ys, rfl, hxs, hys⟩ := split_markTargets hmarked (by simpa using hplain)
  cases ys with
  | nil =>
      cases hys
  | cons c ys =>
      rw [decodeChunks_cons, markTargets_eq_map, List.map_cons, List.cons.injEq] at hys
      obtain ⟨m, hm⟩ := exists_mark offsets (step t env (carryAfter t env {} xs) c).instruction
      have hearlier : Behind t env code earlier xs := by
        refine ⟨⟨before, c :: ys ++ rest, ?_, hcarry⟩, offsets, hxs⟩
        rw [hcut, List.append_assoc]
      have hlength := congrArg List.length hearlier.offsets
      have hlengths := congrArg List.length h.offsets
      simp only [List.length_map, List.length_append, List.length_cons] at hlength hlengths
      exact ⟨xs, c, ys, rfl, hearlier, by omega, m, hys.1.symm.trans hm⟩

/-- Without overflow, an instruction has the operand that those before it extend. -/
theorem Behind.arg
    (h : Behind t env code (earlier ++ p :: later) cs)
    (hno : NoOverflow t env {} cs)
    (hearlier : ∀ q ∈ earlier, Extends t q.opcode info)
    (hinfo : t.info p.opcode = some own)
    (hoperand : t.hasArgument p.opcode = true) :
    p.arg = some (accumulated t code earlier p) := by
  obtain ⟨xs, c, ys, rfl, hxs, _, m, rfl⟩ := h.split
  obtain ⟨hoffset, hopcode, _⟩ := step_frame t env (carryAfter t env {} xs) c
  simp only [accumulated, hoffset, hopcode] at hinfo hoperand ⊢
  obtain ⟨hexact, hlast⟩ := noOverflow_append_iff.mp hno
  have hpending := (noOverflow_iff_of_extends env {} (hxs.extends hearlier) (by decide)).2 hexact
  rw [arg_of_no_overflow hinfo hoperand (noOverflow_cons_iff.mp hlast).1, hpending, ← hxs.raws,
    ← (h.isChunk c (by simp)).2, extendedOperand_eq]

/-- Nothing overflows up to the last of a run just if the whole sum fits. -/
theorem Behind.noOverflow_iff_lt
    (h : Behind t env code (earlier ++ [p]) cs)
    (hearlier : ∀ q ∈ earlier, Extends t q.opcode info)
    (hinfo : t.info p.opcode = some own)
    (hoperand : t.hasArgument p.opcode = true)
    (hown : t.extendedArg ≠ some p.opcode) :
    NoOverflow t env {} cs ↔ accumulated t code earlier p < UInt64.size := by
  obtain ⟨xs, c, ys, rfl, hxs, hlength, m, rfl⟩ := h.split
  obtain rfl : ys = [] := List.eq_nil_of_length_eq_zero hlength.symm
  obtain ⟨hoffset, hopcode, _⟩ := step_frame t env (carryAfter t env {} xs) c
  simp only [accumulated, hoffset, hopcode] at hinfo hoperand hown ⊢
  rw [noOverflow_concat_iff (hxs.extends hearlier) hinfo hoperand hown, ← hxs.raws,
    ← (h.isChunk c (by simp)).2]

/-- What overflows along the chunks is what overflows at the offsets of the listing. -/
theorem Behind.noOverflow_iff
    (h : Behind t env code listed cs) (showCaches : Bool) :
    NoOverflow t env {} cs ↔
      ∀ i ∈ listed, ⟨i.offset, .operandOverflow⟩ ∉ (decode t env showCaches code).faults := by
  obtain ⟨before, rest, hcut, hcarry⟩ := h.cut
  have hfault : ∀ xs c ys, cs = xs ++ c :: ys →
      (⟨c.offset, .operandOverflow⟩ ∈ (decode t env showCaches code).faults ↔
        .operandOverflow ∈ (step t env (carryAfter t env {} xs) c).problems) := by
    rintro xs c ys rfl
    have hsplit : (chunks t 0 code).1 = (before ++ xs) ++ c :: (ys ++ rest) := by
      rw [hcut]
      simp
    rw [mem_faults_decode_iff env showCaches hsplit (by rintro _ _ ⟨⟩), carryAfter_append, hcarry]
  constructor
  · intro hno i hi hmem
    have hoffset := List.mem_map_of_mem (f := Instruction.offset) hi
    rw [h.offsets, List.mem_map] at hoffset
    obtain ⟨c, hc, heq⟩ := hoffset
    obtain ⟨xs, ys, hsplit⟩ := List.append_of_mem hc
    rw [← heq, hfault xs c ys hsplit] at hmem
    exact hno xs c ys hsplit hmem
  · intro hnone xs c ys hsplit hmem
    have hoffset := List.mem_map_of_mem (f := Chunk.offset) (hsplit ▸ by simp : c ∈ cs)
    rw [← h.offsets, List.mem_map] at hoffset
    obtain ⟨i, hi, heq⟩ := hoffset
    rw [← hfault xs c ys hsplit, ← heq] at hmem
    exact hnone i hi hmem

theorem Behind.ascending
    (h : Behind t env code listed cs) :
    (listed.map Instruction.offset).Pairwise (· < ·) := by
  obtain ⟨xs, ys, hcut, _⟩ := h.cut
  have hall := chunks_ascending t code
  rw [hcut, List.map_append, List.map_append] at hall
  rw [h.offsets]
  exact (List.pairwise_append.mp (List.pairwise_append.mp hall).2.1).1

/-- The last of a run is as long as the whole run, and is extended if the run is more than it. -/
theorem Behind.extent
    (h : Behind t env code (earlier ++ [p]) cs)
    (hearlier : ∀ q ∈ earlier, Extends t q.opcode info)
    (hinfo : t.info p.opcode = some own)
    (hown : t.extendedArg ≠ some p.opcode) :
    (p.hasExtendedArg = true ↔ earlier ≠ []) ∧
    ∀ first ∈ (earlier ++ [p]).head?,
      first.offset + p.size = p.offset + widthAt t code p.offset := by
  have hascending := h.ascending
  obtain ⟨xs, c, ys, rfl, hxs, _, m, rfl⟩ := h.split
  obtain ⟨hoffset, hopcode, _⟩ := step_frame t env (carryAfter t env {} xs) c
  have hwidth := (h.isChunk c (by simp)).1.width
  have hstart : (carryAfter t env {} xs).start = earlier.head?.map Instruction.offset := by
    rw [start_of_extensions (hxs.extends hearlier), ← List.head?_map, ← List.head?_map, hxs.offsets]
    rfl
  simp only [hopcode] at hinfo hown
  obtain ⟨hextended, hsize⟩ := step_extent env (carryAfter t env {} xs) hinfo
  simp only [beq_eq_false_iff_ne.mpr hown, hstart, Bool.not_false, Bool.true_and,
    Bool.false_eq_true, if_false] at hextended hsize
  simp only [hextended, hsize, hoffset, Chunk.next, hwidth]
  cases earlier with
  | nil =>
      simp
  | cons q qs =>
      have hlt : q.offset < c.offset := by
        rw [List.cons_append, List.map_cons, List.pairwise_cons] at hascending
        exact hascending.1 _ (by simp [hoffset])
      simp
      omega

theorem Behind.bare
    (h : Behind t env code (earlier ++ p :: later) cs)
    (hp : Extends t p.opcode info) :
    p.hasExtendedArg = false := by
  obtain ⟨xs, c, ys, rfl, _, _, m, rfl⟩ := h.split
  obtain ⟨_, hopcode, _⟩ := step_frame t env (carryAfter t env {} xs) c
  simp only [hopcode] at hp
  simp [(step_extent env (carryAfter t env {} xs) hp.known).1, hp.extendedArg]

end Listings

section Maximal

/-- An instruction of a listing that is no cache word, with an opcode. -/
def HasOpcode (x : Nat) (i : Instruction) : Prop :=
  i.opcode = x ∧ i.isCache = false

/-- All that stand in a row under an opcode in a listing, and the instruction after them. -/
structure Run (x : Nat) (instructions before extensions : List Instruction) (i : Instruction)
    (rest : List Instruction) : Prop where
  listed : instructions = before ++ (extensions ++ i :: rest)
  maximal : ∀ p ∈ before.getLast?, ¬ HasOpcode x p
  same : ∀ p ∈ extensions, HasOpcode x p
  other : i.opcode ≠ x
  plain : i.isCache = false

variable {t : Table} {env : Environment} {showCaches : Bool} {code : List UInt8}
  {before extensions rest : List Instruction} {i : Instruction} {x : Nat} {info : OpInfo}

theorem caches_of_extends
    {c : Chunk}
    (hc : c ∈ (chunks t 0 code).1)
    (h : Extends t c.opcode info) :
    c.caches = [] := by
  have hlength := (cut_chunks t code).length_caches c hc
  have hnone : cachesAt t code c.offset = 0 := by
    rw [cachesAt, ← ((cut_chunks t code).isChunk c hc).1.opcode]
    simp [h.known, h.caches]
  rw [hnone, ite_self] at hlength
  exact List.eq_nil_of_length_eq_zero hlength

/-- Where the last instruction listed is no extension, nothing is left for the next. -/
theorem carryAfter_of_maximal
    {offsets : List Nat} {xs ys : List Chunk}
    (hx : Extends t x info)
    (hcut : (chunks t 0 code).1 = xs ++ ys)
    (hmarked : markTargets offsets (decodeChunks t env showCaches {} xs).instructions = before)
    (hmaximal : ∀ p ∈ before.getLast?, ¬ HasOpcode x p) :
    carryAfter t env {} xs = {} := by
  rcases List.eq_nil_or_concat xs with rfl | ⟨zs, c, rfl⟩
  · rfl
  · rw [List.concat_eq_append] at hcut hmarked ⊢
    rw [carryAfter_append]
    refine carry_of_not_extension ?_
    intro hextension
    obtain rfl : x = c.opcode := Option.some.inj (hx.extendedArg.symm.trans hextension)
    have hcaches := caches_of_extends (by rw [hcut]; simp) hx
    obtain ⟨_, hopcode, hplain, _⟩ := step_frame t env (carryAfter t env {} zs) c
    obtain ⟨m, hm⟩ := exists_mark offsets (step t env (carryAfter t env {} zs) c).instruction
    refine hmaximal (mark offsets (step t env (carryAfter t env {} zs) c).instruction) ?_ ?_
    · rw [← hmarked, decodeChunks_append, decodeChunks_cons, listedCaches, hcaches,
        markTargets_eq_map]
      simp [decodeChunks, cacheWords]
    · rw [hm]
      exact ⟨hopcode, hplain⟩

/-- A run in a listing has chunks behind it. -/
theorem Run.exists_behind
    (h : Run x (decode t env showCaches code).instructions before extensions i rest)
    (hx : Extends t x info) :
    ∃ cs, Behind t env code (extensions ++ [i]) cs := by
  have hlisted := h.listed
  simp only [decode] at hlisted
  obtain ⟨xs, ys, hcut, hbefore, hafter⟩ := split_markTargets hlisted (by
    cases hextensions : extensions with
    | nil =>
        simpa using h.plain
    | cons p ps =>
        simpa using (h.same p (by simp [hextensions])).2)
  obtain ⟨es, zs, rfl, hes, hrest⟩ := split_markTargets hafter (by simpa using h.plain)
  have hcarry := carryAfter_of_maximal hx hcut hbefore h.maximal
  rw [hcarry] at hes hrest
  cases zs with
  | nil =>
      cases hrest
  | cons c zs =>
      rw [decodeChunks_cons, markTargets_eq_map, List.map_cons, List.cons.injEq] at hrest
      refine ⟨es ++ [c], ⟨xs, zs, by simp [hcut], hcarry⟩, ?_⟩
      have hplain : Decode.plain extensions = extensions := by
        refine List.filter_eq_self.mpr ?_
        intro p hp
        simp [(h.same p hp).2]
      rw [← hes, plain_markTargets, plain_decodeChunks] at hplain
      refine ⟨targets env (decodeChunks t env showCaches {} (chunks t 0 code).1).instructions, ?_⟩
      rw [decodeChunks_append, markTargets_eq_map, List.map_append, ← markTargets_eq_map, hplain,
        hes, decodeChunks_cons]
      simp [listedCaches, decodeChunks, hrest.1]

variable {b : Table.Builder}

/-- A run of extensions adds to the operand after it just what it should, or an overflow is
recorded. -/
theorem decode_extended
    {extension own : OpInfo}
    (hreach : Table.Reachable b) (hfrozen : b.frozen = true)
    (hextension : b.table.info x = some extension)
    (hname : extension.name = "EXTENDED_ARG")
    (hargument : b.table.hasArgument x = true)
    (hcaches : extension.cacheEntries = 0)
    (hshift : b.table.settings.extendedArgShift < 64)
    (hrun : Run x (decode b.table env showCaches code).instructions before extensions i rest)
    (hown : b.table.info i.opcode = some own)
    (hoperand : b.table.hasArgument i.opcode = true) :
    (accumulated b.table code extensions i < 2 ^ 64 →
      i.arg = some (accumulated b.table code extensions i) ∧
      (∀ earlier p later, extensions = earlier ++ p :: later →
        p.arg = some (accumulated b.table code earlier p)) ∧
      ∀ p ∈ extensions ++ [i],
        ⟨p.offset, .operandOverflow⟩ ∉ (decode b.table env showCaches code).faults) ∧
    (2 ^ 64 ≤ accumulated b.table code extensions i →
      ∃ p ∈ extensions ++ [i],
        ⟨p.offset, .operandOverflow⟩ ∈ (decode b.table env showCaches code).faults) ∧
    (i.hasExtendedArg = true ↔ extensions ≠ []) ∧
    (∀ first ∈ (extensions ++ [i]).head?,
      first.offset + i.size = i.offset + widthAt b.table code i.offset) ∧
    ∀ p ∈ extensions, p.hasExtendedArg = false := by
  have hextendedArg : b.table.extendedArg = some x := by
    rw [hreach.extendedArg_eq hfrozen, ← hname]
    exact hreach.consistent.opcodeOf_name hextension
  have hx : Extends b.table x extension := ⟨hextendedArg, hextension, hargument, hcaches, hshift⟩
  have hextensions : ∀ p ∈ extensions, Extends b.table p.opcode extension := by
    intro p hp
    exact (hrun.same p hp).1 ▸ hx
  have hother : b.table.extendedArg ≠ some i.opcode := by
    rw [hextendedArg]
    exact fun h => hrun.other (Option.some.inj h).symm
  obtain ⟨cs, hbehind⟩ := hrun.exists_behind hx
  have hsum := hbehind.noOverflow_iff_lt hextensions hown hoperand hother
  have hfaults := hbehind.noOverflow_iff showCaches
  obtain ⟨hextended, hsize⟩ := hbehind.extent hextensions hown hother
  refine ⟨?_, ?_, hextended, hsize, ?_⟩
  · intro hlt
    have hno := hsum.mpr hlt
    refine ⟨hbehind.arg hno hextensions hown hoperand, ?_, hfaults.mp hno⟩
    rintro earlier p later rfl
    rw [List.append_assoc] at hbehind
    have hp := hextensions p (by simp)
    exact hbehind.arg hno (fun q hq => hextensions q (by simp [hq])) hp.known hp.operand
  · intro hle
    by_contra hnone
    have hno := hfaults.mpr fun p hp hmem => hnone ⟨p, hp, hmem⟩
    exact absurd (hsum.mp hno) (Nat.not_lt.mpr hle)
  · intro p hp
    obtain ⟨earlier, later, rfl⟩ := List.append_of_mem hp
    rw [List.append_assoc] at hbehind
    exact hbehind.bare (hextensions p hp)

end Maximal

section Sample

/-- An instruction, two extensions, and a jump that they extend. -/
def extendedCode : List UInt8 :=
  [9, 0, 144, 1, 144, 2, 110, 3]

/-- What the table knows about the extensions. -/
def extensionInfo : OpInfo :=
  ⟨"EXTENDED_ARG", 0, 0, none, none, none, .plain, 0, false⟩

/-- What the table knows about the jumps on. -/
def onInfo : OpInfo :=
  ⟨"JUMP_FORWARD", 0, 0, none, none, none, .plain, 0, false⟩

/-- The operand of the jump is made of three bytes, and the jump is six bytes long. -/
theorem decode_extended_extendedCode :
    ∃ n p q i,
      (decode Table.sampleFrozen.table {} true extendedCode).instructions = [n, p, q, i] ∧
      p.arg = some 1 ∧ q.arg = some 258 ∧ i.arg = some 66051 ∧
      i.hasExtendedArg = true ∧ i.size = 6 := by
  have hlisting : ((decode Table.sampleFrozen.table {} true extendedCode).instructions.map
      fun i => (i.offset, i.opcode, i.isCache)) =
      [(0, 9, false), (2, 144, false), (4, 144, false), (6, 110, false)] := by
    decide +kernel
  simp only [List.map_eq_cons_iff, List.map_eq_nil_iff, Prod.mk.injEq] at hlisting
  obtain ⟨n, _, hlist, ⟨hn, hnop, _⟩, p, _, rfl, ⟨hp, hpop, hpplain⟩, q, _, rfl,
    ⟨hq, hqop, hqplain⟩, i, _, rfl, ⟨hi, hiop, hiplain⟩, rfl⟩ := hlisting
  have hrun : Run 144 (decode Table.sampleFrozen.table {} true extendedCode).instructions
      [n] [p, q] i [] :=
    ⟨hlist, by simp [HasOpcode, hnop], by simp [HasOpcode, hpop, hpplain, hqop, hqplain],
      by simp [hiop], hiplain⟩
  have hextension : Table.sampleFrozen.table.info 144 = some extensionInfo := by
    decide
  have hown : Table.sampleFrozen.table.info i.opcode = some onInfo := by
    rw [hiop]
    decide
  have hoperand : Table.sampleFrozen.table.hasArgument i.opcode = true := by
    rw [hiop]
    decide
  obtain ⟨hexact, _, hextended, hsize, _⟩ := decode_extended Table.reachable_sampleFrozen
    Table.frozen_sampleFrozen hextension rfl (by decide) rfl (by decide) hrun hown
    hoperand
  have hsum : accumulated Table.sampleFrozen.table extendedCode [p, q] i = 66051 := by
    simp only [accumulated, List.map_cons, List.map_nil, hp, hq, hi]
    decide
  have hfirst : accumulated Table.sampleFrozen.table extendedCode [] p = 1 := by
    simp only [accumulated, List.map_nil, hp]
    decide
  have hsecond : accumulated Table.sampleFrozen.table extendedCode [p] q = 258 := by
    simp only [accumulated, List.map_cons, List.map_nil, hp, hq]
    decide
  obtain ⟨harg, hargs, _⟩ := hexact (by rw [hsum]; decide)
  have hlong := hsize p rfl
  have hwidth : widthAt Table.sampleFrozen.table extendedCode i.offset = 2 := by
    rw [hi]
    decide
  exact ⟨n, p, q, i, hlist, hfirst ▸ hargs [] p [q] rfl, hsecond ▸ hargs [p] q [] rfl, hsum ▸ harg,
    hextended.mpr (by simp), by omega⟩

end Sample
end Decode
end Disassembler
