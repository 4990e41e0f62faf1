import Disassembler.Proofs.Derived
import Disassembler.Proofs.Frozen
import Mathlib.Data.List.Nodup
import Mathlib.Data.List.Pairwise

/-!
# What finalizing accepts and leaves behind

Finalizing looks for an opcode in two operand classes and for an extended-argument opcode that fits
a byte.  A table that passes gets its derived sets; a child starts with those of its parent, which
its edits do not touch.

**Input.**  Any builder that can be reached.

**Results.**
* `overlap?_eq_none_iff`: the search through the pairs of classes finds nothing exactly when every
  opcode is in at most one operand class.
* `Reachable.refinalize`: a frozen table passes its checks, and deriving its sets again changes
  nothing.
* `Reachable.finalize_exact`: finalizing accepts exactly the tables that are in order, and no
  derived set of a frozen table is out of date.
-/

namespace Disassembler
namespace Table

section Acceptance

variable {t : Table}

/-- Each of the classes is paired with those after it. -/
theorem forall_operandPairs_iff
    {R : OpClass → OpClass → Prop} (cs : List OpClass) :
    (∀ p ∈ operandPairs cs, R p.1 p.2) ↔ cs.Pairwise R := by
  induction cs with
  | nil =>
      simp [operandPairs]
  | cons c rest ih =>
      simp only [operandPairs, List.mem_append, List.mem_map, List.pairwise_cons, ← ih]
      constructor
      · intro h
        refine ⟨?_, fun p hp => h p (Or.inr hp)⟩
        intro d hd
        exact h (c, d) (Or.inl ⟨d, hd, rfl⟩)
      · rintro ⟨hfirst, hrest⟩ p (⟨d, hd, rfl⟩ | hp)
        · exact hfirst d hd
        · exact hrest p hp

/-- No opcode is in both classes. -/
def Apart (t : Table) (c d : OpClass) : Prop :=
  ∀ o, ¬ (t.is o c = true ∧ t.is o d = true)

instance : Std.Symm t.Apart :=
  ⟨fun _ _ h o hmem => h o hmem.symm⟩

theorem head?_inter_eq_none_iff
    (c d : OpClass) :
    (t.members c ∩ t.members d).toList.head? = none ↔ t.Apart c d := by
  rw [List.head?_eq_none_iff, List.eq_nil_iff_forall_not_mem]
  refine forall_congr' fun o => not_congr ?_
  rw [Std.ExtTreeSet.mem_toList, ← Std.ExtTreeSet.contains_iff_mem,
    Std.ExtTreeSet.contains_inter, Bool.and_eq_true]
  rfl

/-- No overlap is found exactly when every opcode is in at most one operand class. -/
theorem overlap?_eq_none_iff :
    t.overlap? = none ↔
      ∀ o, ∀ c ∈ OpClass.operand, ∀ d ∈ OpClass.operand,
        t.is o c = true → t.is o d = true → c = d := by
  have hpairs : t.overlap? = none ↔ OpClass.operand.Pairwise t.Apart := by
    rw [← forall_operandPairs_iff, overlap?, List.findSome?_eq_none_iff]
    simp only [Option.map_eq_none_iff, head?_inter_eq_none_iff]
  rw [hpairs]
  constructor
  · intro h o c hc d hd hoc hod
    by_contra hne
    exact h.forall hc hd hne o ⟨hoc, hod⟩
  · intro h
    have hnodup : OpClass.operand.Nodup := by
      decide
    refine hnodup.pairwise_of_forall_ne ?_
    rintro c hc d hd hne o ⟨hoc, hod⟩
    exact hne (h o c hc d hd hoc hod)

theorem findExtendedArg_eq_ok_iff
    {opcode : Nat} :
    t.findExtendedArg = .ok opcode ↔ t.opcodeOf "EXTENDED_ARG" = some opcode ∧ opcode ≤ 255 := by
  unfold findExtendedArg
  cases t.opcodeOf "EXTENDED_ARG" with
  | none =>
      simp
  | some o =>
      dsimp only
      by_cases ho : o < 256
      · rw [if_pos ho, Except.ok.injEq, Option.some.injEq]
        constructor
        · rintro rfl
          exact ⟨rfl, Nat.le_of_lt_succ ho⟩
        · rintro ⟨rfl, _⟩
          rfl
      · rw [if_neg ho, Option.some.injEq]
        constructor
        · intro h
          cases h
        · rintro ⟨rfl, hle⟩
          exact absurd (Nat.lt_succ_of_le hle) ho

/-- The checks of a consistent table come down to two of the three. -/
theorem Consistent.check_eq_ok_iff
    (h : t.Consistent) {opcode : Nat} :
    t.check = .ok opcode ↔
      t.overlap? = none ∧ t.opcodeOf "EXTENDED_ARG" = some opcode ∧ opcode ≤ 255 := by
  unfold check
  cases t.overlap? with
  | some fault =>
      simp
  | none =>
      simp only [h.unmapped, true_and]
      exact findExtendedArg_eq_ok_iff

theorem finalize_error_eq_none_iff
    {b : Builder}
    (hopen : b.frozen = false) :
    b.finalize.error = none ↔ ∃ opcode, b.table.check = .ok opcode := by
  simp only [Builder.finalize, hopen, Bool.false_eq_true, if_false]
  cases b.table.check with
  | error fault =>
      simp [Builder.fail]
  | ok opcode =>
      simp

end Acceptance

section Freshness

/-- A frozen table passes its checks, and deriving its sets again changes nothing. -/
theorem Reachable.refinalize
    {b : Builder}
    (h : Reachable b) (hfrozen : b.frozen = true) :
    ∃ opcode, b.table.check = .ok opcode ∧ b.table.withDerived opcode = b.table := by
  induction h with
  | new key =>
      cases hfrozen
  | child key _ _ =>
      cases hfrozen
  | @apply b edit _ ih =>
      -- An edit neither freezes a table nor changes a frozen one.
      have hbefore : b.frozen = true := by
        rw [← Builder.frozen_apply b edit]
        exact hfrozen
      rw [Builder.apply_of_frozen hbefore]
      exact ih hbefore
  | @finalize b _ ih =>
      cases hbefore : b.frozen with
      | true =>
          rw [Builder.finalize_of_frozen hbefore]
          exact ih hbefore
      | false =>
          simp only [Builder.finalize, hbefore, Bool.false_eq_true, if_false] at hfrozen ⊢
          cases hcheck : b.table.check with
          | error fault =>
              rw [hcheck] at hfrozen
              simp [Builder.fail, hbefore] at hfrozen
          | ok opcode =>
              -- The checks read no derived set, so they find the same as before.
              exact ⟨opcode, hcheck, rfl⟩

variable (t : Table) (o : Nat)

theorem contains_computeOperators :
    t.computeOperators.contains o = true ↔
      t.is o .nullaryOp = true ∨ t.is o .unary = true ∨ t.is o .binary = true ∨
        t.is o .ternary = true ∨ t.is o .varargs = true ∨
        (t.is o .nargs = true ∧ t.is o .noFollow = false) := by
  simp [computeOperators, is, Std.ExtTreeSet.contains_union, Std.ExtTreeSet.contains_diff, or_assoc]

theorem isJump_withDerived
    (opcode : Nat) :
    (t.withDerived opcode).isJump o = true ↔ t.is o .jumpRel = true ∨ t.is o .jumpAbs = true := by
  simp [isJump, withDerived, is, Std.ExtTreeSet.contains_union]

/-- Finalizing a builder that can be reached succeeds exactly when the extended-argument opcode is
defined and fits a byte and every opcode is in at most one operand class.  Once it has succeeded,
the operators, the jumps, the binary operations and the extended-argument opcode are those of the
classes and names, whatever the parent had. -/
theorem Reachable.finalize_exact
    {b : Builder}
    (h : Reachable b) :
    (b.frozen = false →
      (b.finalize.error = none ↔
        (∃ opcode, b.table.opcodeOf "EXTENDED_ARG" = some opcode ∧ opcode ≤ 255) ∧
        ∀ o, ∀ c ∈ OpClass.operand, ∀ d ∈ OpClass.operand,
          b.table.is o c = true → b.table.is o d = true → c = d)) ∧
    (b.frozen = true →
      (∀ o, b.table.operators.contains o = true ↔
        b.table.is o .nullaryOp = true ∨ b.table.is o .unary = true ∨
          b.table.is o .binary = true ∨ b.table.is o .ternary = true ∨
          b.table.is o .varargs = true ∨
          (b.table.is o .nargs = true ∧ b.table.is o .noFollow = false)) ∧
      (∀ o, b.table.isJump o = true ↔
        Xor (b.table.is o .jumpRel = true) (b.table.is o .jumpAbs = true)) ∧
      b.table.binaries = b.table.members .binary ∧
      (∃ opcode, b.table.opcodeOf "EXTENDED_ARG" = some opcode ∧
        b.table.extendedArg = some opcode)) := by
  have hconsistent := h.consistent
  constructor
  · intro hopen
    rw [finalize_error_eq_none_iff hopen, ← overlap?_eq_none_iff]
    simp only [hconsistent.check_eq_ok_iff]
    constructor
    · rintro ⟨opcode, hoverlap, hdefined⟩
      exact ⟨⟨opcode, hdefined⟩, hoverlap⟩
    · rintro ⟨⟨opcode, hdefined⟩, hoverlap⟩
      exact ⟨opcode, hoverlap, hdefined⟩
  · intro hfrozen
    obtain ⟨opcode, hcheck, hderived⟩ := h.refinalize hfrozen
    obtain ⟨hoverlap, hdefined, _⟩ := hconsistent.check_eq_ok_iff.mp hcheck
    refine ⟨?_, ?_, ?_, ?_⟩
    · intro o
      rw [← contains_computeOperators, show b.table.operators = b.table.computeOperators from
        (congrArg Table.operators hderived).symm]
    · intro o
      have hjump := isJump_withDerived b.table o opcode
      rw [hderived] at hjump
      have hone : ¬ (b.table.is o .jumpRel = true ∧ b.table.is o .jumpAbs = true) := by
        rintro ⟨hrel, habs⟩
        have heq := overlap?_eq_none_iff.mp hoverlap o .jumpRel (by decide) .jumpAbs (by decide)
          hrel habs
        cases heq
      rw [hjump, xor_iff_or_and_not_and]
      exact (and_iff_left hone).symm
    · exact (congrArg Table.binaries hderived).symm
    · exact ⟨opcode, hdefined, (congrArg Table.extendedArg hderived).symm⟩

/-- A child that drops the jump its parent was finalized with, and is not finalized itself. -/
def sampleStale : Builder :=
  let first := ((Builder.new ⟨⟨3, 7⟩, .cpython⟩).apply
    (.define ⟨"EXTENDED_ARG", 144, 0, 0, .plain, []⟩)).builder
  let parent := (first.apply
    (.define ⟨"JUMP_FORWARD", 110, 0, 0, .jumpRel, []⟩)).builder.finalize.builder
  ((Builder.ofParent parent.table ⟨⟨3, 8⟩, .cpython⟩).apply (.remove "JUMP_FORWARD" 110)).builder

/-- The child lists the jump of its parent until it is finalized, which succeeds, since no opcode is
in two operand classes. -/
theorem finalize_exact_sampleStale :
    Reachable sampleStale ∧
    sampleStale.frozen = false ∧
    sampleStale.table.isJump 110 = true ∧
    sampleStale.finalize.error = none ∧
    (∀ o, ∀ c ∈ OpClass.operand, ∀ d ∈ OpClass.operand,
      sampleStale.table.is o c = true → sampleStale.table.is o d = true → c = d) ∧
    sampleStale.finalize.builder.table.isJump 110 = false := by
  have hreach : Reachable sampleStale :=
    .apply _ (.child _ (.finalize (.apply _ (.apply _ (.new _)))))
  have hopen : sampleStale.frozen = false := by
    decide
  have haccepts : sampleStale.finalize.error = none := by
    decide
  refine ⟨hreach, hopen, by decide, haccepts, ((hreach.finalize_exact.1 hopen).mp haccepts).2, ?_⟩
  have hjump := ((Reachable.finalize hreach).finalize_exact.2 (by decide)).2.1 110
  rw [Bool.eq_false_iff, ne_eq, hjump]
  decide

end Freshness

section Frozen

variable {b : Builder} {o : Nat}

/-- An opcode of a frozen table is in one operand class at most. -/
theorem Reachable.operandClass_unique
    {c d : OpClass}
    (h : Reachable b) (hfrozen : b.frozen = true)
    (hc : c ∈ OpClass.operand)
    (hd : d ∈ OpClass.operand)
    (hoc : b.table.is o c = true)
    (hod : b.table.is o d = true) :
    c = d := by
  obtain ⟨opcode, hcheck, _⟩ := h.refinalize hfrozen
  have hoverlap := (h.consistent.check_eq_ok_iff.mp hcheck).1
  exact overlap?_eq_none_iff.mp hoverlap o c hc d hd hoc hod

theorem Reachable.isJump_iff
    (h : Reachable b) (hfrozen : b.frozen = true) :
    b.table.isJump o = true ↔ b.table.is o .jumpRel = true ∨ b.table.is o .jumpAbs = true := by
  obtain ⟨opcode, _, hderived⟩ := h.refinalize hfrozen
  have hjump := isJump_withDerived b.table o opcode
  rw [hderived] at hjump
  exact hjump

theorem Reachable.extendedArg_eq
    (h : Reachable b) (hfrozen : b.frozen = true) :
    b.table.extendedArg = b.table.opcodeOf "EXTENDED_ARG" := by
  obtain ⟨opcode, hcheck, hderived⟩ := h.refinalize hfrozen
  rw [(h.consistent.check_eq_ok_iff.mp hcheck).2.1]
  exact (congrArg Table.extendedArg hderived).symm

theorem Reachable.applyAll
    (h : Reachable b) (edits : List Edit) :
    Reachable (b.applyAll edits).builder := by
  induction edits generalizing b with
  | nil =>
      exact h
  | cons edit rest ih =>
      rw [Builder.applyAll, Outcome.andThen]
      split
      · exact h.apply edit
      · exact ih (h.apply edit)

/-- A finalized table of two-byte instructions with jumps, of which one announces a cache word. -/
def sampleFrozen : Builder :=
  ((Builder.new ⟨⟨3, 11⟩, .cpython⟩).applyAll [
    .setting (.wordcode true),
    .setting (.extendedArgShift 8),
    .setting (.jumpUnit 2),
    .define ⟨"NOP", 9, 0, 0, .plain, []⟩,
    .define ⟨"JUMP_FORWARD", 110, 0, 0, .jumpRel, []⟩,
    .define ⟨"JUMP_BACKWARD", 140, 0, 0, .jumpRel, [.backward]⟩,
    .bind "JUMP_BACKWARD" (.cacheEntries 1),
    .define ⟨"EXTENDED_ARG", 144, 0, 0, .plain, []⟩]).builder.finalize.builder

theorem reachable_sampleFrozen :
    Reachable sampleFrozen :=
  (Reachable.new _).applyAll _ |>.finalize

theorem frozen_sampleFrozen :
    sampleFrozen.frozen = true := by
  decide

end Frozen
end Table
end Disassembler
