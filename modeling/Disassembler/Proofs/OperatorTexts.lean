import Disassembler.Proofs.Caches
import Disassembler.Proofs.Derived
import Disassembler.Proofs.Jumps

/-!
# The operator in an operand and in an expression

An operand that chooses an operator is read twice: its format writes it beside the instruction, and
the fold rule writes it between two values.

**Input.**  Any finalized table and any bytecode, and an opcode whose format and rule belong
together (`operatorPairs`) and whose operand stands for itself.

**Results.**
* `repr_of_mem_decode`: the text of such an operand is what its format says.
* `values_of_infixFold`: an operator expression is the operator between the two values on top of the
  stack.
* `operator_of_fold`: the two readings agree on an operand exactly when it chooses among binary
  operators, or is zero or one: for tests every other operand is negated in the one reading and
  plain in the other.
* `annotate_operator`: this is so for every folded instruction of a listing.
-/

namespace Disassembler

section Operands

variable {t : Table} {env : Environment} {showCaches : Bool} {code : List UInt8}

namespace Decode

/-- An operand that no class resolves stands for itself. -/
theorem resolve_of_unclassified
    {info : OpInfo} {opcode arg next : Nat}
    (hclass : ∀ c ∈ OpClass.operand, t.is opcode c = false)
    (hjump : t.isJump opcode = false) :
    resolve t env info opcode arg next = .ok ⟨.int arg, t.renderOperand opcode arg, .count⟩ := by
  have hconst := hclass .const (by decide)
  have hname := hclass .name (by decide)
  have hslot := hclass .slot (by decide)
  have hfree := hclass .free (by decide)
  have hcompare := hclass .compare (by decide)
  simp [resolve, hconst, hname, hslot, hfree, hcompare, hjump]

/-- The text of an operand that stands for itself, as a step writes it. -/
theorem repr_of_step
    {info : OpInfo} {carry : Carry} {c : Chunk}
    (hinfo : t.info c.opcode = some info)
    (hclass : ∀ k ∈ OpClass.operand, t.is c.opcode k = false)
    (hjump : t.isJump c.opcode = false) :
    (step t env carry c).instruction.repr =
      ((step t env carry c).instruction.arg.map (t.renderOperand c.opcode)).getD "" := by
  simp only [step, hinfo, knownStep, resolve_of_unclassified hclass hjump]
  split
  · rfl
  · rfl

theorem repr_cacheWords
    (opcode offset : Nat) (bytes : List UInt8) :
    ∀ i ∈ cacheWords opcode offset bytes, i.repr = "" := by
  fun_induction cacheWords opcode offset bytes with
  | case1 offset b content rest ih =>
      intro i hi
      rcases List.mem_cons.mp hi with rfl | hi
      · rfl
      · exact ih i hi
  | case2 =>
      simp

/-- The text of an operand that stands for itself.  A cache word has none. -/
theorem repr_of_mem_decode
    {i : Instruction} {info : OpInfo}
    (hi : i ∈ (decode t env showCaches code).instructions)
    (hinfo : t.info i.opcode = some info)
    (hclass : ∀ k ∈ OpClass.operand, t.is i.opcode k = false)
    (hjump : t.isJump i.opcode = false) :
    i.repr =
      if i.isCache then "" else (i.arg.map (t.renderOperand i.opcode)).getD "" := by
  cases hcache : i.isCache with
  | true =>
      simp only [decode, markTargets_eq_map] at hi
      obtain ⟨j, hj, rfl⟩ := List.mem_map.mp hi
      rw [isCache_mark] at hcache
      obtain ⟨opcode, offset, bytes, hwords⟩ := exists_cacheWords hj hcache
      rw [mark, if_pos hcache]
      exact repr_cacheWords opcode offset bytes j hwords
  | false =>
      obtain ⟨xs, c, ys, m, _, rfl⟩ := exists_step_of_mem_decode hi hcache
      simp only [(step_frame t env _ c).2.1] at hinfo hclass hjump ⊢
      exact repr_of_step hinfo hclass hjump

end Decode
end Operands

namespace Fold

section Operators

variable {t : Table} {past : Past} {i : Instruction} {text : String} {start : Nat}

/-- The formats and rules that read an operand as an operator. -/
def operatorPairs : List (OperandFormat × FoldRule) :=
  [(.isOp, .isOp), (.containsOp, .containsOp), (.binaryOp, .binaryOp)]

/-- An operator expression is the operator between the two values on top of the stack. -/
theorem values_of_infixFold
    {symbol : String}
    (h : infixFold t past symbol = .folded text start) :
    ∃ left right, (operandsFrom t past 2).values = [right, left] ∧
      text = left.operand ++ " " ++ symbol ++ " " ++ right.operand := by
  simp only [infixFold, fromTemplate] at h
  split at h
  · rename_i hmiss _
    obtain ⟨_, _, _, hall⟩ := operandsFrom_takes t past 2
    obtain ⟨right, left, hvalues⟩ := List.length_eq_two.mp (hall hmiss).2
    refine ⟨left, right, hvalues, ?_⟩
    cases h
    simp [Operands.grouped, Operands.texts, hvalues, String.append_assoc]
  · cases h
  · cases h

theorem binaryOperators_ne_empty :
    ∀ symbol ∈ Operand.binaryOperators, symbol ≠ "" := by
  decide

/-- A test that one operand negates and a test that one operand leaves plain are the same for these
two operands only. -/
theorem test_eq_iff
    {plain negated : String}
    (hne : plain ≠ negated) (a : Nat) :
    ((if a = 1 then negated else plain) = if a = 0 then plain else negated) ↔ a = 0 ∨ a = 1 := by
  by_cases hzero : a = 0
  · simp [hzero]
  · by_cases hone : a = 1 <;> simp [hzero, hone, hne]

/-- What a rule folds is an operator expression, and its operator is the text that the format gives
the operand exactly when the rule is that of binary operators or the operand is zero or one. -/
theorem operator_of_fold
    {format : OperandFormat} {rule : FoldRule}
    (hpair : (format, rule) ∈ operatorPairs)
    (h : fold t past i rule = .folded text start) :
    ∃ symbol, infixFold t past symbol = .folded text start ∧ symbol ≠ "" ∧
      ∀ a shift, i.arg = some a →
        (symbol = format.render a shift ↔ rule = .binaryOp ∨ a = 0 ∨ a = 1) := by
  simp only [operatorPairs, List.mem_cons, Prod.mk.injEq, List.not_mem_nil, or_false] at hpair
  rcases hpair with ⟨rfl, rfl⟩ | ⟨rfl, rfl⟩ | ⟨rfl, rfl⟩
  · refine ⟨_, h, by split <;> decide, ?_⟩
    intro a shift ha
    simpa [ha, OperandFormat.render] using test_eq_iff (by decide) a
  · refine ⟨_, h, by split <;> decide, ?_⟩
    intro a shift ha
    simpa [ha, OperandFormat.render] using test_eq_iff (by decide) a
  · cases hchosen : chosenOperator i with
    | none =>
        simp [fold, hchosen] at h
    | some symbol =>
        simp only [fold, hchosen] at h
        obtain ⟨b, hb, hsymbol⟩ := Option.bind_eq_some_iff.mp hchosen
        refine ⟨symbol, h, binaryOperators_ne_empty symbol (List.mem_of_getElem? hsymbol), ?_⟩
        intro a shift ha
        rw [hb] at ha
        cases ha
        simp [OperandFormat.render, OperandFormat.choose, hsymbol]

end Operators

section Listings

variable {t : Table}

/-- A folded instruction has the text of its fold. -/
theorem fold_of_note
    {past : Past} {i : Instruction} {rule : FoldRule} {text : String}
    (hfresh : i.expression = none)
    (hrule : ruleOf t i = some rule)
    (htext : (noteOf t past i).expression = some text) :
    ∃ start, fold t past i rule = .folded text start := by
  cases hfold : fold t past i rule with
  | folded other start =>
      simp only [noteOf_eq, hfresh, hrule, hfold, Option.some.injEq] at htext
      exact ⟨start, by rw [htext]⟩
  | degraded other | declined | overflow =>
      simp [noteOf_eq, hfresh, hrule, hfold] at htext

/-- In a listing under a finalized table, take a folded instruction whose opcode has a format and a
rule that read the operand as an operator, and which no operand class resolves.  Its expression is
an operator between its two operands.  The operator is the text of the instruction's operand exactly
when the instruction is no cache word and the rule is that of binary operators or the operand is
zero or one. -/
theorem annotate_operator
    {b : Table.Builder}
    (hreach : Table.Reachable b) (hfrozen : b.frozen = true)
    (env : Environment) (showCaches : Bool) (code : List UInt8)
    {notes : List Note} {i : Instruction} {note : Note} {info : OpInfo} {format : OperandFormat}
    {rule : FoldRule} {text : String}
    (hnotes : annotate? b.table (decode b.table env showCaches code).instructions = some notes)
    (hnote : (i, note) ∈ (decode b.table env showCaches code).instructions.zip notes)
    (hinfo : b.table.info i.opcode = some info)
    (hformat : info.format = some format)
    (hrule : info.fold = some rule)
    (hpair : (format, rule) ∈ operatorPairs)
    (hclass : ∀ c ∈ OpClass.operand, b.table.is i.opcode c = false)
    (htext : note.expression = some text) :
    ∃ past left right symbol,
      ⟨i, note⟩ :: past <:+
        (List.zipWith Noted.mk (decode b.table env showCaches code).instructions notes).reverse ∧
      (operandsFrom b.table past 2).values = [right, left] ∧
      text = left.operand ++ " " ++ symbol ++ " " ++ right.operand ∧
      (symbol = i.repr ↔
        i.isCache = false ∧ (rule = .binaryOp ∨ i.arg = some 0 ∨ i.arg = some 1)) := by
  rw [← seen_eq_of_annotate? hnotes]
  rw [eq_annotate hnotes] at hnote
  obtain ⟨above, past, hseen⟩ := List.append_of_mem (mem_seen_iff.mpr hnote)
  have hplace : ⟨i, note⟩ :: past <:+
      seen b.table [] (decode b.table env showCaches code).instructions := ⟨above, hseen.symm⟩
  have hmem : i ∈ (decode b.table env showCaches code).instructions :=
    mem_of_mem_seen (hplace.subset List.mem_cons_self)
  have hruleOf : ruleOf b.table i = some rule := by
    simp [ruleOf, hinfo, hrule]
  rw [show note = noteOf b.table past i from note_eq_noteOf _ _ hplace] at htext
  obtain ⟨start, hfold⟩ :=
    fold_of_note (Decode.expression_decode b.table env showCaches code i hmem) hruleOf htext
  obtain ⟨symbol, hinfix, hne, hagree⟩ := operator_of_fold hpair hfold
  obtain ⟨left, right, hvalues, hwhole⟩ := values_of_infixFold hinfix
  refine ⟨past, left, right, symbol, hplace, hvalues, hwhole, ?_⟩
  have hjump : b.table.isJump i.opcode = false := by
    rw [Bool.eq_false_iff, ne_eq, hreach.isJump_iff hfrozen, hclass .jumpRel (by decide),
      hclass .jumpAbs (by decide)]
    simp
  have hrepr := Decode.repr_of_mem_decode hmem hinfo hclass hjump
  cases hcache : i.isCache with
  | true =>
      simp [hrepr, hcache, hne]
  | false =>
      cases harg : i.arg with
      | none =>
          -- The rule of binary operators needs an operand.
          have hbinary : rule ≠ .binaryOp := by
            rintro rfl
            simp [fold, chosenOperator, harg] at hfold
          simp [hrepr, hcache, harg, hne, hbinary]
      | some a =>
          have hrender : b.table.renderOperand i.opcode a =
              format.render a b.table.settings.extendedArgShift := by
            simp [Table.renderOperand, hinfo, hformat]
          simp [hrepr, hcache, harg, hrender, hagree a _ harg]

end Listings

section Sample

/-- The identity test of two names, with an operand. -/
def testListing (operand : UInt8) : List Instruction :=
  (decode .sample { names := ["a", "b"] } false [101, 0, 101, 1, 117, operand]).instructions

/-- With the operand two the test is negated beside the instruction and plain in the expression. -/
theorem operator_differs_two :
    ((annotate? .sample (testListing 2)).bind fun notes => ((testListing 2).zip notes)[2]?).map
      (fun p => (p.1.arg, p.1.repr, p.2.expression)) =
    some (some 2, "is not", some "a is b") := by
  decide +kernel

/-- With the operand one the test is negated in both. -/
theorem annotate_operator_one :
    Table.Reachable .sample ∧ Table.Builder.sample.frozen = true ∧
    ∃ notes i note past left right symbol,
      annotate? .sample (testListing 1) = some notes ∧ (i, note) ∈ (testListing 1).zip notes ∧
      i.repr = "is not" ∧
      (operandsFrom .sample past 2).values = [right, left] ∧
      left.operand ++ " " ++ symbol ++ " " ++ right.operand = "a is not b" ∧
      symbol = i.repr := by
  have hreach : Table.Reachable .sample :=
    ((Table.Reachable.new _).applyAll _).finalize
  have hfrozen : Table.Builder.sample.frozen = true := by
    decide +kernel
  have htest : ((annotate? .sample (testListing 1)).bind fun notes =>
      ((testListing 1).zip notes)[2]?).map
        (fun p => (p.1.opcode, p.1.isCache, p.1.arg, p.1.repr, p.2.expression)) =
      some (117, false, some 1, "is not", some "a is not b") := by
    decide +kernel
  have hinfo : Table.sample.info 117 =
      some ⟨"IS_OP", 2, 1, some .isOp, some .isOp, none, .plain, 0, false⟩ := by
    decide +kernel
  have hclass : ∀ c ∈ OpClass.operand, Table.sample.is 117 c = false := by
    decide +kernel
  obtain ⟨⟨i, note⟩, hi, hfacts⟩ := Option.map_eq_some_iff.mp htest
  obtain ⟨notes, hnotes, hi⟩ := Option.bind_eq_some_iff.mp hi
  simp only [Prod.mk.injEq] at hfacts
  obtain ⟨hopcode, hcache, harg, hrepr, htext⟩ := hfacts
  have hnote := List.mem_of_getElem? hi
  rw [← hopcode] at hinfo hclass
  obtain ⟨past, left, right, symbol, _, hvalues, hwhole, hagree⟩ :=
    annotate_operator hreach hfrozen _ _ _ hnotes hnote hinfo rfl rfl (by decide) hclass htext
  exact ⟨hreach, hfrozen, notes, i, note, past, left, right, symbol, hnotes, hnote, hrepr, hvalues,
    hwhole.symm, hagree.mpr ⟨hcache, Or.inr (Or.inr harg)⟩⟩

end Sample
end Fold
end Disassembler
