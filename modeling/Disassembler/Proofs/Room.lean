import Disassembler.Proofs.Seen

/-!
# Room for operands

The operand of an instruction may count the values that the instruction takes, and folding then
asks for so many of them.

**Results.**
* `HasRoom t i` says that there is room for all that the operand of `i` counts.  Then folding `i`
  does not overflow, whatever was seen before it (`fold_ne_overflow`).
* A pass over instructions with room gives their notes (`annotate?_of_hasRoom`).
-/

namespace Disassembler
namespace Fold

section Folds

variable {t : Table} {past : Past} {i : Instruction}

theorem withOperands_of_le
    {n : Nat} {outcome : Operands → Outcome}
    (hn : n ≤ capacity) :
    withOperands t past n outcome = outcome (operandsFrom t past n) :=
  if_neg (Nat.not_lt.mpr hn)

/-- What does not overflow has room for the values that it asks for. -/
theorem le_capacity_of_withOperands
    {n : Nat} {outcome : Operands → Outcome}
    (h : withOperands t past n outcome ≠ .overflow) :
    n ≤ capacity :=
  Nat.le_of_not_lt fun hn => h (if_pos hn)

theorem fromTemplate_ne_overflow
    (ops : Operands) (text : String) :
    fromTemplate ops text ≠ .overflow := by
  fun_cases fromTemplate ops text <;> simp

theorem unaryFold_ne_overflow
    (text : String → String) :
    unaryFold t past text ≠ .overflow := by
  fun_cases unaryFold t past text <;> simp

theorem duplicateFold_ne_overflow :
    duplicateFold t past ≠ .overflow := by
  unfold duplicateFold
  split
  · simp
  · split
    · simp
    · exact unaryFold_ne_overflow _

theorem raiseFold_ne_overflow :
    raiseFold t past i ≠ .overflow := by
  unfold raiseFold
  split
  · simp
  · exact unaryFold_ne_overflow _
  · exact fromTemplate_ne_overflow _ _
  · simp

theorem storeFold_ne_overflow :
    storeFold t past i ≠ .overflow := by
  fun_cases storeFold t past i <;> simp

theorem attributeFold_ne_overflow :
    attributeFold t past i ≠ .overflow := by
  fun_cases attributeFold t past i <;> simp

theorem formatValueFold_ne_overflow :
    formatValueFold t past i ≠ .overflow := by
  fun_cases formatValueFold t past i <;> simp

theorem importFromFold_ne_overflow :
    importFromFold t past i ≠ .overflow := by
  fun_cases importFromFold t past i <;> simp

theorem functionFold_ne_overflow
    (n : Nat) :
    functionFold past n ≠ .overflow := by
  induction n generalizing past with
  | zero =>
      simp [functionFold]
  | succ n ih =>
      unfold functionFold
      split
      · simp
      · split
        · simp
        · exact ih
        · simp

theorem allOf_ne_overflow
    {n : Nat} {text : List String → String}
    (hn : n ≤ capacity) :
    allOf t past n text ≠ .overflow := by
  rw [allOf, withOperands_of_le hn]
  split <;> simp

theorem sequenceFold_ne_overflow
    {opening closing empty : String}
    (h : ∀ n ∈ i.arg, n ≤ capacity) :
    sequenceFold t past i opening closing empty ≠ .overflow := by
  unfold sequenceFold
  split
  · simp
  · simp
  · rename_i harg
    exact allOf_ne_overflow (h _ harg)

theorem mapFold_ne_overflow
    (h : ∀ n ∈ i.arg, 2 * n ≤ capacity) :
    mapFold t past i ≠ .overflow := by
  unfold mapFold
  split
  · simp
  · simp
  · rename_i harg
    exact allOf_ne_overflow (h _ harg)

theorem constKeyMapFold_ne_overflow
    (h : ∀ n ∈ i.arg, n ≤ capacity) :
    constKeyMapFold t past i ≠ .overflow := by
  unfold constKeyMapFold
  split
  · simp
  · simp
  · rename_i harg
    split
    · simp
    · split
      · split
        · exact allOf_ne_overflow (h _ harg)
        · simp
      · simp

theorem sliceFold_ne_overflow :
    sliceFold t past i ≠ .overflow := by
  unfold sliceFold
  split
  · split
    · rename_i n _ hn
      have hsmall : n ≤ capacity := by
        unfold capacity
        omega
      exact allOf_ne_overflow hsmall
    · simp
  · simp

theorem stringFold_ne_overflow
    (h : ∀ n ∈ i.arg, n ≤ capacity) :
    stringFold t past i ≠ .overflow := by
  unfold stringFold
  split
  · simp
  · simp
  · rename_i harg
    rw [withOperands_of_le (h _ harg)]
    split <;> simp

theorem callFold_ne_overflow
    {positional : Nat} {keywords : List String}
    (h : positional + keywords.length ≤ capacity) :
    callFold t past positional keywords ≠ .overflow := by
  simp only [callFold]
  rw [withOperands_of_le h]
  split
  · split
    · simp
    · split <;> simp
  · simp

theorem keywordCallFold_ne_overflow
    (h : ∀ n ∈ i.arg, n ≤ capacity) :
    keywordCallFold t past i ≠ .overflow := by
  unfold keywordCallFold
  split
  · rename_i total p rest harg hskip
    split
    · split
      · rename_i keywords _
        split
        · rename_i hguard
          have htotal : total - keywords.length + keywords.length ≤ capacity := by
            rw [Nat.sub_add_cancel hguard.2]
            exact h total harg
          exact callFold_ne_overflow htotal
        · simp
      · simp
    · simp
  · simp

theorem plainCallFold_ne_overflow
    (h : ∀ n ∈ i.arg, n ≤ capacity) :
    plainCallFold t past i ≠ .overflow := by
  unfold plainCallFold
  split
  · simp
  · rename_i harg
    split
    · exact keywordCallFold_ne_overflow h
    · exact callFold_ne_overflow (h _ harg)

theorem packedCallFold_ne_overflow :
    packedCallFold t past i ≠ .overflow := by
  unfold packedCallFold
  split
  · simp
  · rename_i arg _
    split
    · have hsmall : arg % 256 ≤ capacity := by
        unfold capacity
        omega
      exact callFold_ne_overflow hsmall
    · simp

/-- How many values the operand of an instruction counts under a rule. -/
def operandCount : FoldRule → Nat → Nat
  | .buildList, n | .buildTuple, n | .buildSet, n | .buildConstKeyMap, n | .buildString, n => n
  | .callFunction, n | .callMethod, n | .call, n | .callFunctionKw, n | .callKw, n => n
  | .buildMap, n => 2 * n
  | _, _ => 0

/-- With room for all that the operand counts, folding does not overflow. -/
theorem fold_ne_overflow
    (past : Past) {rule : FoldRule}
    (h : ∀ n ∈ i.arg, operandCount rule n ≤ capacity) :
    fold t past i rule ≠ .overflow := by
  cases rule with
  | buildList | buildTuple | buildSet =>
      exact sequenceFold_ne_overflow h
  | buildMap =>
      exact mapFold_ne_overflow h
  | buildConstKeyMap =>
      exact constKeyMapFold_ne_overflow h
  | buildSlice =>
      exact sliceFold_ne_overflow
  | buildString =>
      exact stringFold_ne_overflow h
  | callFunction | callMethod | call =>
      exact plainCallFold_ne_overflow h
  | callFunctionKw | callKw =>
      exact keywordCallFold_ne_overflow h
  | callFunctionPacked =>
      exact packedCallFold_ne_overflow
  | formatValue =>
      exact formatValueFold_ne_overflow
  | compare | binaryOp =>
      simp only [fold]
      split
      · exact fromTemplate_ne_overflow _ _
      · simp
  | infixOp | isOp | containsOp | matMul | subscript | storeAttr | storeSubscr =>
      exact fromTemplate_ne_overflow _ _
  | negate | invert | not | positive | returnValue =>
      simp only [fold]
      exact unaryFold_ne_overflow _
  | dupTop =>
      exact duplicateFold_ne_overflow
  | store =>
      exact storeFold_ne_overflow
  | attr =>
      exact attributeFold_ne_overflow
  | importFrom =>
      exact importFromFold_ne_overflow
  | makeFunction | makeFunctionOld =>
      exact functionFold_ne_overflow 3
  | raiseVarargs =>
      exact raiseFold_ne_overflow
  | returnConst | buildMapHint | importName | loadBuildClass =>
      simp [fold]

end Folds

section Pass

/-- There is room for all that the operand of an instruction counts. -/
def HasRoom (t : Table) (i : Instruction) : Prop :=
  ∀ rule ∈ ruleOf t i, ∀ n ∈ i.arg, operandCount rule n ≤ capacity

variable {t : Table}

theorem operandCount_le
    (rule : FoldRule) (n : Nat) :
    operandCount rule n ≤ 2 * n := by
  fun_cases operandCount rule n <;> omega

/-- A small operand leaves room under any rule. -/
theorem hasRoom_of_arg_le
    {i : Instruction}
    (h : ∀ n ∈ i.arg, 2 * n ≤ capacity) :
    HasRoom t i := by
  intro rule _ n hn
  exact Nat.le_trans (operandCount_le rule n) (h n hn)

/-- The operand of an instruction is small enough to leave room under any rule. -/
def isSmall (i : Instruction) : Bool :=
  i.arg.all fun n => 2 * n ≤ capacity

theorem forall_hasRoom_of_isSmall
    {is : List Instruction}
    (h : is.all isSmall = true) :
    ∀ i ∈ is, HasRoom t i := by
  intro i hi
  refine hasRoom_of_arg_le fun n hn => ?_
  have hsmall := List.all_eq_true.mp h i hi
  rw [isSmall, Option.mem_def.mp hn, Option.all_some] at hsmall
  exact of_decide_eq_true hsmall

theorem noteOf?_of_hasRoom
    (past : Past) {i : Instruction}
    (h : HasRoom t i) :
    noteOf? t past i = some (noteOf t past i) := by
  rw [noteOf_eq, noteOf?]
  cases i.expression with
  | some text =>
      rfl
  | none =>
      cases hrule : ruleOf t i with
      | none =>
          rfl
      | some rule =>
          have hfold := fold_ne_overflow (t := t) past (h rule hrule)
          dsimp only
          cases houtcome : fold t past i rule with
          | folded | degraded | declined =>
              rfl
          | overflow =>
              exact absurd houtcome hfold

theorem annotateFrom?_of_hasRoom
    {past : Past} {is : List Instruction}
    (h : ∀ i ∈ is, HasRoom t i) :
    annotateFrom? t past is = some (annotateFrom t past is) := by
  induction is generalizing past with
  | nil =>
      rfl
  | cons i rest ih =>
      rw [List.forall_mem_cons] at h
      rw [annotateFrom?_cons, noteOf?_of_hasRoom past h.1, Option.bind_some, ih h.2]
      rfl

/-- Instructions with room do not keep those before them from their notes. -/
theorem isSome_annotate?_append
    (pre : List Instruction) {body : List Instruction}
    (h : ∀ i ∈ body, HasRoom t i) :
    (annotate? t (pre ++ body)).isSome = (annotate? t pre).isSome := by
  rw [annotate?, annotate?, annotateFrom?_append, annotateFrom?_of_hasRoom h]
  cases annotateFrom? t [] pre <;> rfl

/-- With room for the operands of all instructions, the pass gives their notes. -/
theorem annotate?_of_hasRoom
    {is : List Instruction}
    (h : ∀ i ∈ is, HasRoom t i) :
    annotate? t is = some (annotate t is) :=
  annotateFrom?_of_hasRoom h

end Pass
end Fold
end Disassembler
