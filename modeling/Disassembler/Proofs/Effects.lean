import Disassembler.Decode.Basic
import Disassembler.Fold.Annotate

/-!
# What instructions take from the stack and leave on it

**Input.**  What a table knows about an opcode, and an operand.

**Results.**
* `taken` and `pushed` count the values, also where a stack rule only gives the difference.
* `stackEffect_eq`: the stack effect is what is pushed less what is taken, for operands of two
  bytes; for a load that may ask for an empty slot, `stackEffect_of_nullPushFlag` says this for longer
  operands too.
* `RegularAt` says that the fold rule of an opcode asks for the values that the opcode takes, and
  what else folding relies on; `regular_of_isRegular` lets this be found out by evaluation.
-/

namespace Disassembler
namespace Stack

section Counts

/-- A count for an operand, where `-(k + 1)` stands for the operand and `k` more. -/
def count (c : Int) (a : Nat) : Int :=
  if 0 ≤ c then c else a + (-c - 1)

/-- The values that an instruction leaves on the stack. -/
def pushed (info : OpInfo) (arg : Option Nat) : Int :=
  let a : Int := (arg.getD 0 : Nat)
  match info.stackRule with
  | some .unpackEx => 1 + (a % 256 + a / 256 % 256)
  | some .nullPushFlag | some .methodFlag | some .superAttr => 1 + a % 2
  | some _ => 1
  | none => count info.push (arg.getD 0)

/-- The values that an instruction takes from the stack. -/
def taken (info : OpInfo) (arg : Option Nat) : Int :=
  let a : Int := (arg.getD 0 : Nat)
  let packed := a % 256 + 2 * (a / 256 % 256)
  match info.stackRule with
  | some .mapPairs => 2 * a
  | some .mapUnpackWithCall => a % 256
  | some .unpackEx | some .methodFlag => 1
  | some .callPacked => 1 + packed
  | some .callPackedVar => 2 + packed
  | some .callPackedVarKw => 3 + packed
  | some .callEx => 2 + a % 2
  | some .callEx311 => 3 + a % 2
  | some .makeFunction33 => 2 + packed + a / 65536 % 32768
  | some .makeClosure33 => 3 + packed + a / 65536 % 32768
  | some .makeFunction36 => 2 + StackRule.lowBits a
  | some .makeFunction311 => 1 + StackRule.lowBits a
  | some .nullPushFlag => 0
  | some .superAttr => 3
  | some .formatValue => 1 + a / 4 % 2
  | none => count info.pop (arg.getD 0)

def SmallCounts (info : OpInfo) : Prop :=
  -16 ≤ info.pop ∧ info.pop ≤ 16 ∧ -16 ≤ info.push ∧ info.push ≤ 16

/-- The operand decides how many values are taken or left. -/
def NeedsOperand (info : OpInfo) : Prop :=
  info.stackRule ≠ none ∨ info.pop < 0 ∨ info.push < 0

def TwoBytes (arg : Option Nat) : Prop :=
  ∃ a, arg = some a ∧ a < 65536

variable {info : OpInfo} {arg : Option Nat}

theorem fits_of_lt
    {n : Int}
    (hlow : -0x8000000000000000 ≤ n)
    (hhigh : n < 0x8000000000000000) :
    StackRule.fits n = some n := by
  have hbound : (Width.signed64 : Int) = 0x8000000000000000 := by
    decide
  rw [StackRule.fits, Width.within?_eq_some_iff, hbound]
  exact ⟨⟨hlow, hhigh⟩, rfl⟩

theorem signedOperand_of_lt
    {a : Nat}
    (h : a < 0x8000000000000000) :
    signedOperand (some a) = some (a : Int) := by
  have hfits : StackRule.fits (a : Int) = some (a : Int) := fits_of_lt (by omega) (by omega)
  rw [signedOperand, Option.bind_some, hfits]

theorem resolveCount_eq
    {c : Int}
    (hsmall : -16 ≤ c)
    (harg : c < 0 → TwoBytes arg) :
    resolveCount c arg = some (count c (arg.getD 0)) := by
  by_cases hc : 0 ≤ c
  · rw [resolveCount, if_pos hc, count, if_pos hc]
  · obtain ⟨a, rfl, ha⟩ := harg (by omega)
    have hsum : StackRule.fits ((a : Int) + (-c - 1)) = some ((a : Int) + (-c - 1)) :=
      fits_of_lt (by omega) (by omega)
    rw [resolveCount, if_neg hc, signedOperand_of_lt (by omega), Option.bind_some, hsum, count,
      if_neg hc, Option.getD_some]

theorem count_bounds
    {c : Int}
    (hsmall : -16 ≤ c ∧ c ≤ 16)
    (harg : c < 0 → TwoBytes arg) :
    0 ≤ count c (arg.getD 0) ∧ count c (arg.getD 0) ≤ 65552 := by
  unfold count
  split
  · omega
  · obtain ⟨a, rfl, ha⟩ := harg (by omega)
    simp only [Option.getD_some]
    omega

/-- The effect of a stack rule is what is pushed less what is taken. -/
theorem effect_eq
    {rule : StackRule} {a : Nat}
    (hrule : info.stackRule = some rule)
    (ha : a < 65536) :
    rule.effect a = some (pushed info (some a) - taken info (some a)) := by
  simp only [pushed, taken, hrule, Option.getD_some]
  cases rule with
  | mapPairs =>
      have hpairs : StackRule.fits ((a : Int) * 2) = some ((a : Int) * 2) :=
        fits_of_lt (by omega) (by omega)
      have hrest : StackRule.fits (1 - (a : Int) * 2) = some (1 - (a : Int) * 2) :=
        fits_of_lt (by omega) (by omega)
      simp only [StackRule.effect, hpairs, Option.bind_some, hrest, Option.some.injEq]
      rw [Int.mul_comm]
  | mapUnpackWithCall =>
      rfl
  | _ =>
      simp only [StackRule.effect, Option.some.injEq]
      omega

theorem pushed_sub_taken_bounds
    (hsmall : SmallCounts info)
    (harg : NeedsOperand info → TwoBytes arg) :
    -1000000 ≤ pushed info arg - taken info arg ∧
      pushed info arg - taken info arg ≤ 1000000 := by
  obtain ⟨hpop, hpop', hpush, hpush'⟩ := hsmall
  cases hrule : info.stackRule with
  | none =>
      have hpushed := count_bounds ⟨hpush, hpush'⟩ (fun h => harg (Or.inr (Or.inr h)))
      have htaken := count_bounds ⟨hpop, hpop'⟩ (fun h => harg (Or.inr (Or.inl h)))
      simp only [pushed, taken, hrule]
      omega
  | some rule =>
      obtain ⟨a, rfl, ha⟩ := harg (Or.inl (by simp [hrule]))
      simp only [pushed, taken, hrule, Option.getD_some]
      cases rule <;> simp only [StackRule.lowBits] <;> omega

theorem effectOf_eq
    (hsmall : SmallCounts info)
    (harg : NeedsOperand info → TwoBytes arg) :
    effectOf info arg = some (pushed info arg - taken info arg) := by
  have hbounds := pushed_sub_taken_bounds hsmall harg
  cases hrule : info.stackRule with
  | none =>
      have hpush := resolveCount_eq hsmall.2.2.1 (fun h => harg (Or.inr (Or.inr h)))
      have hpop := resolveCount_eq hsmall.1 (fun h => harg (Or.inr (Or.inl h)))
      simp only [pushed, taken, hrule] at hbounds
      simp only [effectOf, hrule, hpush, hpop, Option.bind_some, pushed, taken]
      exact fits_of_lt (by omega) (by omega)
  | some rule =>
      obtain ⟨a, rfl, ha⟩ := harg (Or.inl (by simp [hrule]))
      have heffect := effect_eq hrule ha
      rw [← heffect]
      simp only [effectOf, hrule, signedOperand_of_lt (show a < 0x8000000000000000 by omega),
        Option.bind_some]

/-- The stack effect is what is pushed less what is taken. -/
theorem stackEffect_eq
    {t : Table} {opcode : Nat}
    (hinfo : t.info opcode = some info)
    (hsmall : SmallCounts info)
    (harg : NeedsOperand info → TwoBytes arg) :
    stackEffect t opcode arg = some (pushed info arg - taken info arg) := by
  have hbounds := pushed_sub_taken_bounds hsmall harg
  have hbound : (Width.signed32 : Int) = 0x80000000 := by
    decide
  rw [stackEffect, hinfo, Option.bind_some, effectOf_eq hsmall harg, Option.bind_some,
    Width.within?_eq_some_iff, hbound]
  exact ⟨by omega, rfl⟩

/-- An empty slot is asked for by one bit, however large the operand is. -/
theorem stackEffect_of_nullPushFlag
    {t : Table} {opcode a : Nat}
    (hinfo : t.info opcode = some info)
    (hrule : info.stackRule = some .nullPushFlag)
    (ha : a < 0x8000000000000000) :
    stackEffect t opcode (some a) = some (pushed info (some a) - taken info (some a)) := by
  have hbound : (Width.signed32 : Int) = 0x80000000 := by
    decide
  have heffect : effectOf info (some a) = some (1 + (a : Int) % 2) := by
    simp only [effectOf, hrule, signedOperand_of_lt ha, Option.bind_some, StackRule.effect]
  have hvalue : pushed info (some a) - taken info (some a) = 1 + (a : Int) % 2 := by
    simp only [pushed, taken, hrule, Option.getD_some, Int.sub_zero]
  rw [stackEffect, hinfo, Option.bind_some, heffect, Option.bind_some, hvalue,
    Width.within?_eq_some_iff, hbound]
  exact ⟨by omega, rfl⟩

/-- The number of values taken, as the table writes it, or the stack rule that computes it. -/
def takes (info : OpInfo) : Int ⊕ StackRule :=
  match info.stackRule with
  | none => .inl info.pop
  | some .methodFlag => .inl 1
  | some rule => .inr rule

theorem taken_of_count
    {c : Int}
    (h : takes info = .inl c) :
    taken info arg = count c (arg.getD 0) := by
  unfold takes at h
  split at h
  · rename_i hrule
    cases h
    simp only [taken, hrule]
  · rename_i hrule
    cases h
    simp [taken, hrule, count]
  · cases h

theorem stackRule_of_takes
    {rule : StackRule}
    (h : takes info = .inr rule) :
    info.stackRule = some rule := by
  unfold takes at h
  split at h
  · cases h
  · cases h
  · rename_i hrule
    cases h
    exact hrule

end Counts
end Stack

namespace Fold

open Stack (SmallCounts NeedsOperand takes)

section Regularity

/-- The values that an opcode has to take for its fold rule, as the table writes their number; none
where the rule does not go by values. -/
def demand : FoldRule → Option (Int ⊕ StackRule)
  | .infixOp _ | .compare | .isOp | .containsOp | .binaryOp | .matMul | .subscript | .storeAttr =>
    some (.inl 2)
  | .negate | .invert | .not | .positive | .returnValue | .dupTop | .store | .attr => some (.inl 1)
  | .storeSubscr => some (.inl 3)
  | .returnConst | .buildMapHint | .loadBuildClass => some (.inl 0)
  | .buildList | .buildTuple | .buildSet | .buildSlice | .buildString | .raiseVarargs =>
    some (.inl (-1))
  | .buildConstKeyMap | .callFunction => some (.inl (-2))
  | .callFunctionKw | .callMethod | .call => some (.inl (-3))
  | .callKw => some (.inl (-4))
  | .buildMap => some (.inr .mapPairs)
  | .formatValue => some (.inr .formatValue)
  | .callFunctionPacked => some (.inr .callPacked)
  | .importName | .importFrom | .makeFunction | .makeFunctionOld => none

/-- Instructions of the opcode can leave the value of their operand. -/
def Loads (t : Table) (opcode : Nat) (info : OpInfo) : Prop :=
  info.fold = none ∧ t.is opcode .nullaryLoad = true ∨
    isLeaf t opcode = true ∧ t.operators.contains opcode = true

/-- The opcode takes nothing, and the table counts what it leaves. -/
def Leaf (info : OpInfo) : Prop :=
  info.stackRule = none ∧ info.pop = 0 ∧ 0 ≤ info.push

/-- The opcode loads a name, and the operand may ask for an empty slot. -/
def FlaggedLoad (t : Table) (opcode : Nat) (info : OpInfo) : Prop :=
  info.stackRule = some .nullPushFlag ∧ info.encoding = .nullPush ∧ t.hasArgument opcode = true ∧
    t.is opcode .const = false ∧ t.is opcode .name = true

/-- The stack counts of an opcode agree with how its instructions are folded: it takes what its rule
asks for, and nothing where it is a load. -/
structure CountsAgree (t : Table) (opcode : Nat) (info : OpInfo) : Prop where
  counts : SmallCounts info
  operand : NeedsOperand info → t.hasArgument opcode = true
  folded : ∀ rule ∈ info.fold, (demand rule = none ∨ demand rule = some (takes info)) ∧
    (info.stackRule = none → 0 ≤ info.push)
  load : Loads t opcode info → Leaf info ∨ FlaggedLoad t opcode info
  -- The rule of an opcode that takes nothing must not ask for anything either.
  leaf : isLeaf t opcode = true ∧ t.operators.contains opcode = true →
    ∀ rule ∈ info.fold, demand rule = none ∨ demand rule = some (.inl 0)

/-- The name and the classes of an opcode say what part of an expression it can be. -/
structure PartsAgree (t : Table) (opcode : Nat) (info : OpInfo) : Prop where
  -- An opcode with a constant takes nothing, and is folded by itself or not at all.
  const : t.is opcode .const = true → Leaf info ∧ info.name ≠ "PUSH_NULL" ∧
    (info.fold = none ∨ info.fold = some .returnConst)
  -- An empty slot is pushed by an opcode that is not folded and takes nothing.
  slot : info.name = "PUSH_NULL" → Leaf info ∧ info.fold = none
  -- What leaves a value neither pushes an empty slot nor names keywords.
  value : info.fold ≠ none ∨ Loads t opcode info →
    info.name ≠ "PUSH_NULL" ∧ info.name ≠ "KW_NAMES"
  -- The opcode that extends operands is no part of any expression.
  extension : t.extendedArg = some opcode →
    info.fold = none ∧ ¬ Loads t opcode info ∧ t.is opcode .const = false ∧
      info.name ≠ "PUSH_NULL"

/-- What folding relies on in a table, for one opcode. -/
structure RegularAt (t : Table) (opcode : Nat) (info : OpInfo) : Prop extends
  CountsAgree t opcode info, PartsAgree t opcode info

instance (info : OpInfo) : Decidable (SmallCounts info) :=
  inferInstanceAs (Decidable (_ ∧ _))

instance (info : OpInfo) : Decidable (NeedsOperand info) :=
  inferInstanceAs (Decidable (_ ∨ _))

instance (t : Table) (opcode : Nat) (info : OpInfo) : Decidable (Loads t opcode info) :=
  inferInstanceAs (Decidable (_ ∨ _))

instance (info : OpInfo) : Decidable (Leaf info) :=
  inferInstanceAs (Decidable (_ ∧ _))

instance (t : Table) (opcode : Nat) (info : OpInfo) : Decidable (FlaggedLoad t opcode info) :=
  inferInstanceAs (Decidable (_ ∧ _))

instance (t : Table) (opcode : Nat) (info : OpInfo) : Decidable (CountsAgree t opcode info) :=
  decidable_of_iff
    (SmallCounts info ∧ (NeedsOperand info → t.hasArgument opcode = true) ∧
      (∀ rule ∈ info.fold, (demand rule = none ∨ demand rule = some (takes info)) ∧
        (info.stackRule = none → 0 ≤ info.push)) ∧
      (Loads t opcode info → Leaf info ∨ FlaggedLoad t opcode info) ∧
      (isLeaf t opcode = true ∧ t.operators.contains opcode = true →
        ∀ rule ∈ info.fold, demand rule = none ∨ demand rule = some (.inl 0)))
    ⟨fun ⟨a, b, c, d, e⟩ => ⟨a, b, c, d, e⟩, fun ⟨a, b, c, d, e⟩ => ⟨a, b, c, d, e⟩⟩

instance (t : Table) (opcode : Nat) (info : OpInfo) : Decidable (PartsAgree t opcode info) :=
  decidable_of_iff
    ((t.is opcode .const = true → Leaf info ∧ info.name ≠ "PUSH_NULL" ∧
        (info.fold = none ∨ info.fold = some .returnConst)) ∧
      (info.name = "PUSH_NULL" → Leaf info ∧ info.fold = none) ∧
      (info.fold ≠ none ∨ Loads t opcode info →
        info.name ≠ "PUSH_NULL" ∧ info.name ≠ "KW_NAMES") ∧
      (t.extendedArg = some opcode → info.fold = none ∧ ¬ Loads t opcode info ∧
        t.is opcode .const = false ∧ info.name ≠ "PUSH_NULL"))
    ⟨fun ⟨a, b, c, d⟩ => ⟨a, b, c, d⟩, fun ⟨a, b, c, d⟩ => ⟨a, b, c, d⟩⟩

instance (t : Table) (opcode : Nat) (info : OpInfo) : Decidable (RegularAt t opcode info) :=
  decidable_of_iff (CountsAgree t opcode info ∧ PartsAgree t opcode info)
    ⟨fun ⟨a, b⟩ => ⟨a, b⟩, fun ⟨a, b⟩ => ⟨a, b⟩⟩

/-- The opcode of cache words is not folded. -/
def PlainCaches (t : Table) : Prop :=
  (t.info (Decode.cacheOpcode t)).bind (·.fold) = none

/-- A table is regular when all its opcodes are, and its cache words are not folded. -/
def Regular (t : Table) : Prop :=
  (∀ opcode info, t.info opcode = some info → RegularAt t opcode info) ∧ PlainCaches t

instance (t : Table) : Decidable (PlainCaches t) :=
  inferInstanceAs (Decidable (_ = none))

def isRegular (t : Table) : Bool :=
  t.ops.toList.all (fun p => decide (RegularAt t p.1 p.2)) && decide (PlainCaches t)

theorem regular_of_isRegular
    {t : Table}
    (h : isRegular t = true) :
    Regular t := by
  rw [isRegular, Bool.and_eq_true] at h
  refine ⟨?_, of_decide_eq_true h.2⟩
  intro opcode info hinfo
  have hmem : (opcode, info) ∈ t.ops.toList :=
    Std.ExtTreeMap.mem_toList_iff_getElem?_eq_some.mpr hinfo
  exact of_decide_eq_true (List.all_eq_true.mp h.1 _ hmem)

end Regularity
end Fold
end Disassembler
