import Disassembler.Proofs.Effects
import Mathlib.Data.Nat.Bitwise

/-!
# Stack effects are exact or absent

**Input.**  A table whose stack counts have thirty-two bits with sign and are not the least such
number, an opcode, and an operand of any size or none.

**Results.**
* `Formula` writes a stack rule as the arithmetic on bits of the operand that it stands for, over
  unbounded integers; `subterms` are the numbers met on the way.
* `natAbs_value_le_size`: a formula that reads the operand only through masks has a size that no
  operand exceeds, in the result and on the way.  Only the rule for pairs is not of this kind.
* `stackEffect_exact`: a stack effect is the exact one, it is absent only for want of the opcode, of
  a signed operand, of room in a count or of room in the effect, and no number on the way leaves
  its width.
-/

namespace Disassembler

/-- The integer is a number of so many bits with sign. -/
def Signed (bits : Nat) (n : Int) : Prop :=
  -2 ^ (bits - 1) ≤ n ∧ n < 2 ^ (bits - 1)

instance (bits : Nat) (n : Int) : Decidable (Signed bits n) :=
  inferInstanceAs (Decidable (_ ∧ _))

theorem signed32_iff
    {n : Int} :
    Signed 32 n ↔ -0x80000000 ≤ n ∧ n < 0x80000000 :=
  Iff.rfl

theorem signed64_iff
    {n : Int} :
    Signed 64 n ↔ -0x8000000000000000 ≤ n ∧ n < 0x8000000000000000 :=
  Iff.rfl

theorem within?_signed32_eq_some_iff
    {n m : Int} :
    Width.within? Width.signed32 n = some m ↔ Signed 32 n ∧ n = m := by
  rw [Width.within?_eq_some_iff]
  rfl

theorem fits_eq_some_iff
    {n m : Int} :
    StackRule.fits n = some m ↔ Signed 64 n ∧ n = m := by
  rw [StackRule.fits, Width.within?_eq_some_iff]
  rfl

section Formulas

/-- What combines two numbers of a formula. -/
inductive Operation where
  | plus
  | minus
  | times
deriving DecidableEq

/-- A number computed from the bits of an operand. -/
inductive Formula where
  | number (n : Int)
  | operand
  | field (shift mask : Nat)
  | ones (mask : Nat)
  | choose (mask : Nat) (set clear : Int)
  | negative (x : Formula)
  | binary (op : Operation) (x y : Formula)
deriving DecidableEq

def Operation.apply : Operation → Int → Int → Int
  | .plus, m, n => m + n
  | .minus, m, n => m - n
  | .times, m, n => m * n

theorem Operation.natAbs_apply_le
    (op : Operation) (m n : Int) :
    (op.apply m n).natAbs ≤ m.natAbs * n.natAbs + m.natAbs + n.natAbs := by
  cases op with
  | plus =>
      have hsum : (m + n).natAbs ≤ m.natAbs + n.natAbs := Int.natAbs_add_le m n
      simp only [apply]
      omega
  | minus =>
      have hdifference : (m - n).natAbs ≤ m.natAbs + n.natAbs := Int.natAbs_sub_le m n
      simp only [apply]
      omega
  | times =>
      simp only [apply, Int.natAbs_mul]
      omega

namespace Formula

instance (n : Nat) : OfNat Formula n := ⟨.number n⟩

instance : Neg Formula := ⟨.negative⟩

instance : Add Formula := ⟨.binary .plus⟩

instance : Sub Formula := ⟨.binary .minus⟩

instance : Mul Formula := ⟨.binary .times⟩

/-- The exact number for an operand. -/
def value : Formula → Nat → Int
  | number n, _ => n
  | operand, a => a
  | field shift mask, a => ((a >>> shift) &&& mask : Nat)
  | ones mask, a => (List.range 64).countP (a &&& mask).testBit
  | choose mask set clear, a => if a &&& mask ≠ 0 then set else clear
  | negative x, a => -x.value a
  | binary op x y, a => op.apply (x.value a) (y.value a)

section Values

variable (x y : Formula) (a : Nat)

@[simp]
theorem value_ofNat
    (n : Nat) :
    (no_index (OfNat.ofNat n) : Formula).value a = n :=
  rfl

@[simp]
theorem value_neg :
    (-x).value a = -x.value a :=
  rfl

@[simp]
theorem value_add :
    (x + y).value a = x.value a + y.value a :=
  rfl

@[simp]
theorem value_sub :
    (x - y).value a = x.value a - y.value a :=
  rfl

@[simp]
theorem value_mul :
    (x * y).value a = x.value a * y.value a :=
  rfl

theorem value_field
    (shift bits : Nat) :
    (field shift (2 ^ bits - 1)).value a = (a : Int) / 2 ^ shift % 2 ^ bits := by
  rw [value, Nat.and_two_pow_sub_one_eq_mod, Nat.shiftRight_eq_div_pow]
  norm_cast

theorem value_choose
    (i : Nat) (set clear : Int) :
    (choose (2 ^ i) set clear).value a =
      if (a : Int) / 2 ^ i % 2 = 1 then set else clear := by
  have hbit : a &&& 2 ^ i ≠ 0 ↔ (a : Int) / 2 ^ i % 2 = 1 := by
    rw [Nat.and_two_pow, Nat.testBit_eq_decide_div_mod_eq]
    norm_cast
    simp
  simp only [value, hbit]

end Values

/-- The formulas whose numbers are met when the formula is computed, itself included. -/
def subterms : Formula → List Formula
  | negative x => negative x :: x.subterms
  | binary op x y => binary op x y :: (x.subterms ++ y.subterms)
  | x => [x]

/-- A bound for the numbers of a formula that has the operand only under masks. -/
def size : Formula → Nat
  | number n => n.natAbs
  | operand => 0
  | field _ mask => mask
  | ones _ => 64
  | choose _ set clear => set.natAbs + clear.natAbs
  | negative x => x.size
  | binary _ x y => x.size * y.size + x.size + y.size

theorem self_mem_subterms
    (x : Formula) :
    x ∈ x.subterms := by
  cases x <;> simp [subterms]

/-- No number met on the way exceeds the size, whatever the operand. -/
theorem natAbs_value_le_size
    {x : Formula}
    (hmasked : operand ∉ x.subterms)
    (a : Nat) :
    ∀ y ∈ x.subterms, (y.value a).natAbs ≤ x.size := by
  induction x with
  | number n =>
      simp [subterms, value, size]
  | operand =>
      exact absurd (self_mem_subterms operand) hmasked
  | field shift mask =>
      have hmask : (a >>> shift) &&& mask ≤ mask := Nat.and_le_right
      simpa [subterms, value, size] using hmask
  | ones mask =>
      have hlength : (List.range 64).countP (a &&& mask).testBit ≤ 64 := by
        simpa using List.countP_le_length (p := (a &&& mask).testBit) (l := List.range 64)
      simpa [subterms, value, size] using hlength
  | choose mask set clear =>
      simp only [subterms, List.mem_singleton, forall_eq, value, size]
      split <;> omega
  | negative x ih =>
      simp only [subterms, List.mem_cons, not_or] at hmasked
      have hparts := ih hmasked.2
      intro y hy
      rcases List.mem_cons.mp hy with rfl | hy
      · simpa [value, size] using hparts x x.self_mem_subterms
      · exact hparts y hy
  | binary op x y ihx ihy =>
      simp only [subterms, List.mem_cons, List.mem_append, not_or] at hmasked
      have hx := ihx hmasked.2.1
      have hy := ihy hmasked.2.2
      -- The sum of the sizes stands beside their product, so that the size is also above its parts.
      intro z hz
      simp only [subterms, List.mem_cons, List.mem_append] at hz
      rcases hz with rfl | hz | hz
      · calc
          ((binary op x y).value a).natAbs ≤
              (x.value a).natAbs * (y.value a).natAbs + (x.value a).natAbs + (y.value a).natAbs :=
            op.natAbs_apply_le _ _
          _ ≤ x.size * y.size + x.size + y.size := by
            have hx := hx x x.self_mem_subterms
            have hy := hy y y.self_mem_subterms
            exact Nat.add_le_add (Nat.add_le_add (Nat.mul_le_mul hx hy) hx) hy
      · have hpart := hx z hz
        simp only [size]
        omega
      · have hpart := hy z hz
        simp only [size]
        omega

end Formula

namespace StackRule

/-- The change of the stack height that a rule stands for, in terms of the operand's bits. -/
def formula (rule : StackRule) : Formula :=
  let low := .field 0 0xFF
  let high := .field 8 0xFF
  let annotations := .field 16 0x7FFF
  match rule with
  | mapPairs => 1 - .operand * 2
  | mapUnpackWithCall => 1 - low
  | unpackEx => low + high
  | callPacked => -(low + 2 * high)
  | callPackedVar => -(low + 2 * high) - 1
  | callPackedVarKw => -(low + 2 * high) - 2
  | callEx => .choose 1 (-2) (-1)
  | callEx311 => .choose 1 (-3) (-2)
  | makeFunction33 => 1 - (2 + low + 2 * high + annotations + 0)
  | makeClosure33 => 1 - (2 + low + 2 * high + annotations + 1)
  | makeFunction36 => -1 - .ones 0x0F
  | makeFunction311 => -.ones 0x0F
  | nullPushFlag => .choose 1 2 1
  | methodFlag => .choose 1 1 0
  | superAttr => .choose 1 (-1) (-2)
  | formatValue => .choose 4 (-1) 0

variable {rule : StackRule}

/-- Every rule but that for pairs masks the operand, and its numbers are small. -/
theorem masked_formula
    (hrule : rule ≠ .mapPairs) :
    .operand ∉ rule.formula.subterms ∧ rule.formula.size < 0x8000000000000000 := by
  cases rule with
  | mapPairs =>
      exact absurd rfl hrule
  | _ =>
      decide

theorem signed_of_mem_subterms
    (hrule : rule ≠ .mapPairs)
    {a : Nat} {x : Formula}
    (hx : x ∈ rule.formula.subterms) :
    Signed 64 (x.value a) := by
  obtain ⟨hmasked, hsize⟩ := masked_formula hrule
  have hvalue := Formula.natAbs_value_le_size hmasked a x hx
  rw [signed64_iff]
  omega

/-- The set bits under a mask of four are those of the remainder by sixteen. -/
theorem value_ones
    (a : Nat) :
    (Formula.ones 0x0F).value a = lowBits a := by
  have hmask : a &&& 0x0F = a % 16 := Nat.and_two_pow_sub_one_eq_mod a 4
  have hlow : lowBits (a : Int) = lowBits ((a % 16 : Nat) : Int) := by
    simp only [lowBits]
    omega
  have hcount : ∀ m < 16, ((List.range 64).countP (Nat.testBit m) : Int) = lowBits (m : Int) := by
    decide
  rw [Formula.value, hmask, hlow, hcount (a % 16) (Nat.mod_lt a (by decide))]

/-- A rule that masks the operand has its exact effect, however large the operand is. -/
theorem effect_eq_value
    (hrule : rule ≠ .mapPairs)
    (a : Nat) :
    rule.effect a = some (rule.formula.value a) := by
  have hlow : (Formula.field 0 0xFF).value a = (a : Int) % 256 := by
    simpa using Formula.value_field a 0 8
  have hhigh : (Formula.field 8 0xFF).value a = (a : Int) / 256 % 256 := Formula.value_field a 8 8
  have hnotes : (Formula.field 16 0x7FFF).value a = (a : Int) / 65536 % 32768 :=
    Formula.value_field a 16 15
  have hflag : ∀ set clear, (Formula.choose 1 set clear).value a =
      if (a : Int) % 2 = 1 then set else clear := by
    simpa using Formula.value_choose a 0
  have hformat : ∀ set clear, (Formula.choose 4 set clear).value a =
      if (a : Int) / 4 % 2 = 1 then set else clear := Formula.value_choose a 2
  cases rule with
  | mapPairs =>
      exact absurd rfl hrule
  | makeFunction36 =>
      exact congrArg (fun n => some (-1 - n)) (value_ones a).symm
  | makeFunction311 =>
      exact congrArg (fun n => some (-n)) (value_ones a).symm
  | _ =>
      simp only [effect, formula, Formula.value_add, Formula.value_sub, Formula.value_mul,
        Formula.value_neg, Formula.value_ofNat, hlow, hhigh, hnotes, hflag, hformat,
        Option.some.injEq] <;> omega

theorem effect_mapPairs_eq_some_iff
    {a : Nat} {e : Int} :
    effect .mapPairs a = some e ↔
      Signed 64 ((a : Int) * 2) ∧ Signed 64 (1 - (a : Int) * 2) ∧ 1 - (a : Int) * 2 = e := by
  simp only [effect, Option.bind_eq_some_iff, fits_eq_some_iff]
  constructor
  · rintro ⟨pairs, ⟨hpairs, rfl⟩, heffect, rfl⟩
    exact ⟨hpairs, heffect, rfl⟩
  · rintro ⟨hpairs, heffect, rfl⟩
    exact ⟨_, ⟨hpairs, rfl⟩, heffect, rfl⟩

/-- In thirty-two bits a rule has an effect exactly when the exact one fits. -/
theorem bind_effect_eq_some_iff
    {a : Nat} {e : Int} :
    (rule.effect a).bind (Width.within? Width.signed32) = some e ↔
      Signed 32 (rule.formula.value a) ∧ rule.formula.value a = e := by
  by_cases hrule : rule = .mapPairs
  · subst hrule
    have hvalue : (formula .mapPairs).value a = 1 - (a : Int) * 2 := rfl
    simp only [Option.bind_eq_some_iff, effect_mapPairs_eq_some_iff, within?_signed32_eq_some_iff,
      hvalue]
    constructor
    · rintro ⟨_, ⟨_, _, rfl⟩, hfit⟩
      exact hfit
    · intro hfit
      -- An effect of thirty-two bits leaves both checked steps room in sixty-four.
      have hbounds := signed32_iff.mp hfit.1
      refine ⟨_, ⟨?_, ?_, rfl⟩, hfit⟩
      · rw [signed64_iff]
        omega
      · rw [signed64_iff]
        omega
  · rw [effect_eq_value hrule, Option.bind_some, within?_signed32_eq_some_iff]

/-- No number met while a rule is computed leaves its width, except where the rule checks it and
gives no effect. -/
theorem subterms_signed_or_effect_eq_none
    {a : Nat}
    (ha : a ≤ 0x7FFFFFFFFFFFFFFF) :
    (∀ x ∈ rule.formula.subterms, Signed 64 (x.value a)) ∨
      rule = .mapPairs ∧ rule.effect a = none := by
  by_cases hrule : rule = .mapPairs
  · subst hrule
    cases heffect : effect .mapPairs a with
    | none =>
        exact Or.inr ⟨rfl, rfl⟩
    | some e =>
        obtain ⟨hpairs, hrest, _⟩ := effect_mapPairs_eq_some_iff.mp heffect
        have hsubterms : (formula .mapPairs).subterms =
            [formula .mapPairs, 1, .operand * 2, .operand, 2] := rfl
        have hone : Signed 64 1 := by decide
        have htwo : Signed 64 2 := by decide
        have hoperand : Signed 64 a := signed64_iff.mpr (by omega)
        left
        simp only [hsubterms, List.forall_mem_cons]
        exact ⟨hrest, hone, hpairs, hoperand, htwo, by simp⟩
  · exact Or.inl fun x hx => signed_of_mem_subterms hrule hx

end StackRule
end Formulas

namespace Stack

section Exactness

variable {info : OpInfo} {arg : Option Nat}

/-- There is an operand, and a number of sixty-four bits with sign can hold it. -/
def HasOperand (arg : Option Nat) : Prop :=
  ∃ a, arg = some a ∧ a ≤ 0x7FFFFFFFFFFFFFFF

/-- A count is resolved and goes beyond sixty-four bits with sign. -/
def HasHugeCount (info : OpInfo) (arg : Option Nat) : Prop :=
  info.stackRule = none ∧
    (0x7FFFFFFFFFFFFFFF < count info.push (arg.getD 0) ∨
      0x7FFFFFFFFFFFFFFF < count info.pop (arg.getD 0))

/-- The change of the stack height over unbounded integers. -/
def exactEffect (info : OpInfo) (a : Nat) : Int :=
  match info.stackRule with
  | some rule => rule.formula.value a
  | none => count info.push a - count info.pop a

/-- The numbers met while an effect is computed stay in their widths, as far as the computation
goes. -/
structure StaysInWidth (info : OpInfo) (arg : Option Nat) : Prop where
  -- What a count adds to the operand is computed in thirty-two bits.
  sentinels : ∀ c ∈ [info.push, info.pop], c < 0 → Signed 32 (-c) ∧ Signed 32 (-c - 1)
  -- Counts are combined in sixty-four bits.
  counts : ∀ push pop, resolveCount info.push arg = some push →
    resolveCount info.pop arg = some pop →
      Signed 64 push ∧ Signed 64 pop ∧ Signed 64 (push - pop)
  -- A rule is computed in sixty-four bits.
  rule : ∀ rule a, info.stackRule = some rule → arg = some a → a ≤ 0x7FFFFFFFFFFFFFFF →
    (∀ x ∈ rule.formula.subterms, Signed 64 (x.value a)) ∨
      rule = .mapPairs ∧ rule.effect a = none

theorem count_nonneg
    (c : Int) (a : Nat) :
    0 ≤ count c a := by
  unfold count
  split <;> omega

theorem signedOperand_eq_some_iff
    {n : Int} :
    signedOperand arg = some n ↔ ∃ a : Nat, arg = some a ∧ a ≤ 0x7FFFFFFFFFFFFFFF ∧ a = n := by
  simp only [signedOperand, Option.bind_eq_some_iff, fits_eq_some_iff, signed64_iff]
  constructor
  · rintro ⟨a, harg, hbounds, rfl⟩
    exact ⟨a, harg, by omega, rfl⟩
  · rintro ⟨a, harg, hbound, rfl⟩
    exact ⟨a, harg, by omega, rfl⟩

/-- A count is resolved to the exact number, when there is an operand for it and room. -/
theorem resolveCount_eq_some_iff
    {c m : Int}
    (hc : Signed 32 c) :
    resolveCount c arg = some m ↔
      (c < 0 → HasOperand arg) ∧ count c (arg.getD 0) ≤ 0x7FFFFFFFFFFFFFFF ∧
        count c (arg.getD 0) = m := by
  rw [signed32_iff] at hc
  by_cases hsign : 0 ≤ c
  · simp only [resolveCount, count, if_pos hsign, Option.some.injEq]
    omega
  · simp only [resolveCount, count, if_neg hsign, Option.bind_eq_some_iff,
      signedOperand_eq_some_iff, fits_eq_some_iff, signed64_iff]
    constructor
    · rintro ⟨_, ⟨a, rfl, ha, rfl⟩, hbounds, hm⟩
      exact ⟨fun _ => ⟨a, rfl, ha⟩, by simp only [Option.getD_some]; omega, hm⟩
    · rintro ⟨hoperand, hbound, hm⟩
      obtain ⟨a, rfl, ha⟩ := hoperand (by omega)
      simp only [Option.getD_some] at hbound hm
      exact ⟨_, ⟨a, rfl, ha, rfl⟩, by omega, hm⟩

theorem effectOf_rule_eq_some_iff
    {rule : StackRule} {e : Int}
    (hrule : info.stackRule = some rule) :
    (effectOf info arg).bind (Width.within? Width.signed32) = some e ↔
      HasOperand arg ∧ Signed 32 (exactEffect info (arg.getD 0)) ∧
        exactEffect info (arg.getD 0) = e := by
  simp only [effectOf, exactEffect, hrule, Option.bind_assoc]
  rw [Option.bind_eq_some_iff]
  constructor
  · rintro ⟨n, hn, heffect⟩
    obtain ⟨a, rfl, ha, rfl⟩ := signedOperand_eq_some_iff.mp hn
    exact ⟨⟨a, rfl, ha⟩, StackRule.bind_effect_eq_some_iff.mp heffect⟩
  · rintro ⟨⟨a, rfl, ha⟩, hfit⟩
    exact ⟨a, signedOperand_eq_some_iff.mpr ⟨a, rfl, ha, rfl⟩,
      StackRule.bind_effect_eq_some_iff.mpr hfit⟩

/-- What two counts are resolved to is not negative, so that their difference has room. -/
theorem signed_sub_of_resolveCount
    {c d push pop : Int}
    (hc : Signed 32 c)
    (hd : Signed 32 d)
    (hpush : resolveCount c arg = some push)
    (hpop : resolveCount d arg = some pop) :
    Signed 64 push ∧ Signed 64 pop ∧ Signed 64 (push - pop) := by
  obtain ⟨_, hpushBound, rfl⟩ := (resolveCount_eq_some_iff hc).mp hpush
  obtain ⟨_, hpopBound, rfl⟩ := (resolveCount_eq_some_iff hd).mp hpop
  have hpushSign : 0 ≤ count c (arg.getD 0) := count_nonneg c _
  have hpopSign : 0 ≤ count d (arg.getD 0) := count_nonneg d _
  simp only [signed64_iff]
  omega

theorem effectOf_counts_eq_some_iff
    {e : Int}
    (hrule : info.stackRule = none)
    (hpush : Signed 32 info.push)
    (hpop : Signed 32 info.pop) :
    (effectOf info arg).bind (Width.within? Width.signed32) = some e ↔
      (NeedsOperand info → HasOperand arg) ∧ ¬ HasHugeCount info arg ∧
        Signed 32 (exactEffect info (arg.getD 0)) ∧ exactEffect info (arg.getD 0) = e := by
  have hneeds : NeedsOperand info ↔ info.pop < 0 ∨ info.push < 0 := by
    simp [NeedsOperand, hrule]
  have hhuge : ¬ HasHugeCount info arg ↔ count info.push (arg.getD 0) ≤ 0x7FFFFFFFFFFFFFFF ∧
      count info.pop (arg.getD 0) ≤ 0x7FFFFFFFFFFFFFFF := by
    simp [HasHugeCount, hrule]
  rw [hneeds, hhuge]
  simp only [effectOf, exactEffect, hrule, Option.bind_eq_some_iff, fits_eq_some_iff,
    within?_signed32_eq_some_iff]
  constructor
  · rintro ⟨_, ⟨push, hpushed, pop, hpopped, _, rfl⟩, hfit⟩
    obtain ⟨hpushOperand, hpushBound, rfl⟩ := (resolveCount_eq_some_iff hpush).mp hpushed
    obtain ⟨hpopOperand, hpopBound, rfl⟩ := (resolveCount_eq_some_iff hpop).mp hpopped
    exact ⟨Or.rec hpopOperand hpushOperand, ⟨hpushBound, hpopBound⟩, hfit⟩
  · rintro ⟨hoperand, ⟨hpushBound, hpopBound⟩, hfit⟩
    have hpushed := (resolveCount_eq_some_iff hpush).mpr
      ⟨fun h => hoperand (Or.inr h), hpushBound, rfl⟩
    have hpopped := (resolveCount_eq_some_iff hpop).mpr
      ⟨fun h => hoperand (Or.inl h), hpopBound, rfl⟩
    have hroom := (signed_sub_of_resolveCount hpush hpop hpushed hpopped).2.2
    exact ⟨_, ⟨_, hpushed, _, hpopped, hroom, rfl⟩, hfit⟩

/-- An instruction has a stack effect exactly when it has its operand, its counts have room and the
exact effect fits; and the effect is the exact one. -/
theorem stackEffect_eq_some_iff
    {t : Table} {opcode : Nat} {e : Int}
    (hinfo : t.info opcode = some info)
    (hpush : Signed 32 info.push)
    (hpop : Signed 32 info.pop) :
    stackEffect t opcode arg = some e ↔
      (NeedsOperand info → HasOperand arg) ∧ ¬ HasHugeCount info arg ∧
        Signed 32 (exactEffect info (arg.getD 0)) ∧ exactEffect info (arg.getD 0) = e := by
  rw [stackEffect, hinfo, Option.bind_some]
  cases hrule : info.stackRule with
  | some rule =>
      have hneeds : NeedsOperand info := Or.inl (by simp [hrule])
      have hhuge : ¬ HasHugeCount info arg := by simp [HasHugeCount, hrule]
      rw [effectOf_rule_eq_some_iff hrule]
      simp only [hneeds, hhuge, true_imp_iff, not_false_eq_true, true_and]
  | none =>
      exact effectOf_counts_eq_some_iff hrule hpush hpop

theorem stackEffect_eq_none_iff
    {t : Table} {opcode : Nat}
    (hinfo : t.info opcode = some info)
    (hpush : Signed 32 info.push)
    (hpop : Signed 32 info.pop) :
    stackEffect t opcode arg = none ↔
      NeedsOperand info ∧ ¬ HasOperand arg ∨ HasHugeCount info arg ∨
        ¬ Signed 32 (exactEffect info (arg.getD 0)) := by
  have hsome : (∃ e, stackEffect t opcode arg = some e) ↔
      (NeedsOperand info → HasOperand arg) ∧ ¬ HasHugeCount info arg ∧
        Signed 32 (exactEffect info (arg.getD 0)) := by
    simp only [stackEffect_eq_some_iff hinfo hpush hpop, exists_and_left, exists_eq', and_true]
  rw [← not_iff_not, ← ne_eq, Option.ne_none_iff_exists', hsome]
  simp only [not_or, not_and, not_not]

theorem staysInWidth
    (hcounts : ∀ c ∈ [info.push, info.pop], Signed 32 c ∧ c ≠ -2147483648) :
    StaysInWidth info arg where
  sentinels := by
    intro c hc hsign
    obtain ⟨hwidth, hleast⟩ := hcounts c hc
    simp only [signed32_iff] at hwidth ⊢
    omega
  counts := by
    simp only [List.forall_mem_cons] at hcounts
    obtain ⟨⟨hpush, _⟩, ⟨hpop, _⟩, _⟩ := hcounts
    exact fun _ _ => signed_sub_of_resolveCount hpush hpop
  rule := fun _ _ _ _ ha => StackRule.subterms_signed_or_effect_eq_none ha

/-- Stack effects are exact or absent: what is given is the exact effect, none is given exactly when
the opcode is unknown, an operand is needed and there is none that a number with sign can hold, a
count has no room or the exact effect does not fit; and the numbers on the way stay in their
widths. -/
theorem stackEffect_exact
    {t : Table}
    (hcounts : ∀ opcode info, t.info opcode = some info →
      ∀ c ∈ [info.push, info.pop], Signed 32 c ∧ c ≠ -2147483648)
    (opcode : Nat) (arg : Option Nat) :
    (∀ e, stackEffect t opcode arg = some e →
      ∃ info, t.info opcode = some info ∧ e = exactEffect info (arg.getD 0)) ∧
    (stackEffect t opcode arg = none ↔
      t.info opcode = none ∨ ∃ info, t.info opcode = some info ∧
        (NeedsOperand info ∧ ¬ HasOperand arg ∨ HasHugeCount info arg ∨
          ¬ Signed 32 (exactEffect info (arg.getD 0)))) ∧
    (∀ info, t.info opcode = some info → StaysInWidth info arg) := by
  cases hinfo : t.info opcode with
  | none =>
      have habsent : stackEffect t opcode arg = none := by
        rw [stackEffect, hinfo, Option.bind_none]
      simp [habsent]
  | some info =>
      have hinfoCounts := hcounts opcode info hinfo
      have hpush : Signed 32 info.push := (hinfoCounts _ (by simp)).1
      have hpop : Signed 32 info.pop := (hinfoCounts _ (by simp)).1
      refine ⟨?_, ?_, ?_⟩
      · intro e he
        obtain ⟨_, _, _, hexact⟩ := (stackEffect_eq_some_iff hinfo hpush hpop).mp he
        exact ⟨info, rfl, hexact.symm⟩
      · rw [stackEffect_eq_none_iff hinfo hpush hpop]
        simp only [reduceCtorEq, false_or, Option.some.injEq, exists_eq_left']
      · rintro _ ⟨⟩
        exact staysInWidth hinfoCounts

def samplePairs : OpInfo :=
  { name := "BUILD_MAP", pop := 0, push := 1, stackRule := some .mapPairs }

def sampleMethod : OpInfo :=
  { name := "CALL_METHOD", pop := -3, push := 1 }

/-- A table with an opcode that takes pairs and one that takes two values beside its operand. -/
def sampleCounts : Table :=
  { Table.empty ⟨⟨3, 8⟩, .cpython⟩ with
    ops := .ofList [(105, samplePairs), (161, sampleMethod)] }

/-- Pairs have no effect when their number doubles beyond sixty-four bits, although the result
would fit there again; and a call has none when its count goes beyond them. -/
theorem stackEffect_exact_sampleCounts :
    (∀ opcode info, sampleCounts.info opcode = some info →
      ∀ c ∈ [info.push, info.pop], Signed 32 c ∧ c ≠ -2147483648) ∧
    stackEffect sampleCounts 105 (some 3) = some (exactEffect samplePairs 3) ∧
    stackEffect sampleCounts 105 (some (2 ^ 62)) = none ∧
    Signed 64 (exactEffect samplePairs (2 ^ 62)) ∧
    stackEffect sampleCounts 161 (some (2 ^ 63 - 1)) = none ∧
    StaysInWidth sampleMethod (some (2 ^ 63 - 1)) := by
  have hpairs : sampleCounts.info 105 = some samplePairs := by decide
  have hmethod : sampleCounts.info 161 = some sampleMethod := by decide
  have hcounts : ∀ opcode info, sampleCounts.info opcode = some info →
      ∀ c ∈ [info.push, info.pop], Signed 32 c ∧ c ≠ -2147483648 := by
    intro opcode info hinfo
    have hmem : (opcode, info) ∈ sampleCounts.ops.toList :=
      Std.ExtTreeMap.mem_toList_iff_getElem?_eq_some.mpr hinfo
    have hall : ∀ p ∈ sampleCounts.ops.toList,
        ∀ c ∈ [p.2.push, p.2.pop], Signed 32 c ∧ c ≠ -2147483648 := by
      decide
    exact hall _ hmem
  have hthree : stackEffect sampleCounts 105 (some 3) = some (-5) := by decide
  obtain ⟨_, hexactInfo, hexact⟩ := (stackEffect_exact hcounts 105 (some 3)).1 _ hthree
  obtain rfl := Option.some.inj (hpairs.symm.trans hexactInfo)
  refine ⟨hcounts, hthree.trans (congrArg some hexact), ?_, by decide, ?_, ?_⟩
  · exact (stackEffect_exact hcounts 105 _).2.1.mpr
      (Or.inr ⟨_, hpairs, Or.inr (Or.inr (by decide))⟩)
  · exact (stackEffect_exact hcounts 161 _).2.1.mpr
      (Or.inr ⟨_, hmethod, Or.inr (Or.inl ⟨rfl, Or.inr (by decide)⟩)⟩)
  · exact (stackEffect_exact hcounts 161 _).2.2 _ hmethod

end Exactness
end Stack
end Disassembler
