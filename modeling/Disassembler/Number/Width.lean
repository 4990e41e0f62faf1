/-!
# Numbers of fixed width

Numbers without sign lie below `UInt16.size`, `UInt32.size` or `UInt64.size`; numbers with sign lie
on both sides of zero, as far as one of the bounds here.

**Results.** `within?` keeps an integer that a number with sign can hold.
-/

namespace Disassembler
namespace Width

/-- Numbers of thirty-two bits with sign go from minus this bound up to the number before it. -/
abbrev signed32 : Nat :=
  0x80000000

/-- Numbers of sixty-four bits with sign go from minus this bound up to the number before it. -/
abbrev signed64 : Nat :=
  0x8000000000000000

/-- The integer, when it lies from `-bound` to `bound - 1`. -/
def within? (bound : Nat) (n : Int) : Option Int :=
  if -(bound : Int) ≤ n ∧ n < (bound : Int) then some n else none

/-- An integer is kept exactly when it lies in the range, and it is not changed. -/
theorem within?_eq_some_iff
    {bound : Nat} {n m : Int} :
    within? bound n = some m ↔ (-(bound : Int) ≤ n ∧ n < (bound : Int)) ∧ n = m := by
  simp [within?]

end Width
end Disassembler
