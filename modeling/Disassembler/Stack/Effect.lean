import Disassembler.Table.Basic

/-!
# Stack effects

**Results.** `stackEffect` is the change of the stack height by an instruction: that of the opcode's
stack rule if it has one, else the values it leaves less the values it takes. There is no effect
when the opcode is not defined, when an operand is needed and missing, or when a number on the way
does not fit: counts and operands have sixty-four bits and the effect thirty-two, all with sign.
-/

namespace Disassembler
namespace Stack

/-- An operand as a number of sixty-four bits with sign. -/
def signedOperand (arg : Option Nat) : Option Int :=
  arg.bind fun a => StackRule.fits a

/-- A stack count, where `-(k + 1)` stands for the operand and `k` more. -/
def resolveCount (count : Int) (arg : Option Nat) : Option Int :=
  if 0 ≤ count then some count
  else (signedOperand arg).bind fun a => StackRule.fits (a + (-count - 1))

/-- The effect that follows from what is known about an opcode. -/
def effectOf (info : OpInfo) (arg : Option Nat) : Option Int :=
  match info.stackRule with
  | some rule => (signedOperand arg).bind rule.effect
  | none =>
    (resolveCount info.push arg).bind fun push =>
      (resolveCount info.pop arg).bind fun pop => StackRule.fits (push - pop)

end Stack

/-- The change of the stack height by an instruction. -/
def stackEffect (t : Table) (opcode : Nat) (arg : Option Nat) : Option Int :=
  (t.info opcode).bind fun info => (Stack.effectOf info arg).bind (Width.within? Width.signed32)

end Disassembler
