import Disassembler.Decode.Environment
import Disassembler.Decode.Instruction

/-!
# Resolving operands

**Results.** `resolve` finds what an operand stands for. The first class that applies decides:
constants, names, local variables, cell and free variables, jumps, comparisons; any other operand
stands for itself.
-/

namespace Disassembler
namespace Decode

/-- A resolved operand. -/
structure Resolved where
  value : OperandValue
  repr : String
  kind : OperandKind

/-- The entry of a pool. -/
def entry {α : Type} (pool : Pool) (items : List α) (index : Nat) : Except Malformed α :=
  match items[index]? with
  | some a => .ok a
  | none => .error (.indexOutOfRange pool index items.length)

def resolveConst (env : Environment) (arg : Nat) : Except Malformed Resolved :=
  match entry .consts env.consts arg with
  | .error p => .error p
  | .ok c => .ok ⟨.const c, c.repr .double, .const⟩

/-- The index of a name in an operand, and what stands before the name. -/
def nameIndex (encoding : OperandEncoding) (arg : Nat) : Nat × String :=
  match encoding with
  | .nullPush => (arg / 2, if arg % 2 = 1 then "NULL + " else "")
  | .methodFlag => (arg / 2, if arg % 2 = 1 then "NULL|self + " else "")
  | .superMethodFlag => (arg / 4, if arg % 2 = 1 then "NULL|self + " else "")
  | _ => (arg, "")

def resolveName (env : Environment) (encoding : OperandEncoding) (arg : Nat) :
    Except Malformed Resolved :=
  let packed := nameIndex encoding arg
  match entry .names env.names packed.1 with
  | .error p => .error p
  | .ok name => .ok ⟨.name name, packed.2 ++ name, .name⟩

/-- A variable, or two of them packed into one operand. -/
def resolveVariable (pool : Pool) (kind : OperandKind) (items : List String)
    (encoding : OperandEncoding) (arg : Nat) : Except Malformed Resolved :=
  if encoding = .nibblePair then
    match entry pool items (arg / 16) with
    | .error p => .error p
    | .ok first =>
      match entry pool items (arg % 16) with
      | .error p => .error p
      | .ok second => .ok ⟨.names [first, second], first ++ ", " ++ second, kind⟩
  else
    match entry pool items arg with
    | .error p => .error p
    | .ok name => .ok ⟨.name name, name, kind⟩

/-- The index of a comparison in an operand, and whether its result is made a truth value. Operands
have 64 bits, and a shift counts modulo their number. -/
def comparisonIndex (encoding : OperandEncoding) (arg : Nat) : Nat × Bool :=
  match encoding with
  | .compareShift bits => (arg >>> (bits % 64), false)
  | .compareBool => (arg / 32, arg / 16 % 2 == 1)
  | _ => (arg, false)

def resolveComparison (encoding : OperandEncoding) (arg : Nat) : Except Malformed Resolved :=
  let packed := comparisonIndex encoding arg
  match entry .comparisons Operand.comparisons packed.1 with
  | .error p => .error p
  | .ok symbol =>
    .ok ⟨.symbol symbol, if packed.2 then "bool(" ++ symbol ++ ")" else symbol, .compare⟩

/-- The target of a jump `distance` bytes from `base`, if it is not before the first byte. -/
def relativeTarget (backward : Bool) (base distance : Nat) : Option Nat :=
  if backward then if distance ≤ base then some (base - distance) else none
  else some (base + distance)

/-- The target of a jump. A relative one counts from the next instruction, `next` being the offset
after the operand. -/
def jumpTarget? (t : Table) (info : OpInfo) (opcode arg next : Nat) : Option Nat :=
  let distance := arg * t.settings.jumpUnit
  let target :=
    if t.is opcode .jumpAbs then some distance
    else relativeTarget info.backward (next + 2 * info.cacheEntries) distance
  if distance < UInt64.size then target.filter (· < UInt64.size) else none

def resolveJump (t : Table) (info : OpInfo) (opcode arg next : Nat) : Except Malformed Resolved :=
  match jumpTarget? t info opcode arg next with
  | none => .error .jumpOutOfRange
  | some target =>
    .ok ⟨.target target, "to " ++ Text.decimal target,
      if t.is opcode .jumpAbs then .jumpAbs else .jumpRel⟩

/-- What an operand stands for; `next` is the offset after it. -/
def resolve (t : Table) (env : Environment) (info : OpInfo) (opcode arg next : Nat) :
    Except Malformed Resolved :=
  if t.is opcode .const then resolveConst env arg
  else if t.is opcode .name then resolveName env info.encoding arg
  else if t.is opcode .slot then resolveVariable .locals .slot env.locals info.encoding arg
  else if t.is opcode .free then resolveVariable .free .free env.free info.encoding arg
  else if t.isJump opcode then resolveJump t info opcode arg next
  else if t.is opcode .compare then resolveComparison info.encoding arg
  else .ok ⟨.int arg, t.renderOperand opcode arg, .count⟩

end Decode

/-- The text of an operand of the opcode with a name: as its format says for plain numbers, else as
the value itself. -/
def Table.formatOperand (t : Table) (name : String) (value : OperandValue) : String :=
  match t.formatFor name, value with
  | some format, .int n => format.render n t.settings.extendedArgShift
  | _, _ => value.text

end Disassembler
