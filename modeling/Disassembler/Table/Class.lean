import Disassembler.Text.Words

/-!
# What opcodes do

**Results.** An `OpClass` is a set of opcodes that share a role. The seven operand classes decide
how an operand is resolved. An `OpKind` is the kind of a definition and stands for a fixed group of
classes; an `OpFlag` adds to them. Classes have one name each; kinds and flags have a word in table
definitions and a name in data.
-/

namespace Disassembler

/-- A role that opcodes can share. -/
inductive OpClass where
  | name
  | const
  | slot
  | free
  | jumpRel
  | jumpAbs
  | compare
  | nargs
  | varargs
  | call
  | unary
  | binary
  | ternary
  | store
  | nullaryOp
  | nullaryLoad
  | noFollow
  | conditional
  | encodedArg
  | hasExc
deriving DecidableEq, Repr, Inhabited

namespace OpClass

def all : List OpClass :=
  [.name, .const, .slot, .free, .jumpRel, .jumpAbs, .compare, .nargs, .varargs, .call, .unary,
   .binary, .ternary, .store, .nullaryOp, .nullaryLoad, .noFollow, .conditional, .encodedArg,
   .hasExc]

/-- The classes that decide how an operand is resolved. -/
def operand : List OpClass :=
  [.name, .const, .slot, .free, .jumpRel, .jumpAbs, .compare]

def text : OpClass → String
  | .name => "name"
  | .const => "const"
  | .slot => "local"
  | .free => "free"
  | .jumpRel => "jump_rel"
  | .jumpAbs => "jump_abs"
  | .compare => "compare"
  | .nargs => "nargs"
  | .varargs => "varargs"
  | .call => "call"
  | .unary => "unary"
  | .binary => "binary"
  | .ternary => "ternary"
  | .store => "store"
  | .nullaryOp => "nullary_op"
  | .nullaryLoad => "nullary_load"
  | .noFollow => "no_follow"
  | .conditional => "conditional"
  | .encodedArg => "encoded_arg"
  | .hasExc => "has_exc"

def ofText? : String → Option OpClass :=
  Text.named? all text

/-- The position in the order of classes. -/
def rank (c : OpClass) : Nat :=
  all.idxOf c

/-- Every class is listed. -/
theorem mem_all
    (c : OpClass) :
    c ∈ all := by
  cases c <;> decide

/-- Different classes have different positions. -/
theorem rank_inj
    {a b : OpClass}
    (h : a.rank = b.rank) :
    a = b := by
  have key : ∀ x ∈ all, ∀ y ∈ all, x.rank = y.rank → x = y := by decide
  exact key a (mem_all a) b (mem_all b) h

/-- The order of the list of all classes. -/
def order : OpClass → OpClass → Ordering :=
  compareOn rank

instance : Ord OpClass := ⟨order⟩

instance : Std.TransOrd OpClass := by
  unfold Std.TransOrd
  show Std.TransCmp order
  unfold order
  infer_instance

/-- Classes compare equal only when they are equal. -/
theorem eq_of_order
    {a b : OpClass}
    (h : order a b = .eq) :
    a = b := by
  simp only [order, compareOn, Std.LawfulEqOrd.compare_eq_iff_eq] at h
  exact rank_inj h

instance : Std.LawfulEqOrd OpClass where
  eq_of_compare := eq_of_order

end OpClass

/-- Where a store puts its value. -/
inductive StoreTarget where
  | plain
  | name
  | slot
  | free
deriving DecidableEq, Repr, Inhabited

namespace StoreTarget

def all : List StoreTarget :=
  [.plain, .name, .slot, .free]

def text : StoreTarget → String
  | .plain => "plain"
  | .name => "name"
  | .slot => "local"
  | .free => "free"

end StoreTarget

/-- The kind of an opcode definition. -/
inductive OpKind where
  | plain
  | name
  | slot
  | free
  | const
  | jumpRel
  | jumpAbs
  | compare
  | unary
  | binary
  | ternary
  | nargs
  | call
  | varargs
  | store (target : StoreTarget)
deriving DecidableEq, Repr, Inhabited

namespace OpKind

def all : List OpKind :=
  [.plain, .name, .slot, .free, .const, .jumpRel, .jumpAbs, .compare, .unary, .binary, .ternary,
   .nargs, .call, .varargs, .store .plain, .store .name, .store .slot, .store .free]

/-- The classes of a definition of this kind. -/
def classes : OpKind → List OpClass
  | .plain => []
  | .name => [.name, .nullaryOp]
  | .slot => [.slot, .nullaryOp]
  | .const => [.const, .nullaryOp]
  | .free => [.free]
  | .jumpRel => [.jumpRel]
  | .jumpAbs => [.jumpAbs]
  | .compare => [.compare, .binary]
  | .unary => [.unary]
  | .binary => [.binary]
  | .ternary => [.ternary]
  | .nargs => [.nargs]
  | .call => [.call, .nargs]
  | .varargs => [.varargs]
  | .store .plain => [.store]
  | .store .name => [.name, .store]
  | .store .slot => [.slot, .store]
  | .store .free => [.free, .store]

def word : OpKind → String
  | .plain => "op"
  | .name => "name"
  | .slot => "local"
  | .free => "free"
  | .const => "const"
  | .jumpRel => "jrel"
  | .jumpAbs => "jabs"
  | .compare => "compare"
  | .unary => "unary"
  | .binary => "binary"
  | .ternary => "ternary"
  | .nargs => "nargs"
  | .call => "call"
  | .varargs => "varargs"
  | .store .plain => "store"
  | .store .name => "store_name"
  | .store .slot => "store_local"
  | .store .free => "store_free"

def ofWord? : String → Option OpKind :=
  Text.named? all word

/-- The kinds with a name of their own in data: all but the stores. -/
def simple : List OpKind :=
  [.plain, .name, .slot, .free, .const, .jumpRel, .jumpAbs, .compare, .unary, .binary, .ternary,
   .nargs, .call, .varargs]

/-- The name in data; stores also write their target. -/
def text : OpKind → String
  | .plain => "plain"
  | .name => "name"
  | .slot => "local"
  | .free => "free"
  | .const => "const"
  | .jumpRel => "jump_rel"
  | .jumpAbs => "jump_abs"
  | .compare => "compare"
  | .unary => "unary"
  | .binary => "binary"
  | .ternary => "ternary"
  | .nargs => "nargs"
  | .call => "call"
  | .varargs => "varargs"
  | .store _ => "store"

end OpKind

/-- An addition to an opcode definition. -/
inductive OpFlag where
  | noFollow
  | conditional
  | nullaryLoad
  | backward
  | encodedArg
  | hasExc
deriving DecidableEq, Repr, Inhabited

namespace OpFlag

def all : List OpFlag :=
  [.noFollow, .conditional, .nullaryLoad, .backward, .encodedArg, .hasExc]

def classes : OpFlag → List OpClass
  | .noFollow => [.noFollow]
  | .conditional => [.conditional]
  | .nullaryLoad => [.nullaryLoad, .nullaryOp]
  | .backward => []
  | .encodedArg => [.encodedArg]
  | .hasExc => [.hasExc]

def word : OpFlag → String
  | .noFollow => "nofollow"
  | .conditional => "cond"
  | .nullaryLoad => "nullary_load"
  | .backward => "backward"
  | .encodedArg => "encoded_arg"
  | .hasExc => "exc"

def ofWord? : String → Option OpFlag :=
  Text.named? all word

def text : OpFlag → String
  | .noFollow => "no_follow"
  | .conditional => "conditional"
  | .nullaryLoad => "nullary_load"
  | .backward => "backward"
  | .encodedArg => "encoded_arg"
  | .hasExc => "has_exc"

end OpFlag
end Disassembler
