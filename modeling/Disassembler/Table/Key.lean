import Disassembler.Number.Decimal
import Disassembler.Text.Blank
import Disassembler.Text.Layout

/-!
# Versions, implementations and table keys

**Results.** A `Version` is read from a text such as `3.11` or `3.8.10`, whose third part is checked
and dropped; an `Implementation` from its name in any letter case. A `TableKey` is the pair of both.
Keys are ordered by version, then by implementation.
-/

namespace Disassembler

/-- A language version, without its third part. -/
structure Version where
  major : UInt8
  minor : UInt8
deriving DecidableEq, Repr, Inhabited

namespace Version

def text (v : Version) : String :=
  Text.decimal v.major.toNat ++ "." ++ Text.decimal v.minor.toNat

/-- One of the first two parts of a version text. -/
def part? (cs : List Char) : Option UInt8 :=
  (Decimal.unsigned? 256 (String.ofList cs)).map UInt8.ofNat

/-- Two parts below 256, a third one below `2 ^ 32` if it is there, and anything after a third
point. -/
def ofText? (s : String) : Option Version :=
  match (Text.trim s).toList.splitOn '.' with
  | major :: minor :: rest =>
    match part? major, part? minor with
    | some a, some b =>
      match rest with
      | [] => some ⟨a, b⟩
      | micro :: _ => (Decimal.unsigned? UInt32.size (String.ofList micro)).map fun _ => ⟨a, b⟩
    | _, _ => none
  | _ => none

end Version

/-- An implementation of the language. -/
inductive Implementation where
  | cpython
  | pypy
  | graal
deriving DecidableEq, Repr, Inhabited

namespace Implementation

def text : Implementation → String
  | .cpython => "cpython"
  | .pypy => "pypy"
  | .graal => "graal"

/-- The position in the order of implementations. -/
def rank : Implementation → Nat
  | .cpython => 0
  | .pypy => 1
  | .graal => 2

/-- Different implementations have different positions. -/
theorem rank_inj
    {a b : Implementation}
    (h : a.rank = b.rank) :
    a = b := by
  cases a <;> cases b <;> first | rfl | cases h

/-- The form in which a name is looked up: without white space around it, in lower case. -/
def normalize (s : String) : String :=
  String.ofList ((Text.trim s).toList.map Char.toLower)

/-- The implementation with a name; one of them has two names. -/
def ofText? (s : String) : Option Implementation :=
  let name := normalize s
  if name = "cpython" then some .cpython
  else if name = "pypy" then some .pypy
  else if name = "graal" ∨ name = "graalpy" then some .graal
  else none

end Implementation

/-- What an opcode table is for. -/
structure TableKey where
  version : Version
  implementation : Implementation
deriving DecidableEq, Repr, Inhabited

namespace TableKey

def text (k : TableKey) : String :=
  k.implementation.text ++ " " ++ k.version.text

/-- The order by version, then by implementation. -/
def order : TableKey → TableKey → Ordering :=
  compareLex (compareOn (·.version.major))
    (compareLex (compareOn (·.version.minor)) (compareOn (·.implementation.rank)))

instance : Ord TableKey := ⟨order⟩

instance : Std.TransOrd TableKey := by
  unfold Std.TransOrd
  show Std.TransCmp order
  unfold order
  infer_instance

/-- Keys compare equal only when they are equal. -/
theorem eq_of_order
    {a b : TableKey}
    (h : order a b = .eq) :
    a = b := by
  simp only [order, compareLex, compareOn, Ordering.then_eq_eq,
    Std.LawfulEqOrd.compare_eq_iff_eq] at h
  obtain ⟨hmajor, hminor, himpl⟩ := h
  obtain ⟨⟨amaj, amin⟩, ai⟩ := a
  obtain ⟨⟨bmaj, bmin⟩, bi⟩ := b
  simp only at hmajor hminor himpl
  rw [hmajor, hminor, Implementation.rank_inj himpl]

instance : Std.LawfulEqOrd TableKey where
  eq_of_compare := eq_of_order

end TableKey
end Disassembler
