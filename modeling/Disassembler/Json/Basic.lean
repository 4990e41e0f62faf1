import Disassembler.Number.Binary64
import Disassembler.Number.Width

/-!
# JSON values

A number written without a point and an exponent is an integer, every other number a double; the two
are kept apart. An object keeps its members in the order in which they are written, repeated names
included.

**Results.** `Json.Variant` is the reading of a JSON value as one of several named alternatives: a
bare name, or an object with the name as its only member.
-/

namespace Disassembler

/-- A JSON value. -/
inductive Json where
  | null
  | bool (value : Bool)
  | int (value : Int)
  | float (value : Binary64)
  | str (value : String)
  | arr (items : List Json)
  | obj (members : List (String × Json))
deriving Inhabited, Repr

namespace Json

def bool? : Json → Option Bool
  | .bool b => some b
  | _ => none

def str? : Json → Option String
  | .str s => some s
  | _ => none

/-- An integer from zero up to, not including, the bound. -/
def nat? (bound : Nat) : Json → Option Nat
  | .int (.ofNat n) => if n < bound then some n else none
  | _ => none

/-- An integer from `-bound` up to, not including, `bound`. -/
def int? (bound : Nat) : Json → Option Int
  | .int n => Width.within? bound n
  | _ => none

/-- A number of either kind, as a double. -/
def float? : Json → Option Binary64
  | .int n => some (Binary64.ofInt n)
  | .float x => some x
  | _ => none

def arr? : Json → Option (List Json)
  | .arr items => some items
  | _ => none

/-- A list whose items are all read by the same reader. -/
def list? {α : Type} (read : Json → Option α) (j : Json) : Option (List α) :=
  match j with
  | .arr items => items.mapM read
  | _ => none

/-- The value of the first member with a name. -/
def lookup (name : String) : List (String × Json) → Option Json
  | [] => none
  | (k, v) :: rest => if k = name then some v else lookup name rest

/-- One of several named alternatives, with what is written beside the name. -/
structure Variant where
  name : String
  -- The value beside the name; a bare name has none.
  content : Option Json

/-- A bare name, or an object with one member. -/
def variant? : Json → Option Variant
  | .str s => some ⟨s, none⟩
  | .obj [(k, v)] => some ⟨k, some v⟩
  | _ => none

/-- The alternative holds nothing: a bare name, or a null beside the name. -/
def Variant.isUnit (v : Variant) : Bool :=
  match v.content with
  | none => true
  | some .null => true
  | some _ => false

/-- The object with one member, as an alternative with content is written. -/
def tagged (name : String) (content : Json) : Json :=
  .obj [(name, content)]

/-- A natural number as a JSON number. -/
def nat (n : Nat) : Json :=
  .int n

/-- An optional value, null when it is absent. -/
def option {α : Type} (write : α → Json) : Option α → Json
  | none => .null
  | some a => write a

/-- A list of values. -/
def list {α : Type} (write : α → Json) (items : List α) : Json :=
  .arr (items.map write)

/-- One of the names belongs to several members. -/
def hasRepeated (names : List String) (members : List (String × Json)) : Bool :=
  names.any fun n => 1 < (members.filter fun m => m.1 == n).length

/-- The members of an object with the given names, in their order. A repeated one is refused. -/
def members? (names : List String) : Json → Option (List (Option Json))
  | .obj members =>
    if hasRepeated names members then none else some (names.map fun n => lookup n members)
  | _ => none

/-- The values of a record's fields, in the order of their names: members of an object by name, or
items of a list by position, where a list may stop early but not have too many items. -/
def record? (names : List String) : Json → Option (List (Option Json))
  | .arr items =>
    if items.length ≤ names.length then
      some (items.map some ++ List.replicate (names.length - items.length) none)
    else none
  | j => j.members? names

end Json
end Disassembler
