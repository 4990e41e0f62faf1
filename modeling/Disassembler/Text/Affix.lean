/-!
# The ends of texts

**Results.** `afterStart?` and `beforeEnd?` give what is left of a text without a known start or
end, if it has it.
-/

namespace Disassembler
namespace Text

/-- What follows a start in a list of characters. -/
def dropStart? : List Char → List Char → Option (List Char)
  | [], cs => some cs
  | _ :: _, [] => none
  | p :: ps, c :: cs => if p = c then dropStart? ps cs else none

/-- The text after a start. -/
def afterStart? (start s : String) : Option String :=
  (dropStart? start.toList s.toList).map String.ofList

/-- The text before an end. -/
def beforeEnd? (ending s : String) : Option String :=
  (dropStart? ending.toList.reverse s.toList.reverse).map fun cs => String.ofList cs.reverse

/-- The text has a start. -/
def hasStart (start s : String) : Bool :=
  (dropStart? start.toList s.toList).isSome

end Text
end Disassembler
