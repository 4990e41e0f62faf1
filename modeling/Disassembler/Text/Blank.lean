/-!
# White space around texts

**Input.** Version and implementation texts and the lines of a listing.

**Results.** `isBlank` is the `White_Space` property of characters; `trim` removes it at both ends
of a text and `trimRight` at its end only.
-/

namespace Disassembler
namespace Text

/-- The ranges of characters with the `White_Space` property, in increasing order. -/
def blankRanges : List (Nat × Nat) :=
  [(0x09, 0x0D), (0x20, 0x20), (0x85, 0x85), (0xA0, 0xA0), (0x1680, 0x1680), (0x2000, 0x200A),
   (0x2028, 0x2029), (0x202F, 0x202F), (0x205F, 0x205F), (0x3000, 0x3000)]

/-- A character is in a list of closed ranges of code points. -/
def inRanges (ranges : List (Nat × Nat)) (c : Char) : Bool :=
  ranges.any fun r => r.1 ≤ c.toNat && c.toNat ≤ r.2

/-- White space of any script. -/
def isBlank (c : Char) : Bool :=
  inRanges blankRanges c

/-- Removes the white space at the end of a list of characters. -/
def dropBlankRight (cs : List Char) : List Char :=
  (cs.reverse.dropWhile isBlank).reverse

/-- Removes the white space at the end of a text. -/
def trimRight (s : String) : String :=
  String.ofList (dropBlankRight s.toList)

/-- Removes the white space at both ends of a text. -/
def trim (s : String) : String :=
  String.ofList (dropBlankRight (s.toList.dropWhile isBlank))

end Text
end Disassembler
