/-!
# Numbers and columns in texts

**Results.** `decimal` and `signed` write integers in base ten, `hexPadded` in base sixteen, and
`padLeft` and `padRight` fill a column of a listing. A width counts characters; a text wider than
its column is kept whole.
-/

namespace Disassembler
namespace Text

/-- The base ten digits of a natural number, without leading zeros. -/
def decimal (n : Nat) : String :=
  String.ofList (Nat.toDigits 10 n)

/-- An integer in base ten, with a minus sign when it is negative. -/
def signed : Int → String
  | .ofNat n => decimal n
  | .negSucc n => "-" ++ decimal (n + 1)

/-- The text at the right end of a column, filled with `fill`. -/
def padLeftWith (fill : Char) (width : Nat) (s : String) : String :=
  String.ofList (List.replicate (width - s.length) fill) ++ s

/-- The text at the right end of a column. -/
def padLeft (width : Nat) (s : String) : String :=
  padLeftWith ' ' width s

/-- The text at the left end of a column. -/
def padRight (width : Nat) (s : String) : String :=
  s ++ String.ofList (List.replicate (width - s.length) ' ')

/-- The base sixteen digits of a number, lower case, with at least `width` of them. -/
def hexPadded (width n : Nat) : String :=
  padLeftWith '0' width (String.ofList (Nat.toDigits 16 n))

/-- Each text followed by a line end. -/
def unlines (lines : List String) : String :=
  String.join (lines.map (· ++ "\n"))

end Text
end Disassembler
