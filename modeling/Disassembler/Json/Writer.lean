import Disassembler.Json.Basic
import Disassembler.Number.FloatText

/-!
# Writing JSON texts

**Results.** `Json.pretty` writes one item or member a line, indented by two blanks a level; an
empty list or object stays on its line. In texts only the double quote, the backslash and the
control characters below the blank are escaped.
-/

namespace Disassembler
namespace Json

/-- Doubles in JSON texts: positional from `10 ^ -5` up to `10 ^ 16`, a whole number with `.0`, an
exponent without plus sign and padding, and a tie to the even digit. -/
def floatFormat : FloatFormat :=
  ⟨-5, 15, true, false, 1, .even⟩

/-- A character inside a JSON text. -/
def escapeChar (c : Char) : List Char :=
  if c == '"' then ['\\', '"']
  else if c == '\\' then ['\\', '\\']
  else if c == '\x08' then ['\\', 'b']
  else if c == '\x0c' then ['\\', 'f']
  else if c == '\n' then ['\\', 'n']
  else if c == '\r' then ['\\', 'r']
  else if c == '\t' then ['\\', 't']
  else if c.toNat < 0x20 then ['\\', 'u'] ++ (Text.hexPadded 4 c.toNat).toList
  else [c]

def quote (s : String) : String :=
  String.ofList ('"' :: (s.toList.flatMap escapeChar ++ ['"']))

/-- The start of a line at a level. -/
def newline (level : Nat) : String :=
  "\n" ++ String.ofList (List.replicate (2 * level) ' ')

mutual

/-- A value whose lines after the first are indented for a level. -/
def prettyAt (level : Nat) : Json → String
  | .null => "null"
  | .bool true => "true"
  | .bool false => "false"
  | .int n => Text.signed n
  | .float x => floatFormat.write x
  | .str s => quote s
  | .arr [] => "[]"
  | .arr (item :: rest) =>
    "[" ++ newline (level + 1) ++ prettyAt (level + 1) item ++ prettyItems (level + 1) rest
      ++ newline level ++ "]"
  | .obj [] => "\x7b\x7d"
  | .obj ((name, value) :: rest) =>
    "\x7b" ++ newline (level + 1) ++ quote name ++ ": " ++ prettyAt (level + 1) value
      ++ prettyMembers (level + 1) rest ++ newline level ++ "\x7d"

def prettyItems (level : Nat) : List Json → String
  | [] => ""
  | item :: rest => "," ++ newline level ++ prettyAt level item ++ prettyItems level rest

def prettyMembers (level : Nat) : List (String × Json) → String
  | [] => ""
  | (name, value) :: rest =>
    "," ++ newline level ++ quote name ++ ": " ++ prettyAt level value ++ prettyMembers level rest

end

def pretty (j : Json) : String :=
  prettyAt 0 j

end Json
end Disassembler
