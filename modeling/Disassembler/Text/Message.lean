import Disassembler.Text.Visible

/-!
# Texts quoted in messages

**Results.** `quoted s` stands between double quotes. A double quote and a backslash get a
backslash; tab, line feed, carriage return and the null character have short forms; every other
character that cannot be seen is written by its number in hexadecimal between braces.
-/

namespace Disassembler
namespace Text
namespace Message

/-- A character as it stands in a quoted text. -/
def escape (c : Char) : List Char :=
  if c == '"' then ['\\', '"']
  else if c == '\\' then ['\\', '\\']
  else if c == '\t' then ['\\', 't']
  else if c == '\n' then ['\\', 'n']
  else if c == '\r' then ['\\', 'r']
  else if c == '\x00' then ['\\', '0']
  else if isVisible c then [c]
  else ['\\', 'u', '\x7b'] ++ Nat.toDigits 16 c.toNat ++ ['\x7d']

/-- The text between double quotes, on one line of visible characters. -/
def quoted (s : String) : String :=
  String.ofList ('"' :: (s.toList.flatMap escape ++ ['"']))

end Message
end Text
end Disassembler
