import Disassembler.Text.Hex

/-!
# String and bytes literals

**Results.** `quoteText` writes a text as a string literal and `quoteBytes` bytes as a bytes
literal, both on one line. The quote is the preferred one unless only the other does not occur
inside; inside, backslashes, line feeds, carriage returns, tabs, the quote and what cannot be
printed are escaped.
-/

namespace Disassembler
namespace Text
namespace Literal

/-- A quotation mark. -/
inductive Quote where
  | single
  | double
deriving DecidableEq, Repr, Inhabited

namespace Quote

def char : Quote → Char
  | .single => '\''
  | .double => '"'

def other : Quote → Quote
  | .single => .double
  | .double => .single

/-- The preferred mark, or the other one when only the preferred one occurs. -/
def choose (preferred : Quote) (occurs : Char → Bool) : Quote :=
  if occurs preferred.char && !occurs preferred.other.char then preferred.other else preferred

end Quote

/-- A character by its number, in two hexadecimal digits. -/
def byHex (n : Nat) : List Char :=
  ['\\', 'x', Hex.digit (n / 16), Hex.digit (n % 16)]

/-- A control character. -/
def isControl (c : Char) : Bool :=
  c.toNat < 0x20 || (0x7F ≤ c.toNat && c.toNat ≤ 0x9F)

/-- A character inside a string literal. -/
def escapeChar (quote : Char) (c : Char) : List Char :=
  if c = '\\' then ['\\', '\\']
  else if c = '\n' then ['\\', 'n']
  else if c = '\r' then ['\\', 'r']
  else if c = '\t' then ['\\', 't']
  else if c = quote then ['\\', c]
  else if isControl c then byHex c.toNat
  else [c]

/-- A byte inside a bytes literal. -/
def escapeByte (quote : Char) (b : UInt8) : List Char :=
  let c := Char.ofNat b.toNat
  if c = '\\' then ['\\', '\\']
  else if c = '\n' then ['\\', 'n']
  else if c = '\r' then ['\\', 'r']
  else if c = '\t' then ['\\', 't']
  else if c = quote then ['\\', c]
  else if 0x20 ≤ b.toNat ∧ b.toNat ≤ 0x7E then [c]
  else byHex b.toNat

/-- The literal of a text. -/
def quoteText (preferred : Quote) (s : String) : String :=
  let quote := (Quote.choose preferred fun c => s.toList.contains c).char
  String.ofList (quote :: (s.toList.flatMap (escapeChar quote) ++ [quote]))

/-- The literal of bytes. -/
def quoteBytes (bytes : List UInt8) : String :=
  let quote := (Quote.choose .single fun c => bytes.any fun b => b.toNat == c.toNat).char
  String.ofList ('b' :: quote :: (bytes.flatMap (escapeByte quote) ++ [quote]))

end Literal
end Text
end Disassembler
