import Disassembler.Json.Basic
import Disassembler.Number.Decimal

/-!
# Reading JSON texts

**Input.** A text.

**Algorithm.** A scanner goes through the characters once and collects tokens; a builder goes
through the tokens once and keeps the lists and objects that are still open on a stack. Both are
folds, so reading always ends.

**Results.** `Json.parse?` accepts exactly one value with white space around it. Numbers follow the
JSON grammar: an integer that does not fit sixty-four bits, and minus zero, are doubles, and a
double that would be infinite is refused. At most `maxDepth` lists and objects may be open at once.
-/

namespace Disassembler
namespace Json

/-- A piece of a JSON text. -/
inductive Token where
  | openList
  | closeList
  | openObject
  | closeObject
  | colon
  | comma
  | scalar (value : Json)

section Numbers

def isDigits (cs : List Char) : Bool :=
  !cs.isEmpty && cs.all Char.isDigit

/-- The whole part of a number: digits without a leading zero. -/
def isWhole : List Char → Bool
  | ['0'] => true
  | '0' :: _ => false
  | cs => isDigits cs

/-- The exponent of a number, without its mark. -/
def isExponent : List Char → Bool
  | '+' :: rest => isDigits rest
  | '-' :: rest => isDigits rest
  | cs => isDigits cs

/-- A number without its sign: a whole part, then an optional fraction and an optional exponent. -/
def isNumber (cs : List Char) : Bool :=
  let head := cs.takeWhile fun c => !Decimal.isExponentMark c
  let power := cs.dropWhile fun c => !Decimal.isExponentMark c
  let whole := head.takeWhile (· != '.')
  let fraction := head.dropWhile (· != '.')
  isWhole whole && (fraction.isEmpty || isDigits (fraction.drop 1))
    && (power.isEmpty || isExponent (power.drop 1))

/-- A double, refused when it is infinite. -/
def double? (negative : Bool) (cs : List Char) : Option Json :=
  match Decimal.scientific? negative cs with
  | none => none
  | some x => if x.toBinary64.isFinite then some (.float x.toBinary64) else none

/-- A number without its sign. -/
def unsignedNumber? (negative : Bool) (cs : List Char) : Option Json :=
  if isNumber cs then
    match Decimal.natural? cs with
    | some n =>
      if negative then
        if 0 < n ∧ n ≤ Width.signed64 then some (.int (-(n : Int))) else double? negative cs
      else if n < UInt64.size then some (.int n) else double? negative cs
    | none => double? negative cs
  else none

/-- A number or one of the three words. -/
def word? (cs : List Char) : Option Json :=
  if cs = ['n', 'u', 'l', 'l'] then some .null
  else if cs = ['t', 'r', 'u', 'e'] then some (.bool true)
  else if cs = ['f', 'a', 'l', 's', 'e'] then some (.bool false)
  else match cs with
    | '-' :: rest => unsignedNumber? true rest
    | _ => unsignedNumber? false cs

end Numbers

section Scanner

/-- Where the scanner stands. Characters already read are kept last first. -/
inductive Mode where
  | between
  | word (read : List Char)
  | text (read : List Char)
  | escape (read : List Char)
  -- In a character given by number, after the first half of a pair if there is one.
  | number (read : List Char) (high : Option Nat) (missing value : Nat)
  | pair (read : List Char) (high : Nat)
  | pairEscape (read : List Char) (high : Nat)

/-- The scanner's state: where it stands, and the tokens so far, last first. -/
structure Scanner where
  mode : Mode
  tokens : List Token

def isSpace (c : Char) : Bool :=
  c == ' ' || c == '\n' || c == '\t' || c == '\r'

/-- The token of a character that is a token by itself. -/
def mark? (c : Char) : Option Token :=
  if c == '[' then some .openList
  else if c == ']' then some .closeList
  else if c == '\x7b' then some .openObject
  else if c == '\x7d' then some .closeObject
  else if c == ':' then some .colon
  else if c == ',' then some .comma
  else none

/-- A step between tokens. -/
def Scanner.start (tokens : List Token) (c : Char) : Scanner :=
  if isSpace c then ⟨.between, tokens⟩
  else if c == '"' then ⟨.text [], tokens⟩
  else match mark? c with
    | some t => ⟨.between, t :: tokens⟩
    | none => ⟨.word [c], tokens⟩

/-- The character that a letter after a backslash stands for. -/
def escaped? (c : Char) : Option Char :=
  if c == '"' || c == '\\' || c == '/' then some c
  else if c == 'b' then some '\x08'
  else if c == 'f' then some '\x0c'
  else if c == 'n' then some '\n'
  else if c == 'r' then some '\r'
  else if c == 't' then some '\t'
  else none

/-- The value of a hexadecimal digit of either case. -/
def hexValue? (c : Char) : Option Nat :=
  if c.isDigit then some (c.toNat - '0'.toNat)
  else if 'a' ≤ c ∧ c ≤ 'f' then some (c.toNat - 'a'.toNat + 10)
  else if 'A' ≤ c ∧ c ≤ 'F' then some (c.toNat - 'A'.toNat + 10)
  else none

/-- The mode after a character number is complete. The halves of a pair must stand together. -/
def codeUnit? (read : List Char) (high : Option Nat) (value : Nat) : Option Mode :=
  match high with
  | some h =>
    if 0xDC00 ≤ value ∧ value ≤ 0xDFFF then
      some (.text (Char.ofNat (0x10000 + (h - 0xD800) * 0x400 + (value - 0xDC00)) :: read))
    else none
  | none =>
    if 0xD800 ≤ value ∧ value ≤ 0xDBFF then some (.pair read value)
    else if 0xDC00 ≤ value ∧ value ≤ 0xDFFF then none
    else some (.text (Char.ofNat value :: read))

/-- A step in any mode. -/
def Scanner.step (s : Scanner) (c : Char) : Option Scanner :=
  match s.mode with
  | .between => some (Scanner.start s.tokens c)
  | .word read =>
    if isSpace c || c == '"' || (mark? c).isSome then
      (word? read.reverse).map fun v => Scanner.start (.scalar v :: s.tokens) c
    else some ⟨.word (c :: read), s.tokens⟩
  | .text read =>
    if c == '"' then some ⟨.between, .scalar (.str (String.ofList read.reverse)) :: s.tokens⟩
    else if c == '\\' then some ⟨.escape read, s.tokens⟩
    else if c.toNat < 0x20 then none
    else some ⟨.text (c :: read), s.tokens⟩
  | .escape read =>
    if c == 'u' then some ⟨.number read none 4 0, s.tokens⟩
    else (escaped? c).map fun d => ⟨.text (d :: read), s.tokens⟩
  | .number read high missing value =>
    match hexValue? c with
    | none => none
    | some d =>
      if missing ≤ 1 then (codeUnit? read high (value * 16 + d)).map fun m => ⟨m, s.tokens⟩
      else some ⟨.number read high (missing - 1) (value * 16 + d), s.tokens⟩
  | .pair read high => if c == '\\' then some ⟨.pairEscape read high, s.tokens⟩ else none
  | .pairEscape read high =>
    if c == 'u' then some ⟨.number read (some high) 4 0, s.tokens⟩ else none

/-- The tokens of a text. -/
def tokens? (s : String) : Option (List Token) :=
  match s.toList.foldlM Scanner.step ⟨.between, []⟩ with
  | some ⟨.between, tokens⟩ => some tokens.reverse
  | some ⟨.word read, tokens⟩ => (word? read.reverse).map fun v => (.scalar v :: tokens).reverse
  | _ => none

end Scanner

section Builder

/-- A list or an object that is still open, with its items or members so far, last first. -/
inductive Frame where
  | list (items : List Json)
  | object (members : List (String × Json))
  | member (members : List (String × Json)) (name : String)

/-- What may come next. -/
inductive Expect where
  | value
  | valueOrEnd
  | name
  | nameOrEnd
  | colon
  | commaOrEnd
  | nothing
deriving DecidableEq

/-- The builder's state. -/
structure Builder where
  expect : Expect
  stack : List Frame
  result : Option Json

/-- The greatest number of lists and objects that may be open at once. -/
def maxDepth : Nat :=
  127

/-- Puts a complete value where it belongs. -/
def Builder.place (b : Builder) (v : Json) : Option Builder :=
  match b.stack with
  | [] => some ⟨.nothing, [], some v⟩
  | .list items :: rest => some ⟨.commaOrEnd, .list (v :: items) :: rest, none⟩
  | .member members name :: rest => some ⟨.commaOrEnd, .object ((name, v) :: members) :: rest, none⟩
  | .object _ :: _ => none

/-- Opens a list or an object. -/
def Builder.push (b : Builder) (f : Frame) (next : Expect) : Option Builder :=
  if (b.expect = .value ∨ b.expect = .valueOrEnd) ∧ b.stack.length < maxDepth then
    some ⟨next, f :: b.stack, none⟩
  else none

/-- A step for one token. -/
def Builder.step (b : Builder) : Token → Option Builder
  | .scalar v =>
    match b.expect, v, b.stack with
    | .value, _, _ => b.place v
    | .valueOrEnd, _, _ => b.place v
    | .name, .str s, .object members :: rest => some ⟨.colon, .member members s :: rest, none⟩
    | .nameOrEnd, .str s, .object members :: rest => some ⟨.colon, .member members s :: rest, none⟩
    | _, _, _ => none
  | .openList => b.push (.list []) .valueOrEnd
  | .openObject => b.push (.object []) .nameOrEnd
  | .closeList =>
    match b.expect, b.stack with
    | .valueOrEnd, .list items :: rest => Builder.place ⟨.value, rest, none⟩ (.arr items.reverse)
    | .commaOrEnd, .list items :: rest => Builder.place ⟨.value, rest, none⟩ (.arr items.reverse)
    | _, _ => none
  | .closeObject =>
    match b.expect, b.stack with
    | .nameOrEnd, .object ms :: rest => Builder.place ⟨.value, rest, none⟩ (.obj ms.reverse)
    | .commaOrEnd, .object ms :: rest => Builder.place ⟨.value, rest, none⟩ (.obj ms.reverse)
    | _, _ => none
  | .comma =>
    match b.expect, b.stack with
    | .commaOrEnd, .list items :: rest => some ⟨.value, .list items :: rest, none⟩
    | .commaOrEnd, .object members :: rest => some ⟨.name, .object members :: rest, none⟩
    | _, _ => none
  | .colon => if b.expect = .colon then some ⟨.value, b.stack, none⟩ else none

end Builder

/-- The value that a text spells. -/
def parse? (s : String) : Option Json := do
  let tokens ← tokens? s
  let b ← tokens.foldlM Builder.step ⟨.value, [], none⟩
  b.result

end Json
end Disassembler
