import Disassembler.Number.Decimal
import Disassembler.Table.Edit
import Disassembler.Table.Word

/-!
# Table definitions

A table definition is a list of directives, each a verb and some words on a line of its own. Errors
name the line.

**Results.** `Directive.toEdit` is the edit that a directive stands for:

* `SET name value` changes a setting;
* `RM name opcode` removes an opcode and `RM_ALL` removes them all;
* `DEF name opcode pop push kind flag…` defines an opcode, and `REDEF` replaces it;
* `FMT`, `XFMT`, `STACK`, `ENC` and `CACHE` bind an operand format, a fold rule, a stack rule, an
  operand encoding and a number of cache words to a name; the word `-` clears the first three.
-/

namespace Disassembler

/-- A directive of a table definition, with the number of its line. -/
structure Directive where
  line : Nat
  verb : String
  args : List String
deriving DecidableEq, Repr, Inhabited

namespace Directive

def number (what : String) (bound : Nat) (w : String) : Except WordError Nat :=
  (WordError.number what w).orElse (Decimal.unsigned? bound w)

def count (what w : String) : Except WordError Int :=
  (WordError.number what w).orElse (Decimal.integer? Width.signed32 w)

def truth (w : String) : Except WordError Bool :=
  if w = "true" then .ok true else if w = "false" then .ok false else .error (.truth w)

/-- A word that a reader understands, or `-` for nothing. -/
def optional {α : Type} (read : String → Except WordError α) (w : String) :
    Except WordError (Option α) :=
  if w = "-" then .ok none else some <$> read w

/-- The setting with a name and a value. -/
def setting (name value : String) : Except WordError Setting :=
  if name = "wordcode" then .wordcode <$> truth value
  else if name = "have_argument" then .haveArgument <$> number "opcode" UInt16.size value
  else if name = "extended_arg_shift" then .extendedArgShift <$> number "shift" UInt32.size value
  else if name = "jump_unit" then .jumpUnit <$> number "jump unit" UInt32.size value
  else if name = "localsplus" then .localsPlus <$> truth value
  else if name = "exception_table" then .exceptionTable <$> truth value
  else if name = "line_table" then .lineTable <$> LineFormat.read value
  else .error (.setting name)

/-- The encoding with a name and an optional number of bits. -/
def encoding (name : String) (parameter : Option String) : Except WordError OperandEncoding :=
  match parameter with
  | none =>
    (WordError.encoding name).orElse (Text.named? OperandEncoding.simple OperandEncoding.text name)
  | some bits =>
    if name = "compare_shift" then .compareShift <$> number "shift" 256 bits
    else .error (.encoding name)

def definition (verb : String) : List String → Except WordError OpDef
  | name :: opcode :: pop :: push :: kind :: flags => do
    let kind ← OpKind.read kind
    let opcode ← number "opcode" UInt16.size opcode
    let pop ← count "pop count" pop
    let push ← count "push count" push
    let flags ← flags.mapM OpFlag.read
    return { name, opcode, pop, push, kind, flags }
  | _ => .error (.arguments verb)

/-- The edit that a directive stands for. -/
def toEdit (d : Directive) : Except WordError Edit :=
  if d.verb = "DEF" then .define <$> definition d.verb d.args
  else if d.verb = "REDEF" then .redefine <$> definition d.verb d.args
  else match d.verb, d.args with
    | "SET", [name, value] => .setting <$> setting name value
    | "RM", [name, opcode] => .remove name <$> number "opcode" UInt16.size opcode
    | "RM_ALL", [] => .ok .removeAll
    | "FMT", [name, w] => (.bind name ∘ .format) <$> optional OperandFormat.read w
    | "XFMT", [name, w] =>
      (.bind name ∘ .fold) <$> optional (fun w => FoldRule.read w none) w
    | "XFMT", [name, w, parameter] =>
      (.bind name ∘ .fold) <$> optional (fun w => FoldRule.read w (some parameter)) w
    | "STACK", [name, w] => (.bind name ∘ .stackRule) <$> optional StackRule.read w
    | "ENC", [name, w] => (.bind name ∘ .encoding) <$> encoding w none
    | "ENC", [name, w, parameter] => (.bind name ∘ .encoding) <$> encoding w (some parameter)
    | "CACHE", [name, n] => (.bind name ∘ .cacheEntries) <$> number "cache count" 256 n
    | verb, _ =>
      if ["SET", "RM", "RM_ALL", "FMT", "XFMT", "STACK", "ENC", "CACHE"].contains verb then
        .error (.arguments verb)
      else .error (.verb verb)

end Directive
end Disassembler
