import Disassembler.Fold.Rule
import Disassembler.Operand.Format
import Disassembler.Stack.Rule
import Disassembler.Table.Class
import Disassembler.Table.Settings

/-!
# The words of table definitions

**Results.** A `WordError` says which word of a table definition is not understood, and the readers
below give the meaning of the words for operand formats, stack rules, kinds, flags and line formats.
-/

namespace Disassembler

/-- Why a word of a table definition is not understood. -/
inductive WordError where
  | format (word : String)
  | stackRule (word : String)
  | kind (word : String)
  | flag (word : String)
  | fold (cause : FoldRule.ReadError)
  | number (what word : String)
  | truth (word : String)
  | lineFormat (word : String)
  | setting (word : String)
  | encoding (word : String)
  | verb (word : String)
  | arguments (verb : String)
deriving DecidableEq, Repr

def WordError.message : WordError → String
  | .format w => "unknown argument format " ++ Text.Message.quoted w
  | .stackRule w => "unknown stack rule " ++ Text.Message.quoted w
  | .kind w => "unknown opcode kind " ++ Text.Message.quoted w
  | .flag w => "unknown opcode flag " ++ Text.Message.quoted w
  | .fold cause => cause.message
  | .number what w => "bad " ++ what ++ " " ++ Text.Message.quoted w
  | .truth w => "expected true or false, got " ++ Text.Message.quoted w
  | .lineFormat w => "unknown line table format " ++ Text.Message.quoted w
  | .setting w => "unknown setting " ++ Text.Message.quoted w
  | .encoding w => "unknown operand encoding " ++ Text.Message.quoted w
  | .verb w => "unknown directive " ++ w
  | .arguments w => "wrong number of words after " ++ w

/-- The value that a reader finds, or else an error. -/
def WordError.orElse {α : Type} (error : WordError) : Option α → Except WordError α
  | some a => .ok a
  | none => .error error

def OperandFormat.read (w : String) : Except WordError OperandFormat :=
  (WordError.format w).orElse (ofText? w)

def StackRule.read (w : String) : Except WordError StackRule :=
  (WordError.stackRule w).orElse (ofText? w)

def OpKind.read (w : String) : Except WordError OpKind :=
  (WordError.kind w).orElse (ofWord? w)

def OpFlag.read (w : String) : Except WordError OpFlag :=
  (WordError.flag w).orElse (ofWord? w)

def LineFormat.read (w : String) : Except WordError LineFormat :=
  (WordError.lineFormat w).orElse (Text.named? all text w)

/-- The fold rule that a word and an optional parameter stand for. -/
def FoldRule.read (w : String) (parameter : Option String) : Except WordError FoldRule :=
  match FoldRule.ofWords w parameter with
  | .ok rule => .ok rule
  | .error cause => .error (.fold cause)

end Disassembler
