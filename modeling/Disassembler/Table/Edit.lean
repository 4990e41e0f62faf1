import Disassembler.Fold.Rule
import Disassembler.Operand.Format
import Disassembler.Stack.Rule
import Disassembler.Table.Class
import Disassembler.Table.Settings

/-!
# Edits of opcode tables

A table is made from its parent by a list of edits, applied strictly in order.

**Results.** `Edit` is one such step. `Binding.label` is the text of a binding in messages.
-/

namespace Disassembler

/-- A definition of an opcode. -/
structure OpDef where
  name : String
  opcode : Nat
  pop : Int
  push : Int
  kind : OpKind
  flags : List OpFlag
deriving DecidableEq, Repr, Inhabited

namespace OpDef

/-- The classes of the kind and of the flags. -/
def classes (d : OpDef) : List OpClass :=
  d.kind.classes ++ d.flags.flatMap OpFlag.classes

/-- The definition is marked as a jump backwards. -/
def backward (d : OpDef) : Bool :=
  d.flags.contains .backward

end OpDef

/-- A change of one setting. -/
inductive Setting where
  | wordcode (value : Bool)
  | haveArgument (value : Nat)
  | extendedArgShift (value : Nat)
  | jumpUnit (value : Nat)
  | localsPlus (value : Bool)
  | lineTable (value : LineFormat)
  | exceptionTable (value : Bool)
deriving DecidableEq, Repr, Inhabited

/-- The settings with one of them changed. -/
def Settings.set (s : Settings) : Setting → Settings
  | .wordcode v => { s with wordcode := v }
  | .haveArgument v => { s with haveArgument := v }
  | .extendedArgShift v => { s with extendedArgShift := v }
  | .jumpUnit v => { s with jumpUnit := v }
  | .localsPlus v => { s with localsPlus := v }
  | .lineTable v => { s with lineTable := v }
  | .exceptionTable v => { s with exceptionTable := v }

/-- A property that is bound to a defined opcode. -/
inductive Binding where
  | format (value : Option OperandFormat)
  | fold (value : Option FoldRule)
  | stackRule (value : Option StackRule)
  | encoding (value : OperandEncoding)
  | cacheEntries (value : Nat)
deriving DecidableEq, Repr, Inhabited

namespace Binding

/-- A name and what it holds, in parentheses. -/
def labeled (name content : String) : String :=
  name ++ "(" ++ content ++ ")"

def optional {α : Type} (label : α → String) : Option α → String
  | none => "None"
  | some a => labeled "Some" (label a)

def foldLabel : FoldRule → String
  | .infixOp op => labeled "Infix" (labeled "InfixOp" (Text.decimal op.index))
  | rule => Text.capitals rule.text

def encodingLabel : OperandEncoding → String
  | .compareShift bits => labeled "CompareShift" (Text.decimal bits)
  | e => Text.capitals e.text

def label : Binding → String
  | .format f => labeled "ArgFormat" (optional (fun f => Text.capitals f.text) f)
  | .fold f => labeled "ExtFormat" (optional foldLabel f)
  | .stackRule r => labeled "StackRule" (optional (fun r => Text.capitals r.text) r)
  | .encoding e => labeled "Encoding" (encodingLabel e)
  | .cacheEntries n => labeled "CacheEntries" (Text.decimal n)

end Binding

/-- One step of a table definition. -/
inductive Edit where
  | remove (name : String) (opcode : Nat)
  | define (definition : OpDef)
  -- Defines an opcode after dropping whatever has its number or its name.
  | redefine (definition : OpDef)
  | removeAll
  | setting (value : Setting)
  | bind (name : String) (binding : Binding)
deriving DecidableEq, Repr, Inhabited

end Disassembler
