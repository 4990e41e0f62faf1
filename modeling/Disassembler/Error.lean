import Disassembler.Table.Edit
import Disassembler.Table.Key
import Disassembler.Table.Word

/-!
# What can go wrong

**Results.** A `TableFault` is the reason why an edit or a check of a table fails, an `Error` the
reason why an operation of the library fails. `Error.message` is the text of an error.
-/

namespace Disassembler

/-- Why an opcode table is inconsistent. -/
inductive TableFault where
  | removeOther (name : String) (opcode actual : Nat)
  | removeUndefined (name : String) (opcode : Nat)
  | defineOther (name : String) (opcode : Nat) (occupant : String)
  | defineElsewhere (name : String) (opcode actual : Nat)
  | bindUndefined (binding : Binding) (name : String)
  | bindEmpty (name : String) (opcode : Nat)
  | overlap (opcode : Nat) (name : String) (first second : OpClass)
  | unmapped (opcode : Nat) (name : String)
  | extendedArgPseudo
  | extendedArgUndefined
  | definition (cause : WordError)
  | parentFailed (parent : TableKey) (reason : String)
  | parentMissing
  | located (place : String) (fault : TableFault)
deriving DecidableEq, Repr

namespace TableFault

def message : TableFault → String
  | .removeOther name opcode actual =>
    "cannot remove " ++ name ++ "/" ++ Text.decimal opcode ++ ": " ++ name ++ " is opcode "
      ++ Text.decimal actual
  | .removeUndefined name opcode =>
    "cannot remove " ++ name ++ "/" ++ Text.decimal opcode ++ ": " ++ name ++ " is not defined"
  | .defineOther name opcode occupant =>
    "cannot define " ++ name ++ " as opcode " ++ Text.decimal opcode ++ ": already defined as "
      ++ occupant
  | .defineElsewhere name opcode actual =>
    "cannot define " ++ name ++ " as opcode " ++ Text.decimal opcode ++ ": already opcode "
      ++ Text.decimal actual
  | .bindUndefined binding name =>
    "cannot bind " ++ binding.label ++ ": " ++ name ++ " is not defined"
  | .bindEmpty name opcode => name ++ " maps to empty slot " ++ Text.decimal opcode
  | .overlap opcode name first second =>
    "opcode " ++ Text.decimal opcode ++ " (" ++ name ++ ") is both " ++ Text.capitals first.text
      ++ " and " ++ Text.capitals second.text
  | .unmapped opcode name =>
    "opcode " ++ Text.decimal opcode ++ " (" ++ name ++ ") is missing from the name map"
  | .extendedArgPseudo => "EXTENDED_ARG is a pseudo opcode"
  | .extendedArgUndefined => "EXTENDED_ARG is not defined"
  | .definition cause => cause.message
  | .parentFailed parent reason => "parent " ++ parent.text ++ " failed to build: " ++ reason
  | .parentMissing => "parent table is not shipped"
  | .located place fault => place ++ ": " ++ fault.message

end TableFault

/-- Why an operation fails. -/
inductive Error where
  | inconsistentTable (table : TableKey) (fault : TableFault)
  | frozenTable (table : TableKey)
  | unknownTable (table : TableKey)
  | unknownImplementation (name : String)
  | lineTable (position : Nat)
  | exceptionTable (position : Nat)
  | invalidVersion (text : String)
deriving DecidableEq, Repr

namespace Error

def message : Error → String
  | .inconsistentTable table fault =>
    "inconsistent opcode table " ++ table.text ++ ": " ++ fault.message
  | .frozenTable table =>
    "opcode table " ++ table.text ++ " is finalized and can no longer be edited"
  | .unknownTable table => "no opcode table for " ++ table.text
  | .unknownImplementation name =>
    "no opcode table for implementation " ++ Text.Message.quoted name
  | .lineTable position => "malformed line table at byte " ++ Text.decimal position
  | .exceptionTable position => "malformed exception table at byte " ++ Text.decimal position
  | .invalidVersion text => "invalid version string: " ++ Text.Message.quoted text

/-- An inconsistency together with the place of its cause; any other error as it is. -/
def locate (place : String) : Error → Error
  | .inconsistentTable table fault => .inconsistentTable table (.located place fault)
  | e => e

end Error

def Version.read (s : String) : Except Error Version :=
  match Version.ofText? s with
  | some v => .ok v
  | none => .error (.invalidVersion s)

def Implementation.read (s : String) : Except Error Implementation :=
  match Implementation.ofText? s with
  | some i => .ok i
  | none => .error (.unknownImplementation (Implementation.normalize s))

/-- A step that succeeds, followed by another, succeeds in both. -/
theorem ok_of_bind
    {α β : Type} {x : Except Error α} {f : α → Except Error β} {b : β}
    (h : (x >>= f) = .ok b) :
    ∃ a, x = .ok a ∧ f a = .ok b := by
  cases x with
  | error e =>
      cases h
  | ok a =>
      exact ⟨a, rfl, h⟩

end Disassembler
