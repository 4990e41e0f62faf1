import Disassembler.Code.Json
import Disassembler.Disassembly.Basic
import Disassembler.Table.Json

/-!
# Disassemblies in JSON

**Results.** `Disassembly.toJson` writes a disassembly with all its fields; notes, exception
handlers and nested disassemblies are left out where there are none. `OperandValue.ofJson` and
`Options.ofJson?` read operands and options.
-/

namespace Disassembler

/-- The JSON form of what an operand stands for. -/
def OperandValue.toJson : OperandValue → Json
  | .none => .str "none"
  | .int n => .tagged "int" (.nat n)
  | .const c => .tagged "const" c.toJson
  | .name s => .tagged "name" (.str s)
  | .names values => .tagged "names" (.list .str values)
  | .target offset => .tagged "target" (.nat offset)
  | .symbol s => .tagged "symbol" (.str s)

/-- Reads what an operand stands for; null is nothing. -/
def OperandValue.ofJson : Json → Except InputError OperandValue
  | .null => .ok .none
  | .obj [("const", content)] => .const <$> Constant.ofJson content
  | .obj [("int", content)] => .int <$> InputError.require (content.nat? UInt64.size)
  | .obj [("target", content)] => .target <$> InputError.require (content.nat? UInt64.size)
  | .obj [("name", content)] => .name <$> InputError.require content.str?
  | .obj [("symbol", content)] => .symbol <$> InputError.require content.str?
  | .obj [("names", content)] => .names <$> InputError.require (content.list? Json.str?)
  | _ => .error .malformed

def Instruction.toJson (i : Instruction) : Json :=
  .obj [
    ("offset", .nat i.offset),
    ("opcode", .nat i.opcode),
    ("opname", .str i.opname),
    ("arg", .option .nat i.arg),
    ("argval", i.value.toJson),
    ("argrepr", .str i.repr),
    ("has_arg", .bool i.hasArg),
    ("has_extended_arg", .bool i.hasExtendedArg),
    ("kind", .str i.kind.text),
    ("inst_size", .nat i.size),
    ("is_jump_target", .bool i.isJumpTarget),
    ("starts_line", .option .nat i.startsLine),
    ("is_cache", .bool i.isCache),
    ("stack_effect", .option .int i.stackEffect),
    ("start_offset", .option .nat i.foldStart),
    ("tos_str", .option .str i.expression)]

def Malformed.toJson : Malformed → Json
  | .unknownOpcode opcode => .tagged "UnknownOpcode" (.nat opcode)
  | .truncated needed remaining =>
    .tagged "Truncated" (.obj [("needed", .nat needed), ("remaining", .nat remaining)])
  | .indexOutOfRange pool index length =>
    .tagged "IndexOutOfRange"
      (.obj [("pool", .str pool.text), ("index", .nat index), ("len", .nat length)])
  | .operandOverflow => .str "OperandOverflow"
  | .jumpOutOfRange => .str "JumpOutOfRange"

def Fault.toJson (f : Fault) : Json :=
  .obj [
    ("offset", .nat f.offset),
    ("error", .tagged "MalformedBytecode"
      (.obj [("offset", .nat f.offset), ("problem", f.problem.toJson)]))]

def Note.toJson (n : Note) : Json :=
  .obj [
    ("tos_str", .option .str n.expression),
    ("start_offset", .option .nat n.start),
    ("display", .option .str n.display)]

def ExceptionEntry.toJson (e : ExceptionEntry) : Json :=
  .obj [
    ("start", .nat e.start),
    ("end", .nat e.stop),
    ("target", .nat e.target),
    ("depth", .nat e.depth),
    ("lasti", .bool e.lasti)]

namespace Disassembly

/-- A member that is left out when there are no items. -/
def optionalMember (name : String) (items : List Json) : List (String × Json) :=
  if items.isEmpty then [] else [(name, .arr items)]

mutual

def toJson : Disassembly → Json
  | ⟨name, table, code, instructions, faults, notes, exceptionEntries, children⟩ =>
    .obj ([
      ("name", .str name),
      ("table", table.toJson),
      ("code", .ofBytes code),
      ("instructions", .list Instruction.toJson instructions),
      ("faults", .list Fault.toJson faults)]
      ++ optionalMember "annotations" (notes.map Note.toJson)
      ++ optionalMember "exception_entries" (exceptionEntries.map ExceptionEntry.toJson)
      ++ optionalMember "children" (toItems children))

def toItems : List Disassembly → List Json
  | [] => []
  | d :: rest => toJson d :: toItems rest

end

end Disassembly

def Options.toJson (o : Options) : Json :=
  .obj [
    ("show_caches", .bool o.showCaches),
    ("extended", .bool o.extended),
    ("dup_lines", .bool o.dupLines)]

/-- Reads options, all of which have to be there. -/
def Options.ofJson? (j : Json) : Option Options :=
  match j.record? ["show_caches", "extended", "dup_lines"] with
  | some [some showCaches, some extended, some dupLines] => do
    let showCaches ← showCaches.bool?
    let extended ← extended.bool?
    let dupLines ← dupLines.bool?
    return { showCaches, extended, dupLines }
  | _ => none

end Disassembler
