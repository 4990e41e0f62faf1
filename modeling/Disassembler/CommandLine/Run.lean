import Disassembler.CommandLine.Arguments
import Disassembler.Disassembly.Json
import Disassembler.Disassembly.Listing
import Disassembler.Json.Reader
import Disassembler.Json.Writer

/-!
# Running commands

**Results.** `Plan.ofArguments` says what to do for command-line arguments: print something and
exit, or first read a file. The table is looked up before the file is read. The exit code is 1 for
errors, 2 for wrong usage and for bytecode with faults, and 101 for an overflow.
-/

namespace Disassembler
namespace CommandLine

/-- What is printed to the error stream. -/
inductive Diagnostics where
  | usage
  | unreadable (path : String)
  | overflow
  | lines (lines : List String)
deriving DecidableEq, Repr, Inhabited

/-- What a command does. -/
structure Result where
  exit : Nat
  stdout : String
  stderr : Diagnostics
deriving Repr, Inhabited

/-- A command that prints its result. -/
def Result.success (out : String) : Result :=
  ⟨0, out, .lines []⟩

/-- A command that fails with a text. -/
def Result.failure (lines : List String) : Result :=
  ⟨1, "", .lines lines⟩

/-- What there is to do. -/
inductive Plan where
  | done (result : Result)
  | read (path : String) (next : Except String String → Result)

/-- The table for a version text, or the text of the error. -/
def lookup (version : String) (implementation : Implementation) : Except (List String) Table :=
  match Version.read version with
  | .error e => .error [e.message]
  | .ok v =>
    match Catalog.find v implementation with
    | .ok t => .ok t
    | .error e =>
      .error (e.message :: "available tables:" :: Catalog.keys.map fun k => "  " ++ k.text)

def render (t : Table) (format : Format) (d : Disassembly) : String :=
  match format with
  | .basic => Listing.render t .basic d
  | .extended => Listing.render t .extended d
  | .json => d.toJson.pretty ++ "\n"

/-- Disassembles a code object and prints it. -/
def disasm (t : Table) (format : Format) (options : Options) (c : CodeObject) : Result :=
  match disassemble t options c with
  | .error (.error e) => .failure ["disassembly error: " ++ e.message]
  | .error .overflow => ⟨101, "", .overflow⟩
  | .ok d =>
    let faults := d.faultCount
    if faults = 0 then .success (render t format d)
    else ⟨2, render t format d, .lines [Text.decimal faults ++ " malformed instruction(s)"]⟩

/-- Disassembles the code object that the text of a file holds. -/
def disasmFile (t : Table) (format : Format) (options : Options) (path : String) :
    Except String String → Result
  | .error reason =>
    .failure ["failed to read " ++ Text.Message.quoted path ++ ": " ++ reason]
  | .ok text =>
    match (Json.parse? text).map CodeObject.ofJson with
    | some (.ok c) => disasm t format options c
    | _ => ⟨1, "", .unreadable path⟩

def tablesList : String :=
  Text.unlines (Catalog.registry.toList.map fun (key, entry) =>
    Text.padRight 16 key.text ++ " " ++ match entry with
      | .ok t => Text.decimal t.size ++ " opcodes"
      | .error e => "unavailable: " ++ e.message)

/-- An integer with its sign. -/
def withSign (n : Int) : String :=
  if 0 ≤ n then "+" ++ Text.signed n else Text.signed n

/-- The line of an opcode. -/
def opcodeLine (t : Table) (opcode : Nat) (info : OpInfo) : String :=
  Text.padLeft 5 (Text.decimal opcode) ++ " " ++ Text.padRight 28 info.name
    ++ " pop " ++ Text.padLeft 2 (Text.signed info.pop)
    ++ " push " ++ Text.padLeft 2 (Text.signed info.push)
    ++ (match stackEffect t opcode none with
      | some effect => " effect " ++ withSign effect
      | none => " effect varies")
    ++ (if 0 < info.cacheEntries then " caches " ++ Text.decimal info.cacheEntries else "")

def truth (b : Bool) : String :=
  if b then "true" else "false"

/-- The table over several lines. -/
def tableLines (t : Table) : List String :=
  let s := t.settings
  [t.key.text]
    ++ (match t.parent with
      | some parent => ["parent: " ++ parent.text]
      | none => [])
    ++ ["wordcode: " ++ truth s.wordcode ++ ", have_argument: " ++ Text.decimal s.haveArgument
      ++ ", extended_arg shift: " ++ Text.decimal s.extendedArgShift ++ ", jump unit: "
      ++ Text.decimal s.jumpUnit]
    ++ t.ops.toList.map fun (opcode, info) => opcodeLine t opcode info

def tableText (t : Table) (json : Bool) : String :=
  if json then t.toJson.pretty ++ "\n" else Text.unlines (tableLines t)

/-- What there is to do for a command. -/
def Plan.ofCommand : Command → Plan
  | .disasm path python implementation format showCaches dupLines =>
    match lookup python implementation with
    | .error lines => .done (.failure lines)
    | .ok t =>
      let options : Options := ⟨showCaches, format == .extended, dupLines⟩
      .read path (disasmFile t format options path)
  | .tablesList => .done (.success tablesList)
  | .tablesShow version implementation json =>
    match lookup version implementation with
    | .error lines => .done (.failure lines)
    | .ok t => .done (.success (tableText t json))

/-- What there is to do for command-line arguments. -/
def Plan.ofArguments (args : List String) : Plan :=
  match Command.ofArguments? args with
  | some command => .ofCommand command
  | none => .done ⟨2, "", .usage⟩

end CommandLine
end Disassembler
