import Disassembler.CommandLine.Run

/-!
# The command line

Reads the file that a command asks for, prints what it gives, and exits.
-/

namespace Disassembler
namespace CommandLine

def usageText : String :=
  "usage: disasm PATH [--python VERSION] [--impl NAME] [--format FORMAT] [--show-caches] "
    ++ "[--dup-lines] | tables list | tables show VERSION [--impl NAME] [--json]\n"

def diagnosticsText : Diagnostics → String
  | .usage => usageText
  | .unreadable path => "failed to parse " ++ Text.Message.quoted path ++ "\n"
  | .overflow => "capacity overflow\n"
  | .lines lines => Text.unlines lines

/-- Prints a result and gives the exit code. -/
def emit (r : Result) : IO UInt32 := do
  IO.print r.stdout
  IO.eprint (diagnosticsText r.stderr)
  return UInt32.ofNat r.exit

/-- The text of a file, or the reason why it cannot be read. -/
def readText (path : String) : IO (Except String String) := do
  try
    return .ok (← IO.FS.readFile path)
  catch e => return .error (toString e)

/-- Runs the command that the arguments spell. -/
def run (args : List String) : IO UInt32 := do
  match Plan.ofArguments args with
  | .done r => emit r
  | .read path next => emit (next (← readText path))

end CommandLine
end Disassembler

/-- The program. -/
def main (args : List String) : IO UInt32 :=
  Disassembler.CommandLine.run args
