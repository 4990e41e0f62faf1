import Disassembler.Table.Key

/-!
# Command-line arguments

**Results.** `Command.ofArguments?` reads a command:

* `disasm PATH [--python VERSION] [--impl NAME] [--format FORMAT] [--show-caches] [--dup-lines]`
* `tables list`
* `tables show VERSION [--impl NAME] [--json]`

Options come in any order, before or after the positional argument; a value follows its option as
the next argument or after an equals sign. After two dashes alone everything is positional. An
option given twice, an unknown one, and a missing or surplus argument are refused.
-/

namespace Disassembler
namespace CommandLine

/-- What a disassembly is printed as. -/
inductive Format where
  | basic
  | extended
  | json
deriving DecidableEq, Repr, Inhabited

/-- A command. -/
inductive Command where
  | disasm (path python : String) (implementation : Implementation) (format : Format)
      (showCaches dupLines : Bool)
  | tablesList
  | tablesShow (version : String) (implementation : Implementation) (json : Bool)
deriving Repr

/-- Arguments sorted into positional ones, options with a value, and options without. -/
structure Scanned where
  positional : List String := []
  options : List (String × String) := []
  switches : List String := []
deriving Repr

namespace Scanned

/-- Adds an option with a value, unless it is there already. -/
def addOption? (s : Scanned) (name value : String) : Option Scanned :=
  if s.options.any fun o => o.1 == name then none
  else some { s with options := (name, value) :: s.options }

/-- Adds an option without a value, unless it is there already. -/
def addSwitch? (s : Scanned) (name : String) : Option Scanned :=
  if s.switches.contains name then none else some { s with switches := name :: s.switches }

/-- The value of an option. -/
def value? (s : Scanned) (name : String) : Option String :=
  (s.options.find? fun o => o.1 == name).map (·.2)

/-- The option without a value is given. -/
def has (s : Scanned) (name : String) : Bool :=
  s.switches.contains name

end Scanned

/-- An argument that is an option: it starts with a dash and is more than that. -/
def isOption (arg : String) : Bool :=
  match arg.toList with
  | '-' :: _ :: _ => true
  | _ => false

/-- The name and the value of an option written with an equals sign. -/
def splitEquals (arg : String) : String × Option String :=
  let cs := arg.toList
  match cs.dropWhile (· != '=') with
  | [] => (arg, none)
  | _ :: value => (String.ofList (cs.takeWhile (· != '=')), some (String.ofList value))

/-- Sorts arguments, given the options with a value and those without. -/
def scan (valued switches : List String) (s : Scanned) : List String → Option Scanned
  | [] => some { s with positional := s.positional.reverse }
  | arg :: rest =>
    if arg = "--" then some { s with positional := s.positional.reverse ++ rest }
    else if isOption arg then
      match splitEquals arg with
      | (name, some value) =>
        if valued.contains name then
          match s.addOption? name value with
          | some next => scan valued switches next rest
          | none => none
        else none
      | (name, none) =>
        if switches.contains name then
          match s.addSwitch? name with
          | some next => scan valued switches next rest
          | none => none
        else if valued.contains name then
          match rest with
          | value :: more =>
            if isOption value then none
            else
              match s.addOption? name value with
              | some next => scan valued switches next more
              | none => none
          | [] => none
        else none
    else scan valued switches { s with positional := arg :: s.positional } rest

/-- The implementation that an option names; the reference one if the option is not given. -/
def implementation? (s : Scanned) : Option Implementation :=
  match s.value? "--impl" with
  | none => some .cpython
  | some "cpython" => some .cpython
  | some "pypy" => some .pypy
  | some _ => none

/-- The format that an option names; a basic listing if the option is not given. -/
def format? (s : Scanned) : Option Format :=
  match s.value? "--format" with
  | none => some .basic
  | some "basic" => some .basic
  | some "extended" => some .extended
  | some "json" => some .json
  | some _ => none

/-- The arguments of a disassembly. -/
def disasm? (args : List String) : Option Command := do
  let s ← scan ["--python", "--impl", "--format"] ["--show-caches", "--dup-lines"] {} args
  let implementation ← implementation? s
  let format ← format? s
  match s.positional with
  | [path] =>
    if path = "" then none
    else
      some (.disasm path ((s.value? "--python").getD "3.12") implementation format
        (s.has "--show-caches") (s.has "--dup-lines"))
  | _ => none

/-- The arguments for listing tables: there are none. -/
def tablesList? (args : List String) : Option Command := do
  let s ← scan [] [] {} args
  if s.positional.isEmpty then some .tablesList else none

/-- The arguments for showing a table. -/
def tablesShow? (args : List String) : Option Command := do
  let s ← scan ["--impl"] ["--json"] {} args
  let implementation ← implementation? s
  match s.positional with
  | [version] => some (.tablesShow version implementation (s.has "--json"))
  | _ => none

/-- The command that arguments spell. -/
def Command.ofArguments? : List String → Option Command
  | "disasm" :: rest => disasm? rest
  | "tables" :: "list" :: rest => tablesList? rest
  | "tables" :: "show" :: rest => tablesShow? rest
  | _ => none

end CommandLine
end Disassembler
