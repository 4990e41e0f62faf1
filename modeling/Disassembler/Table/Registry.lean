import Disassembler.Table.Builder
import Disassembler.Table.Directive

/-!
# Registries of tables

**Input.** Sources: each a table definition with its key and the key of its parent, if it has one.

**Algorithm.** The sources that wait for their parent are gone through again and again, and every
source whose parent is there is built, until nothing waits or a round builds nothing.

**Results.** `Registry.ofSources` has one entry a source: a table, or the error that kept it from
being built.
-/

namespace Disassembler

open Std (ExtTreeMap)

/-- The definition of one table. -/
structure Source where
  label : String
  version : Version
  implementation : String
  parent : Option (Version × String)
  directives : List Directive
deriving Repr

namespace Source

/-- What the table is for. -/
def key (s : Source) : Except Error TableKey := do
  let implementation ← Implementation.read s.implementation
  return ⟨s.version, implementation⟩

/-- What the parent is for. -/
def parentKey (s : Source) : Except Error (Option TableKey) :=
  match s.parent with
  | none => .ok none
  | some (version, name) => do
    let implementation ← Implementation.read name
    return some ⟨version, implementation⟩

/-- The place of a directive in messages: the label and the line. -/
def place (s : Source) (line : Nat) : String :=
  s.label ++ ":" ++ Text.decimal line

/-- The edits of directives, with their lines. -/
def editsOf (s : Source) (key : TableKey) : List Directive → Except Error (List (Nat × Edit))
  | [] => .ok []
  | d :: rest =>
    match d.toEdit with
    | .error cause =>
      .error (.inconsistentTable key (.located (s.place d.line) (.definition cause)))
    | .ok edit => do
      let edits ← s.editsOf key rest
      return (d.line, edit) :: edits

/-- Applies edits in order; an error names the line of the edit that fails. -/
def applyEdits (s : Source) : List (Nat × Edit) → Table.Builder → Except Error Table.Builder
  | [], b => .ok b
  | (line, edit) :: rest, b =>
    match b.apply edit with
    | ⟨_, some e⟩ => .error (e.locate (s.place line))
    | ⟨b, none⟩ => s.applyEdits rest b

/-- Builds the table from its parent. All directives are read before the first one is applied. -/
def build (s : Source) (key : TableKey) (parent : Option Table) : Except Error Table := do
  let edits ← s.editsOf key s.directives
  let b ← s.applyEdits edits (Table.Builder.start parent key)
  match b.toTable with
  | .ok t => .ok t
  | .error e => .error (e.locate s.label)

end Source

/-- Tables, or the errors that kept them from being built, by key. -/
abbrev Registry := ExtTreeMap TableKey (Except Error Table)

namespace Registry

/-- The entry of a source, when its parent has an entry. -/
def entry? (built : Registry) (s : Source) (key : TableKey) : Option (Except Error Table) :=
  match s.parentKey with
  | .error e => some (.error e)
  | .ok none => some (s.build key none)
  | .ok (some parent) =>
    match built[parent]? with
    | none => none
    | some (.ok t) => some (s.build key (some t))
    | some (.error e) =>
      some (.error (.inconsistentTable key (.located s.label (.parentFailed parent e.message))))

/-- One round over the sources that wait: the registry afterwards, and those that still wait. -/
def round (built : Registry) : List (TableKey × Source) → Registry × List (TableKey × Source)
  | [] => (built, [])
  | (key, s) :: rest =>
    match built.entry? s key with
    | some e => round (built.insert key e) rest
    | none =>
      let next := round built rest
      (next.1, (key, s) :: next.2)

/-- Gives every source an error for its missing parent. -/
def orphan (built : Registry) (sources : List (TableKey × Source)) : Registry :=
  sources.foldl (fun m p =>
    m.insert p.1 (.error (.inconsistentTable p.1 (.located p.2.label .parentMissing)))) built

/-- Rounds until nothing waits or a round builds nothing. -/
def rounds (built : Registry) (waiting : List (TableKey × Source)) : Registry :=
  let next := round built waiting
  if next.2.length < waiting.length then rounds next.1 next.2 else orphan next.1 next.2
termination_by waiting.length

/-- The sources whose implementation is known, with their keys. -/
def keyed (sources : List Source) : List (TableKey × Source) :=
  sources.filterMap fun s => s.key.toOption.map fun k => (k, s)

/-- The registry of sources in any order. -/
def ofSources (sources : List Source) : Registry :=
  rounds ∅ (keyed sources)

/-- The table for a key. -/
def get (r : Registry) (key : TableKey) : Except Error Table :=
  match r[key]? with
  | some entry => entry
  | none => .error (.unknownTable key)

end Registry
end Disassembler
