import Disassembler.Json.Basic
import Disassembler.Table.Builder

/-!
# Tables and edits in JSON

**Results.** `Table.toJson` writes a table with all its sets. `Edit.ofJson?` and `TableKey.ofJson?`
read what tables are made from. An alternative without content is written as its name; one with
content as an object whose only member has that name.
-/

namespace Disassembler

def Version.toJson (v : Version) : Json :=
  .obj [("major", .nat v.major.toNat), ("minor", .nat v.minor.toNat)]

def TableKey.toJson (k : TableKey) : Json :=
  .obj [("version", k.version.toJson), ("implementation", .str k.implementation.text)]

def OpKind.toJson : OpKind → Json
  | .store target => .tagged "store" (.str target.text)
  | kind => .str kind.text

def FoldRule.toJson : FoldRule → Json
  | .infixOp op => .tagged "infix" (.nat op.index)
  | rule => .str rule.text

def OperandEncoding.toJson : OperandEncoding → Json
  | .compareShift bits => .tagged "compare_shift" (.nat bits)
  | e => .str e.text

def OperandFormat.toJson (f : OperandFormat) : Json :=
  .str f.text

def StackRule.toJson (r : StackRule) : Json :=
  .str r.text

def Settings.toJson (s : Settings) : Json :=
  .obj [
    ("wordcode", .bool s.wordcode),
    ("have_argument", .nat s.haveArgument),
    ("extended_arg_shift", .nat s.extendedArgShift),
    ("jump_unit", .nat s.jumpUnit),
    ("localsplus", .bool s.localsPlus),
    ("line_table", .str s.lineTable.text),
    ("exception_table", .bool s.exceptionTable)]

/-- The JSON form of what is known about an opcode. -/
def OpInfo.toJson (i : OpInfo) : Json :=
  .obj [
    ("name", .str i.name),
    ("pop", .int i.pop),
    ("push", .int i.push),
    ("arg_format", .option OperandFormat.toJson i.format),
    ("ext_format", .option FoldRule.toJson i.fold),
    ("stack_rule", .option StackRule.toJson i.stackRule),
    ("encoding", i.encoding.toJson),
    ("cache_entries", .nat i.cacheEntries),
    ("backward", .bool i.backward)]

/-- The JSON form of a set of opcodes. -/
def OpcodeSet.toJson (s : OpcodeSet) : Json :=
  .list .nat s.toList

def Table.toJson (t : Table) : Json :=
  .obj [
    ("key", t.key.toJson),
    ("parent", .option TableKey.toJson t.parent),
    ("settings", t.settings.toJson),
    ("ops", .obj (t.ops.toList.map fun (opcode, info) => (Text.decimal opcode, info.toJson))),
    ("opmap", .obj (t.opcodes.toList.map fun (name, opcode) => (name, .nat opcode))),
    ("classes", .obj (t.classes.toList.map fun (c, set) => (c.text, OpcodeSet.toJson set))),
    ("operator_set", OpcodeSet.toJson t.operators),
    ("jump_ops", OpcodeSet.toJson t.jumps),
    ("binary_ops", OpcodeSet.toJson t.binaries),
    ("extended_arg", .option .nat t.extendedArg)]

section Reading

/-- An alternative without content, out of a list of all of them. -/
def Json.unit? {α : Type} (all : List α) (name : α → String) (j : Json) : Option α := do
  let v ← j.variant?
  if v.isUnit then Text.named? all name v.name else none

/-- A value, or null for none. -/
def Json.optional? {α : Type} (read : Json → Option α) : Json → Option (Option α)
  | .null => some none
  | j => (read j).map some

def Version.ofJson? (j : Json) : Option Version :=
  match j.record? ["major", "minor"] with
  | some [some major, some minor] => do
    let major ← major.nat? 256
    let minor ← minor.nat? 256
    return ⟨UInt8.ofNat major, UInt8.ofNat minor⟩
  | _ => none

def Implementation.ofJson? (j : Json) : Option Implementation :=
  Json.unit? [.cpython, .pypy, .graal] Implementation.text j

def TableKey.ofJson? (j : Json) : Option TableKey :=
  match j.record? ["version", "implementation"] with
  | some [some version, some implementation] => do
    let version ← Version.ofJson? version
    let implementation ← Implementation.ofJson? implementation
    return ⟨version, implementation⟩
  | _ => none

def OperandFormat.ofJson? (j : Json) : Option OperandFormat :=
  Json.unit? all text j

def StackRule.ofJson? (j : Json) : Option StackRule :=
  Json.unit? all text j

def LineFormat.ofJson? (j : Json) : Option LineFormat :=
  Json.unit? all text j

def OpFlag.ofJson? (j : Json) : Option OpFlag :=
  Json.unit? all text j

def FoldRule.ofJson? (j : Json) : Option FoldRule := do
  let v ← j.variant?
  if v.name = "infix" then
    let content ← v.content
    let index ← content.nat? 256
    return .infixOp ⟨index⟩
  else Json.unit? simple text j

def OperandEncoding.ofJson? (j : Json) : Option OperandEncoding := do
  let v ← j.variant?
  if v.name = "compare_shift" then
    let content ← v.content
    let bits ← content.nat? 256
    return .compareShift bits
  else Json.unit? simple text j

def OpKind.ofJson? (j : Json) : Option OpKind := do
  let v ← j.variant?
  if v.name = "store" then
    let content ← v.content
    let target ← Json.unit? StoreTarget.all StoreTarget.text content
    return .store target
  else Json.unit? simple text j

def OpDef.ofJson? (j : Json) : Option OpDef :=
  match j.record? ["name", "opcode", "pop", "push", "kind", "flags"] with
  | some [some name, some opcode, some pop, some push, some kind, some flags] => do
    let name ← name.str?
    let opcode ← opcode.nat? UInt16.size
    let pop ← pop.int? Width.signed32
    let push ← push.int? Width.signed32
    let kind ← OpKind.ofJson? kind
    let flags ← flags.list? OpFlag.ofJson?
    return { name, opcode, pop, push, kind, flags }
  | _ => none

def Setting.ofJson? (j : Json) : Option Setting := do
  let v ← j.variant?
  let content ← v.content
  match v.name with
  | "wordcode" => .wordcode <$> content.bool?
  | "have_argument" => .haveArgument <$> content.nat? UInt16.size
  | "extended_arg_shift" => .extendedArgShift <$> content.nat? UInt32.size
  | "jump_unit" => .jumpUnit <$> content.nat? UInt32.size
  | "locals_plus" => .localsPlus <$> content.bool?
  | "line_table" => .lineTable <$> LineFormat.ofJson? content
  | "exception_table" => .exceptionTable <$> content.bool?
  | _ => none

def Binding.ofJson? (j : Json) : Option Binding := do
  let v ← j.variant?
  let content ← v.content
  match v.name with
  | "arg_format" => .format <$> content.optional? OperandFormat.ofJson?
  | "ext_format" => .fold <$> content.optional? FoldRule.ofJson?
  | "stack_rule" => .stackRule <$> content.optional? StackRule.ofJson?
  | "encoding" => .encoding <$> OperandEncoding.ofJson? content
  | "cache_entries" => .cacheEntries <$> content.nat? 256
  | _ => none

/-- Reads an edit. A definition may be a list of its fields; what other edits hold is written with
names. -/
def Edit.ofJson? (j : Json) : Option Edit := do
  let v ← j.variant?
  if v.name = "remove_all" then if v.isUnit then some .removeAll else none
  else
    let content ← v.content
    match v.name with
    | "remove" =>
      match content.members? ["name", "opcode"] with
      | some [some name, some opcode] => do
        let name ← name.str?
        let opcode ← opcode.nat? UInt16.size
        return .remove name opcode
      | _ => none
    | "define" => .define <$> OpDef.ofJson? content
    | "redefine" => .redefine <$> OpDef.ofJson? content
    | "setting" => .setting <$> Setting.ofJson? content
    | "bind" =>
      match content.members? ["name", "binding"] with
      | some [some name, some binding] => do
        let name ← name.str?
        let binding ← Binding.ofJson? binding
        return .bind name binding
      | _ => none
    | _ => none

end Reading
end Disassembler
