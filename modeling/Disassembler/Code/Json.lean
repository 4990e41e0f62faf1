import Disassembler.Code.Basic
import Disassembler.Json.Basic
import Disassembler.Number.Decimal
import Disassembler.Text.Message

/-!
# Constants and code objects in JSON

Scalars are JSON scalars; everything else is an object whose only member names the kind of constant.
Bytes are hexadecimal text, or on reading also a list of numbers. A code object is an object with
its fields as members, all but the bytecode optional, or a list of its fields in order. Of several
errors in a code object, the alphabet of field names decides in an object and the order of fields in
a list.

**Results.** `Constant.ofJson` and `CodeObject.ofJson` read; `Constant.toJson` and
`CodeObject.toJson` write. An `InputError` that arises inside a constant does not say what it was.
-/

namespace Disassembler

/-- Why a JSON value cannot be read. -/
inductive InputError where
  | malformed
  | bigInt (text : String)
  | float (text : String)
deriving DecidableEq, Repr

namespace InputError

/-- The text of the error, for those that have one. -/
def message? : InputError → Option String
  | .malformed => none
  | .bigInt text => some ("invalid bigint " ++ Text.Message.quoted text)
  | .float text => some ("invalid float " ++ Text.Message.quoted text)

/-- The value that a reader finds. -/
def require {α : Type} : Option α → Except InputError α
  | some a => .ok a
  | none => .error .malformed

/-- The same result, where an error no longer says what it was. -/
def swallow {α : Type} : Except InputError α → Except InputError α
  | .ok a => .ok a
  | .error _ => .error .malformed

end InputError

namespace Json

/-- Bytes: hexadecimal text or a list of numbers. -/
def bytes? : Json → Option (List UInt8)
  | .str s => Text.Hex.decode? s
  | .arr items => items.mapM fun j => (j.nat? 256).map UInt8.ofNat
  | _ => none

/-- Bytes as hexadecimal text. -/
def ofBytes (bytes : List UInt8) : Json :=
  .str (Text.Hex.encode bytes)

end Json

section Reading

/-- An optional minus sign and one or more digits. -/
def Constant.isBigInt (digits : String) : Bool :=
  let body := match digits.toList with
    | '-' :: rest => rest
    | cs => cs
  !body.isEmpty && body.all Char.isDigit

/-- The integer with the given digits. -/
def Constant.ofDigits (digits : String) : Except InputError Constant :=
  if isBigInt digits then .ok (.bigInt digits) else .error (.bigInt digits)

/-- The double with the given text. -/
def Constant.ofFloatText (text : String) : Except InputError Constant :=
  match Decimal.readFloat? text with
  | .some x => .ok (.float x)
  | .none => .error (.float text)

/-- The complex number with the given parts. -/
def Constant.ofParts (parts : Json) : Except InputError Constant :=
  match parts.record? ["real", "imag"] with
  | some [some real, some imag] =>
    match real.float?, imag.float? with
    | some x, some y => .ok (.complex x y)
    | _, _ => .error .malformed
  | _ => .error .malformed

/-- A number that may be an integer of sixty-four bits with sign; any other is a double. -/
def Constant.ofInteger (n : Int) : Constant :=
  match Width.within? Width.signed64 n with
  | some n => .int n
  | .none => .float (Binary64.ofInt n)

/-- The names of a code object's fields, in order. -/
def CodeObject.fieldNames : List String :=
  ["name", "argcount", "firstlineno", "code", "consts", "names", "varnames", "cellvars", "freevars",
   "linetable", "exceptiontable"]

/-- The value of a field: the member with its name, or the item at its place among all fields. -/
def CodeObject.fieldIn (j : Json) (name : String) : Option Json :=
  match j with
  | .obj members => Json.lookup name members
  | .arr items => (CodeObject.fieldNames.idxOf? name).bind fun i => items[i]?
  | _ => none

/-- The fields of a code object as they were read, each with its own error. -/
structure CodeObject.Draft where
  name : Except InputError String
  argcount : Except InputError Nat
  firstLine : Except InputError Nat
  code : Option (Except InputError (List UInt8))
  consts : Except InputError (List Constant)
  names : Except InputError (List String)
  varnames : Except InputError (List String)
  cellvars : Except InputError (List String)
  freevars : Except InputError (List String)
  lineTable : Except InputError (List UInt8)
  exceptionTable : Except InputError (List UInt8)

namespace CodeObject.Draft

/-- A field that may be left out. -/
def field {α : Type} (default : α) (read : Json → Option α) : Option Json → Except InputError α
  | none => .ok default
  | some j => InputError.require (read j)

/-- The fields of a JSON value, with constants that are read elsewhere. -/
def ofJson (j : Json) (consts : Except InputError (List Constant)) : Draft where
  name := field "" Json.str? (fieldIn j "name")
  argcount := field 0 (Json.nat? UInt32.size) (fieldIn j "argcount")
  firstLine := field 1 (Json.nat? UInt32.size) (fieldIn j "firstlineno")
  code := (fieldIn j "code").map fun code => InputError.require code.bytes?
  consts := consts
  names := field [] (Json.list? Json.str?) (fieldIn j "names")
  varnames := field [] (Json.list? Json.str?) (fieldIn j "varnames")
  cellvars := field [] (Json.list? Json.str?) (fieldIn j "cellvars")
  freevars := field [] (Json.list? Json.str?) (fieldIn j "freevars")
  lineTable := field [] Json.bytes? (fieldIn j "linetable")
  exceptionTable := field [] Json.bytes? (fieldIn j "exceptiontable")

/-- The code object, or the error of the field whose name comes first in the alphabet. A missing
bytecode is noticed last. -/
def byName (d : Draft) : Except InputError CodeObject := do
  let argcount ← d.argcount
  let cellvars ← d.cellvars
  let code ← d.code.getD (.ok [])
  let consts ← d.consts
  let exceptionTable ← d.exceptionTable
  let firstLine ← d.firstLine
  let freevars ← d.freevars
  let lineTable ← d.lineTable
  let name ← d.name
  let names ← d.names
  let varnames ← d.varnames
  let _ ← InputError.require d.code
  return ⟨name, argcount, firstLine, code, consts, names, varnames, cellvars, freevars, lineTable,
    exceptionTable⟩

/-- The code object, or the error of the field that comes first in the order of all fields. -/
def byPosition (d : Draft) : Except InputError CodeObject := do
  let name ← d.name
  let argcount ← d.argcount
  let firstLine ← d.firstLine
  let code ← d.code.getD (.error .malformed)
  let consts ← d.consts
  let names ← d.names
  let varnames ← d.varnames
  let cellvars ← d.cellvars
  let freevars ← d.freevars
  let lineTable ← d.lineTable
  let exceptionTable ← d.exceptionTable
  return ⟨name, argcount, firstLine, code, consts, names, varnames, cellvars, freevars, lineTable,
    exceptionTable⟩

end CodeObject.Draft

/-- A constant that is an object with a scalar or a record in its only member. -/
def Constant.ofMember (kind : String) (content : Json) : Except InputError Constant :=
  match kind, content with
  | "ellipsis", .bool _ => .ok .ellipsis
  | "bigint", .str digits => Constant.ofDigits digits
  | "float", .str text => Constant.ofFloatText text
  | "complex", parts => Constant.ofParts parts
  | "bytes", content => Constant.bytes <$> InputError.require content.bytes?
  | _, _ => .error .malformed

mutual

def Constant.ofJson : Json → Except InputError Constant
  | .null => .ok .none
  | .bool b => .ok (.bool b)
  | .int n => .ok (Constant.ofInteger n)
  | .float x => .ok (.float x)
  | .str s => .ok (.str s)
  | .arr _ => .error .malformed
  | .obj [(kind, content)] =>
    if kind = "tuple" then InputError.swallow (Constant.tuple <$> Constant.listOfJson content)
    else if kind = "frozenset" then
      InputError.swallow (Constant.frozenSet <$> Constant.listOfJson content)
    else if kind = "code" then InputError.swallow (Constant.code <$> CodeObject.ofJson content)
    else Constant.ofMember kind content
  | .obj _ => .error .malformed

def Constant.listOfJson : Json → Except InputError (List Constant)
  | .arr items => Constant.ofItems items
  | _ => .error .malformed

def Constant.ofItems : List Json → Except InputError (List Constant)
  | [] => .ok []
  | j :: rest =>
    match Constant.ofJson j with
    | .error e => .error e
    | .ok c =>
      match Constant.ofItems rest with
      | .error e => .error e
      | .ok cs => .ok (c :: cs)

/-- Reads a code object. An object may not repeat a field; a list with too many items is refused
after all fields are read. -/
def CodeObject.ofJson : Json → Except InputError CodeObject
  | .obj members =>
    if Json.hasRepeated CodeObject.fieldNames members then .error .malformed
    else (CodeObject.Draft.ofJson (.obj members) (Constant.ofMembers members)).byName
  | .arr items =>
    match (CodeObject.Draft.ofJson (.arr items) (Constant.atPosition items)).byPosition with
    | .error e => .error e
    | .ok c => if items.length ≤ CodeObject.fieldNames.length then .ok c else .error .malformed
  | _ => .error .malformed

/-- Reads the constants among the members of a code object. -/
def Constant.ofMembers : List (String × Json) → Except InputError (List Constant)
  | [] => .ok []
  | (name, value) :: rest =>
    if name = "consts" then Constant.listOfJson value else Constant.ofMembers rest

/-- Reads the constants at their place in the list of a code object's fields. -/
def Constant.atPosition : List Json → Except InputError (List Constant)
  | _ :: _ :: _ :: _ :: consts :: _ => Constant.listOfJson consts
  | _ => .ok []

end

end Reading

section Writing

mutual

def Constant.toJson : Constant → Json
  | .none => .null
  | .ellipsis => .tagged "ellipsis" (.bool true)
  | .bool b => .bool b
  | .int n => .int n
  | .bigInt digits => .tagged "bigint" (.str digits)
  | .float x =>
    if x.isFinite then .float x else .tagged "float" (.str (Constant.floatFormat.write x))
  | .complex real imag =>
    .tagged "complex" (.obj [("real", .float real), ("imag", .float imag)])
  | .str s => .str s
  | .bytes value => .tagged "bytes" (.ofBytes value)
  | .tuple items => .tagged "tuple" (.arr (Constant.toItems items))
  | .frozenSet items => .tagged "frozenset" (.arr (Constant.toItems items))
  | .code value => .tagged "code" (CodeObject.toJson value)

def Constant.toItems : List Constant → List Json
  | [] => []
  | c :: rest => Constant.toJson c :: Constant.toItems rest

def CodeObject.toJson : CodeObject → Json
  | ⟨name, argcount, firstLine, code, consts, names, varnames, cellvars, freevars, lineTable,
      exceptionTable⟩ =>
    .obj [
      ("name", .str name),
      ("argcount", .nat argcount),
      ("firstlineno", .nat firstLine),
      ("code", .ofBytes code),
      ("consts", .arr (Constant.toItems consts)),
      ("names", .list .str names),
      ("varnames", .list .str varnames),
      ("cellvars", .list .str cellvars),
      ("freevars", .list .str freevars),
      ("linetable", .ofBytes lineTable),
      ("exceptiontable", .ofBytes exceptionTable)]

end

end Writing
end Disassembler
