import Disassembler.Fold.Past

/-!
# Folding instructions into expressions

**Input.** A table, the past, an instruction and its rule.

**Results.** `fold` puts the values left by earlier instructions together as the rule says. The
outcome is an expression, a text with dots for operands that cannot be known, or nothing. Where the
operand of the instruction counts the values, it may ask for more of them than there is room for;
then folding cannot go on, whatever lies on the stack.
-/

namespace Disassembler
namespace Fold

/-- What a fold gives. -/
inductive Outcome where
  | folded (text : String) (start : Nat)
  | degraded (text : String)
  | declined
  | overflow
deriving DecidableEq, Repr

/-- The outcome for `n` operands, if there is room for them. -/
def withOperands (t : Table) (past : Past) (n : Nat) (outcome : Operands → Outcome) : Outcome :=
  if capacity < n then .overflow else outcome (operandsFrom t past n)

section Operators

/-- The outcome for `n` operands and the texts of all of them. Nothing is given when not even the
top operand has a text and no jump is the reason for it. -/
def fromTemplate (ops : Operands) (text : String) : Outcome :=
  match ops.miss, ops.start? with
  | none, some start => .folded text start
  | some .unusable, none => .declined
  | _, _ => .degraded text

/-- An operator between two values. -/
def infixFold (t : Table) (past : Past) (symbol : String) : Outcome :=
  let ops := operandsFrom t past 2
  fromTemplate ops ((" " ++ symbol ++ " ").intercalate (ops.grouped 2))

/-- An index into a value. The index stands without parentheses. -/
def subscriptFold (t : Table) (past : Past) : Outcome :=
  let ops := operandsFrom t past 2
  let container := (ops.grouped 2).getD 0 ""
  let index := (ops.padded 2).getD 1 ""
  fromTemplate ops (container ++ "[" ++ index ++ "]")

/-- A text around one value. A jump that leads to it puts dots in its place. -/
def unaryFold (t : Table) (past : Past) (text : String → String) : Outcome :=
  match skipCaches past with
  | [] => .declined
  | p :: rest =>
    match valueAt t p rest with
    | .ok v => .folded (text v.text) v.start
    | .error .jumpTarget => .degraded (text "...")
    | .error .unusable => .declined

end Operators

section Stores

/-- The text without the mark of an empty slot before a name. -/
def dropNull (text : String) : String :=
  ((Text.afterStart? "NULL|self + " text).or (Text.afterStart? "NULL + " text)).getD text

/-- The name of the attribute that an instruction uses. -/
def attributeName (i : Instruction) : String :=
  match i.value with
  | .name name => name
  | _ => dropNull i.repr

/-- The operator that the operand of an instruction chooses. -/
def chosenOperator (i : Instruction) : Option String :=
  i.arg.bind fun a => Operand.binaryOperators[a]?

/-- The value is itself a statement about its target, so that a store adds nothing: an assignment in
place, an import, or the definition of a function of that name. -/
def passesThrough (t : Table) (source : Noted) (target : String) : Bool :=
  match ruleOf t source.instruction with
  | some (.infixOp op) => op.isInplace
  | some .binaryOp =>
    match chosenOperator source.instruction with
    | some symbol => symbol.toList.getLast? == some '='
    | none => false
  | some .importFrom => true
  | some .makeFunction | some .makeFunctionOld =>
    match source.note.expression.bind (Text.afterStart? "def ") with
    | some rest => Text.hasStart (target ++ "(") rest
    | none => false
  | _ => false

/-- A store into a variable. What a store leaves is no value, so that none is taken from another. -/
def storeFold (t : Table) (past : Past) (i : Instruction) : Outcome :=
  if i.isJumpTarget then .declined
  else
    match skipCaches past with
    | [] => .declined
    | p :: rest =>
      if t.is p.instruction.opcode .store then .declined
      else
        match valueAt t p rest with
        | .error _ => .declined
        | .ok v =>
          let target := i.value.text
          if passesThrough t v.source target then .folded v.text v.start
          else .folded (target ++ " = " ++ v.text) v.start

/-- An attribute of a value. -/
def attributeFold (t : Table) (past : Past) (i : Instruction) : Outcome :=
  match skipCaches past with
  | [] => .declined
  | p :: rest =>
    match valueAt t p rest with
    | .error _ => .declined
    | .ok v => .folded (v.operand ++ "." ++ attributeName i) v.start

/-- A store into an attribute: the value lies below the object. -/
def storeAttributeFold (t : Table) (past : Past) (i : Instruction) : Outcome :=
  let ops := operandsFrom t past 2
  let texts := ops.grouped 2
  fromTemplate ops (texts.getD 1 "" ++ "." ++ attributeName i ++ " = " ++ texts.getD 0 "")

/-- A store under an index: the value lies below the container, and this below the index. -/
def storeSubscriptFold (t : Table) (past : Past) : Outcome :=
  let ops := operandsFrom t past 3
  let texts := ops.grouped 3
  fromTemplate ops (texts.getD 1 "" ++ "[" ++ texts.getD 2 "" ++ "] = " ++ texts.getD 0 "")

end Stores

section Collections

/-- An expression of `n` values, all of which have to be found. -/
def allOf (t : Table) (past : Past) (n : Nat) (text : List String → String) : Outcome :=
  withOperands t past n fun ops =>
    match ops.miss, ops.start? with
    | none, some start => .folded (text (ops.padded n)) start
    | _, _ => .declined

/-- Values with commas between them, between two brackets. -/
def sequenceFold (t : Table) (past : Past) (i : Instruction) (opening closing empty : String) :
    Outcome :=
  match i.arg with
  | none => .declined
  | some 0 => .folded empty i.offset
  | some n =>
    allOf t past n fun items =>
      let trailing := if n = 1 ∧ opening = "(" then "," else ""
      opening ++ ", ".intercalate items ++ trailing ++ closing

/-- Texts two by two, with a colon between the two. -/
def pairTexts : List String → List String
  | key :: value :: rest => (key ++ ": " ++ value) :: pairTexts rest
  | _ => []

/-- Pairs between braces. -/
def braced (pairs : List String) : String :=
  "\x7b" ++ ", ".intercalate pairs ++ "\x7d"

/-- A map of pairs, for which twice as many values are asked for. -/
def mapFold (t : Table) (past : Past) (i : Instruction) : Outcome :=
  match i.arg with
  | none => .declined
  | some 0 => .folded (braced []) i.offset
  | some n => allOf t past (2 * n) fun items => braced (pairTexts items)

/-- A map whose keys are the constant tuple loaded last. -/
def constKeyMapFold (t : Table) (past : Past) (i : Instruction) : Outcome :=
  match i.arg with
  | none => .declined
  | some 0 => .folded (braced []) i.offset
  | some n =>
    match skipCaches past with
    | [] => .declined
    | p :: rest =>
      match p.instruction.value with
      | .const (.tuple keys) =>
        if keys.length = n ∧ p.instruction.isJumpTarget = false then
          allOf t rest n fun items =>
            braced (List.zipWith (fun key value => Constant.text key ++ ": " ++ value) keys items)
        else .declined
      | _ => .declined

/-- A slice of two or three values; none is left out. -/
def sliceFold (t : Table) (past : Past) (i : Instruction) : Outcome :=
  match i.arg with
  | some n =>
    if n = 2 ∨ n = 3 then
      allOf t past n fun items =>
        ":".intercalate (items.map fun item => if item = "None" then "" else item)
    else .declined
  | none => .declined

end Collections

section Strings

/-- A character of literal text in a formatted string. -/
def formattedChar (c : Char) : List Char :=
  if c = '\x7b' then ['\x7b', '\x7b']
  else if c = '\x7d' then ['\x7d', '\x7d']
  else if c = '"' then ['\\', '"']
  else if c = '\\' then ['\\', '\\']
  else if c = '\n' then ['\\', 'n']
  else [c]

/-- Literal text in a formatted string. -/
def formattedText (s : String) : String :=
  String.ofList (s.toList.flatMap formattedChar)

/-- The text of a value that is a string constant and nothing else. -/
def literal? (v : Value) : Option String :=
  match v.source.instruction.value with
  | .const (.str s) => if v.isAtom then some s else none
  | _ => none

/-- A value as a piece of a formatted string. -/
def piece (t : Table) (v : Value) : String :=
  match literal? v with
  | some s => formattedText s
  | none =>
    let inner :=
      if ruleOf t v.source.instruction = some .formatValue then
        (Text.afterStart? "f\"" v.text).bind (Text.beforeEnd? "\"")
      else none
    inner.getD ("\x7b" ++ v.text ++ "\x7d")

/-- A formatted string of pieces. -/
def stringFold (t : Table) (past : Past) (i : Instruction) : Outcome :=
  match i.arg with
  | none => .declined
  | some 0 => .folded "\"\"" i.offset
  | some n =>
    withOperands t past n fun ops =>
      match ops.miss, ops.start? with
      | none, some start =>
        .folded ("f\"" ++ String.join (ops.values.reverse.map (piece t)) ++ "\"") start
      | _, _ => .declined

/-- The format of a formatted value. -/
def formatText (v : Value) : String :=
  (literal? v).getD ("\x7b" ++ v.text ++ "\x7d")

/-- A formatted value: the conversion is in the low two bits of the operand, and the third one says
that a format lies above the value. -/
def formatValueFold (t : Table) (past : Past) (i : Instruction) : Outcome :=
  match i.arg with
  | none => .declined
  | some flags =>
    let conversion := ["", "!s", "!r", "!a"].getD (flags % 4) ""
    let whole (value : Value) (format : String) :=
      "f\"\x7b" ++ value.text ++ conversion ++ format ++ "\x7d\""
    if flags / 4 % 2 = 1 then
      match (operandsFrom t past 2).values with
      | [format, value] => .folded (whole value (":" ++ formatText format)) value.start
      | _ => .declined
    else
      match (operandsFrom t past 1).values with
      | [value] => .folded (whole value "") value.start
      | _ => .declined

end Strings

section Calls

/-- The instruction pushes an empty slot. -/
def pushesNull (p : Noted) : Bool :=
  p.instruction.opname == "PUSH_NULL"

/-- The place of the callee: the end of the past, or what lies before an empty slot there. -/
def calleePlace (past : Past) : Past :=
  match skipCaches past with
  | [] => []
  | p :: rest => if pushesNull p && !p.instruction.isJumpTarget then skipCaches rest else p :: rest

/-- Where a call starts: with its callee, or with an empty slot pushed just before it. -/
def callStart (callee : Value) : Nat :=
  match skipCaches callee.before with
  | [] => callee.start
  | p :: _ =>
    if pushesNull p && !callee.first.instruction.isJumpTarget then p.instruction.offset
    else callee.start

/-- The arguments of a call, the last ones with their keywords. -/
def arguments (positional : Nat) (keywords texts : List String) : String :=
  ", ".intercalate (texts.take positional
    ++ List.zipWith (fun key value => key ++ "=" ++ value) keywords (texts.drop positional))

/-- A call with arguments at the end of the past and the callee below them. -/
def callFold (t : Table) (past : Past) (positional : Nat) (keywords : List String) : Outcome :=
  let total := positional + keywords.length
  withOperands t past total fun ops =>
    if ops.complete then
      match calleePlace ops.before with
      | [] => .declined
      | p :: rest =>
        match valueAt t p rest with
        | .error _ => .declined
        | .ok callee =>
          .folded (dropNull callee.text ++ "(" ++ arguments positional keywords (ops.padded total)
            ++ ")") (callStart callee)
    else .declined

/-- The texts of constants that are all strings. -/
def strings? : List Constant → Option (List String)
  | [] => some []
  | c :: rest =>
    match c.str?, strings? rest with
    | some s, some more => some (s :: more)
    | _, _ => none

/-- A call whose keywords are the constant tuple of the instruction before it. -/
def keywordCallFold (t : Table) (past : Past) (i : Instruction) : Outcome :=
  match i.arg, skipCaches past with
  | some total, p :: rest =>
    match p.instruction.value with
    | .const (.tuple items) =>
      match strings? items with
      | some keywords =>
        if p.instruction.isJumpTarget = false ∧ keywords.length ≤ total then
          callFold t rest (total - keywords.length) keywords
        else .declined
      | none => .declined
    | _ => .declined
  | _, _ => .declined

/-- The instruction before names the keywords of a call. -/
def followsKeywordNames (past : Past) : Bool :=
  match skipCaches past with
  | [] => false
  | p :: _ => p.instruction.opname == "KW_NAMES"

/-- A call with as many arguments as the operand says. -/
def plainCallFold (t : Table) (past : Past) (i : Instruction) : Outcome :=
  match i.arg with
  | none => .declined
  | some n => if followsKeywordNames past then keywordCallFold t past i else callFold t past n []

/-- A call with counts packed into the operand, when there are no keywords among them. -/
def packedCallFold (t : Table) (past : Past) (i : Instruction) : Outcome :=
  match i.arg with
  | none => .declined
  | some arg => if arg / 256 % 256 = 0 then callFold t past (arg % 256) [] else .declined

end Calls

section Definitions

/-- The instruction that a chain of stores goes back to. -/
def importSource (t : Table) : Past → Option Noted
  | [] => none
  | p :: rest =>
    if t.is p.instruction.opcode .store then
      let place := origin p rest
      if place.2.length < rest.length then importSource t (place.1 :: place.2) else none
    else some p
termination_by past => past.length

/-- A name out of a module, which the past ends with. -/
def importFromFold (t : Table) (past : Past) (i : Instruction) : Outcome :=
  match skipCaches past with
  | [] => .declined
  | p :: rest =>
    match importSource t (p :: rest) with
    | none => .declined
    | some source =>
      let text := source.note.expression.getD source.instruction.repr
      let moduleName :=
        ((Text.afterStart? "import_module(" text).bind (Text.beforeEnd? ")")).getD text
      if moduleName = "" then .declined
      else
        .folded ("from " ++ moduleName ++ " import " ++ i.value.text)
          (origin p rest).1.instruction.offset

/-- The code object that a new function is made from: the constant loaded last, or one of the two
before it when only constants are loaded after it. -/
def functionFold (past : Past) : Nat → Outcome
  | 0 => .declined
  | n + 1 =>
    match skipCaches past with
    | [] => .declined
    | p :: rest =>
      match p.instruction.value with
      | .const (.code code) =>
        let parameters := if code.argcount = 0 then "" else "..."
        .folded ("def " ++ code.name ++ "(" ++ parameters ++ "): ...") p.instruction.offset
      | .const _ => functionFold rest n
      | _ => .declined

/-- A raised exception, with its cause if there is one. -/
def raiseFold (t : Table) (past : Past) (i : Instruction) : Outcome :=
  match i.arg with
  | some 0 => .folded "reraise" i.offset
  | some 1 => unaryFold t past fun x => "raise " ++ x
  | some 2 =>
    let ops := operandsFrom t past 2
    let texts := ops.grouped 2
    fromTemplate ops ("raise " ++ texts.getD 0 "" ++ " from " ++ texts.getD 1 "")
  | _ => .declined

/-- A value pushed once more, unless a jump comes before. -/
def duplicateFold (t : Table) (past : Past) : Outcome :=
  match skipCaches past with
  | [] => .declined
  | p :: _ =>
    if t.isJump p.instruction.opcode then .declined
    else unaryFold t past fun x => "push(" ++ x ++ ") "

end Definitions

/-- The outcome of folding an instruction by a rule. -/
def fold (t : Table) (past : Past) (i : Instruction) (rule : FoldRule) : Outcome :=
  match rule with
  | .infixOp op => infixFold t past op.text
  | .compare =>
    match i.value.name? with
    | some symbol => infixFold t past symbol
    | none => .declined
  | .isOp => infixFold t past (if i.arg = some 1 then "is not" else "is")
  | .containsOp => infixFold t past (if i.arg = some 1 then "not in" else "in")
  | .binaryOp =>
    match chosenOperator i with
    | some symbol => infixFold t past symbol
    | none => .declined
  | .matMul => infixFold t past "@"
  | .subscript => subscriptFold t past
  | .negate => unaryFold t past fun x => "-(" ++ x ++ ")"
  | .invert => unaryFold t past fun x => "~(" ++ x ++ ")"
  | .not => unaryFold t past fun x => "not (" ++ x ++ ")"
  | .positive => unaryFold t past fun x => "+(" ++ x ++ ")"
  | .returnValue => unaryFold t past fun x => "return " ++ x
  | .returnConst => .folded ("return " ++ i.repr) i.offset
  | .dupTop => duplicateFold t past
  | .store => storeFold t past i
  | .storeAttr => storeAttributeFold t past i
  | .storeSubscr => storeSubscriptFold t past
  | .attr => attributeFold t past i
  | .buildList => sequenceFold t past i "[" "]" "[]"
  | .buildTuple => sequenceFold t past i "(" ")" "tuple()"
  | .buildSet => sequenceFold t past i "\x7b" "\x7d" "set()"
  | .buildMap => mapFold t past i
  | .buildMapHint => .folded (braced []) i.offset
  | .buildConstKeyMap => constKeyMapFold t past i
  | .buildSlice => sliceFold t past i
  | .buildString => stringFold t past i
  | .formatValue => formatValueFold t past i
  | .callFunction | .callMethod | .call => plainCallFold t past i
  | .callFunctionPacked => packedCallFold t past i
  | .callFunctionKw | .callKw => keywordCallFold t past i
  | .importName => .folded ("import_module(" ++ i.value.text ++ ")") i.offset
  | .importFrom => importFromFold t past i
  | .loadBuildClass => .folded "class" i.offset
  | .makeFunction | .makeFunctionOld => functionFold past 3
  | .raiseVarargs => raiseFold t past i

end Fold
end Disassembler
