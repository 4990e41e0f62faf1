import Disassembler.Fold.Annotate
import Disassembler.Proofs.Derived

/-!
# Source expressions and the instructions that compute them

A source expression is compiled in postorder: the instructions of its operands from left to right,
then the one instruction that puts their values together.

**Results.**
* `Expr` is a source expression and `Expr.render` its text.  An operator expression stands in
  parentheses where it is an operand of an operator, the object of an attribute or the container of
  a subscript, and nowhere else.
* `Node t i e es` says that under the table `t` the instruction `i` makes `e` from the values of
  `es`.
* `Postorder t es body` says that `body` computes the values of `es`, one after the other.
-/

namespace Disassembler

namespace Text

section Ends

theorem dropStart?_eq_some_iff
    (start cs rest : List Char) :
    dropStart? start cs = some rest
      ↔
    cs = start ++ rest := by
  induction start generalizing cs with
  | nil =>
      simp [dropStart?, eq_comm]
  | cons p ps ih =>
      cases cs with
      | nil =>
          simp [dropStart?]
      | cons c cs =>
          by_cases hpc : p = c
          · simp [dropStart?, hpc, ih]
          · have hcp : ¬ c = p := fun h => hpc h.symm
            simp [dropStart?, hpc, hcp]

/-- The text after a start is found exactly when the text is made of the two. -/
theorem afterStart?_eq_some_iff
    (start s rest : String) :
    afterStart? start s = some rest
      ↔
    s = start ++ rest := by
  simp only [afterStart?, Option.map_eq_some_iff, dropStart?_eq_some_iff]
  constructor
  · rintro ⟨cs, hs, rfl⟩
    apply String.toList_inj.mp
    simp [hs]
  · rintro rfl
    exact ⟨rest.toList, by simp, by simp⟩

/-- The text before an end is found exactly when the text is made of the two. -/
theorem beforeEnd?_eq_some_iff
    (ending s rest : String) :
    beforeEnd? ending s = some rest
      ↔
    s = rest ++ ending := by
  simp only [beforeEnd?, Option.map_eq_some_iff, dropStart?_eq_some_iff]
  constructor
  · rintro ⟨cs, hs, rfl⟩
    apply String.toList_inj.mp
    have hs' := congrArg List.reverse hs
    simpa using hs'
  · rintro rfl
    exact ⟨rest.toList.reverse, by simp, by simp⟩

/-- The text ends with a character other than a blank. -/
def EndsSolid (s : String) : Prop :=
  ∃ c, s.toList.getLast? = some c ∧ c ≠ ' '

theorem endsSolid_of_ne
    {s : String}
    (hne : s ≠ "")
    (hblank : s.toList.getLast? ≠ some ' ') :
    EndsSolid s := by
  cases hlast : s.toList.getLast? with
  | none =>
      rw [List.getLast?_eq_none_iff, String.toList_eq_nil_iff] at hlast
      exact absurd hlast hne
  | some c =>
      refine ⟨c, hlast, ?_⟩
      rintro rfl
      exact hblank hlast

/-- What a text ends with is decided by its last part. -/
theorem EndsSolid.append
    {s : String}
    (h : EndsSolid s)
    (front : String) :
    EndsSolid (front ++ s) := by
  obtain ⟨c, hlast, hc⟩ := h
  refine ⟨c, ?_, hc⟩
  rw [String.toList_append, List.getLast?_append, hlast]
  rfl

theorem not_endsSolid_append_blank
    (front : String) :
    ¬ EndsSolid (front ++ ") ") := by
  rintro ⟨c, hlast, hc⟩
  rw [String.toList_append, List.getLast?_append] at hlast
  have hblank : (") ".toList).getLast? = some ' ' := by
    decide
  rw [hblank] at hlast
  exact hc (by simpa using hlast.symm)

end Ends
end Text

namespace Fold

open Text (EndsSolid)

section Expressions

/-- The brackets of a sequence. -/
inductive Brackets where
  | list
  | tuple
  | set
deriving DecidableEq, Repr

namespace Brackets

def rule : Brackets → FoldRule
  | .list => .buildList
  | .tuple => .buildTuple
  | .set => .buildSet

def opening : Brackets → String
  | .list => "["
  | .tuple => "("
  | .set => "\x7b"

def closing : Brackets → String
  | .list => "]"
  | .tuple => ")"
  | .set => "\x7d"

def empty : Brackets → String
  | .list => "[]"
  | .tuple => "tuple()"
  | .set => "set()"

/-- The sequence with some items. A tuple of one item has a comma after it. -/
def enclose (brackets : Brackets) : List String → String
  | [] => brackets.empty
  | [item] =>
    brackets.opening ++ item ++ (if brackets = .tuple then "," else "") ++ brackets.closing
  | items => brackets.opening ++ ", ".intercalate items ++ brackets.closing

end Brackets

/-- A source expression. -/
inductive Expr where
  | load (text : String)
  | binary (symbol : String) (left right : Expr)
  | unary (sign : String) (operand : Expr)
  | subscript (container index : Expr)
  | attr (object : Expr) (name : String)
  | sequence (brackets : Brackets) (items : List Expr)
  | map (pairs : List (Expr × Expr))
  | call (callee : Expr) (arguments : List Expr)
deriving Inhabited

namespace Expr

/-- The expression is an operator expression. -/
def isOperator : Expr → Bool
  | .binary _ _ _ | .unary _ _ => true
  | _ => false

/-- A text in parentheses if the expression is an operator expression. -/
def parenthesized (e : Expr) (text : String) : String :=
  if e.isOperator then "(" ++ text ++ ")" else text

mutual

/-- The text of an expression. -/
def render : Expr → String
  | .load text => text
  | .binary symbol left right =>
    parenthesized left left.render ++ " " ++ symbol ++ " " ++ parenthesized right right.render
  | .unary sign operand => sign ++ "(" ++ operand.render ++ ")"
  | .subscript container index =>
    parenthesized container container.render ++ "[" ++ index.render ++ "]"
  | .attr object name => parenthesized object object.render ++ "." ++ name
  | .sequence brackets items => brackets.enclose (renderAll items)
  | .map pairs => "\x7b" ++ ", ".intercalate (renderPairs pairs) ++ "\x7d"
  | .call callee arguments =>
    dropNull callee.render ++ "(" ++ ", ".intercalate (renderAll arguments) ++ ")"

def renderAll : List Expr → List String
  | [] => []
  | e :: rest => e.render :: renderAll rest

/-- The texts of the pairs of a map. -/
def renderPairs : List (Expr × Expr) → List String
  | [] => []
  | (key, value) :: rest => (key.render ++ ": " ++ value.render) :: renderPairs rest

end

/-- The text as an operand of an operator, an object or a container. -/
def operand (e : Expr) : String :=
  parenthesized e e.render

/-- Keys and values of pairs, in order. -/
def flatten (pairs : List (Expr × Expr)) : List Expr :=
  pairs.flatMap fun pair => [pair.1, pair.2]

@[simp] theorem renderAll_eq_map
    (es : List Expr) :
    renderAll es = es.map render := by
  induction es with
  | nil =>
      rfl
  | cons e rest ih =>
      rw [renderAll, ih]
      rfl

theorem length_flatten
    (pairs : List (Expr × Expr)) :
    (flatten pairs).length = 2 * pairs.length := by
  induction pairs with
  | nil =>
      rfl
  | cons pair rest ih =>
      simp only [flatten, List.flatMap_cons, List.length_append, List.length_cons,
        List.length_nil] at ih ⊢
      omega

/-- The texts of pairs are those of keys and values, two by two. -/
theorem renderPairs_eq_pairTexts
    (pairs : List (Expr × Expr)) :
    renderPairs pairs = pairTexts ((flatten pairs).map render) := by
  induction pairs with
  | nil =>
      rfl
  | cons pair rest ih =>
      obtain ⟨key, value⟩ := pair
      rw [renderPairs, ih]
      rfl

end Expr
end Expressions

section Compilation

/-- The instruction applies an operator, whose symbol follows from its rule and its operand. -/
inductive Operator (t : Table) (i : Instruction) : String → Prop
  | infixOp (op : InfixSymbol)
      (hrule : ruleOf t i = some (.infixOp op)) :
      Operator t i op.text
  | matMul
      (hrule : ruleOf t i = some .matMul) :
      Operator t i "@"
  | compare (symbol : String)
      (hrule : ruleOf t i = some .compare)
      (hvalue : i.value = .symbol symbol) :
      Operator t i symbol
  | isOp
      (hrule : ruleOf t i = some .isOp) :
      Operator t i (if i.arg = some 1 then "is not" else "is")
  | containsOp
      (hrule : ruleOf t i = some .containsOp) :
      Operator t i (if i.arg = some 1 then "not in" else "in")
  | binaryOp (a : Nat)
      (hrule : ruleOf t i = some .binaryOp)
      (harg : i.arg = some a)
      (hbound : a < Operand.binaryOperators.length) :
      Operator t i Operand.binaryOperators[a]

/-- The instruction applies a sign. -/
inductive Sign (t : Table) (i : Instruction) : String → Prop
  | negate
      (hrule : ruleOf t i = some .negate) :
      Sign t i "-"
  | invert
      (hrule : ruleOf t i = some .invert) :
      Sign t i "~"
  | not
      (hrule : ruleOf t i = some .not) :
      Sign t i "not "
  | positive
      (hrule : ruleOf t i = some .positive) :
      Sign t i "+"

/-- The instruction makes an expression from the values of its operands, which lie on the stack in
the order of the list, the last one on top. -/
inductive Node (t : Table) (i : Instruction) : Expr → List Expr → Prop
  | load
      (hrule : ruleOf t i = none)
      (hload : isLoad t i = true)
      (hend : i.repr.toList.getLast? ≠ some ' ') :
      Node t i (.load i.repr) []
  | binary {symbol : String} (left right : Expr)
      (hoperator : Operator t i symbol) :
      Node t i (.binary symbol left right) [left, right]
  | unary {sign : String} (operand : Expr)
      (hsign : Sign t i sign) :
      Node t i (.unary sign operand) [operand]
  | subscript (container index : Expr)
      (hrule : ruleOf t i = some .subscript) :
      Node t i (.subscript container index) [container, index]
  | attr (object : Expr) {name : String}
      (hrule : ruleOf t i = some .attr)
      (hvalue : i.value = .name name)
      (hend : name.toList.getLast? ≠ some ' ') :
      Node t i (.attr object name) [object]
  | sequence (brackets : Brackets) (items : List Expr)
      (hrule : ruleOf t i = some brackets.rule)
      (harg : i.arg = some items.length) :
      Node t i (.sequence brackets items) items
  | map (pairs : List (Expr × Expr))
      (hrule : ruleOf t i = some .buildMap)
      (harg : i.arg = some pairs.length) :
      Node t i (.map pairs) (Expr.flatten pairs)
  | call (callee : Expr) (arguments : List Expr) {rule : FoldRule}
      (hrule : ruleOf t i = some rule)
      (hcall : rule ∈ [.callFunction, .callMethod, .call])
      (harg : i.arg = some arguments.length) :
      Node t i (.call callee arguments) (callee :: arguments)

/-- Instructions compute the values of expressions one after the other: for each the values of its
operands, and then its own. -/
inductive Postorder (t : Table) : List Expr → List Instruction → Prop
  | nil :
      Postorder t [] []
  | cons {e : Expr} {operands rest : List Expr} {before after : List Instruction}
      {i : Instruction}
      (hoperands : Postorder t operands before)
      (hnode : Node t i e operands)
      (hrest : Postorder t rest after) :
      Postorder t (e :: rest) (before ++ i :: after)

/-- The last instruction of an expression puts the values of its operands together. -/
theorem Postorder.single
    {t : Table} {e : Expr} {operands : List Expr} {before : List Instruction} {i : Instruction}
    (hoperands : Postorder t operands before)
    (hnode : Node t i e operands) :
    Postorder t [e] (before ++ [i]) :=
  Postorder.cons hoperands hnode Postorder.nil

end Compilation

section Texts

theorem endsSolid_bracket
    (front : String) {closing : String}
    (h : closing ∈ [")", "]", "\x7d"]) :
    EndsSolid (front ++ closing) := by
  apply Text.EndsSolid.append
  simp only [List.mem_cons, List.not_mem_nil, or_false] at h
  rcases h with rfl | rfl | rfl
  · exact ⟨')', by decide, by decide⟩
  · exact ⟨']', by decide, by decide⟩
  · exact ⟨'\x7d', by decide, by decide⟩

theorem endsSolid_operand
    {e : Expr}
    (h : EndsSolid e.render) :
    EndsSolid e.operand := by
  unfold Expr.operand Expr.parenthesized
  split
  · exact endsSolid_bracket _ (by simp)
  · exact h

theorem endsSolid_enclose
    (brackets : Brackets) (items : List String) :
    EndsSolid (brackets.enclose items) := by
  have hclosing : brackets.closing ∈ [")", "]", "\x7d"] := by
    cases brackets <;> decide
  match items with
  | [] =>
      cases brackets with
      | list =>
          exact ⟨']', by decide, by decide⟩
      | tuple =>
          exact ⟨')', by decide, by decide⟩
      | set =>
          exact ⟨')', by decide, by decide⟩
  | [item] =>
      exact endsSolid_bracket _ hclosing
  | first :: second :: rest =>
      exact endsSolid_bracket _ hclosing

/-- No expression that an instruction makes has a blank at its end, if none of its operands has. -/
theorem Node.endsSolid
    {t : Table} {i : Instruction} {e : Expr} {operands : List Expr}
    (h : Node t i e operands)
    (hoperands : ∀ x ∈ operands, EndsSolid x.render) :
    EndsSolid e.render := by
  cases h with
  | load hrule hload hend =>
      have hne : i.repr ≠ "" := by
        simp only [isLoad, Bool.and_eq_true, bne_iff_ne] at hload
        exact hload.1.2
      exact Text.endsSolid_of_ne hne hend
  | binary left right hoperator =>
      have hright : EndsSolid right.operand :=
        endsSolid_operand (hoperands right (by simp))
      simp only [Expr.render]
      exact hright.append _
  | unary operand hsign =>
      simp only [Expr.render]
      exact endsSolid_bracket _ (by simp)
  | subscript container index hrule =>
      simp only [Expr.render]
      exact endsSolid_bracket _ (by simp)
  | @attr object name hrule hvalue hend =>
      simp only [Expr.render]
      by_cases hne : name = ""
      · subst hne
        rw [String.append_empty]
        exact Text.EndsSolid.append ⟨'.', by decide, by decide⟩ _
      · exact (Text.endsSolid_of_ne hne hend).append _
  | sequence brackets items hrule harg =>
      simp only [Expr.render]
      exact endsSolid_enclose _ _
  | map pairs hrule harg =>
      simp only [Expr.render]
      exact endsSolid_bracket _ (by simp)
  | call callee arguments hrule hcall harg =>
      simp only [Expr.render]
      exact endsSolid_bracket _ (by simp)

/-- A text without a blank at its end carries no marks of a duplication. -/
theorem unwrap_of_endsSolid
    {text : String}
    (h : EndsSolid text) :
    unwrap text = text := by
  have hinner : ∀ opening : String,
      (Text.afterStart? opening text).bind (Text.beforeEnd? ") ") = none := by
    intro opening
    rw [Option.eq_none_iff_forall_not_mem]
    intro inner hmem
    obtain ⟨rest, hrest, hinner⟩ := Option.bind_eq_some_iff.mp hmem
    rw [Text.afterStart?_eq_some_iff] at hrest
    rw [Text.beforeEnd?_eq_some_iff] at hinner
    rw [hrest, hinner, ← String.append_assoc] at h
    exact Text.not_endsSolid_append_blank _ h
  simp [unwrap, hinner]

end Texts

section Sample

/-- An instruction that loads a name. -/
def loadOf (offset : Nat) (name : String) : Instruction :=
  { offset := offset, opcode := 101, opname := "LOAD_NAME", arg := some 0, value := .name name
    repr := name, hasArg := true }

def sumOf (offset : Nat) : Instruction :=
  { offset := offset, opcode := 23, opname := "BINARY_ADD" }

/-- An instruction whose operand is a count. -/
def countOf (offset opcode : Nat) (opname : String) (count : Nat) : Instruction :=
  { offset := offset, opcode := opcode, opname := opname, arg := some count, value := .int count
    repr := toString count, hasArg := true }

theorem node_loadOf
    (offset : Nat) (name : String)
    (hne : name ≠ "")
    (hend : name.toList.getLast? ≠ some ' ') :
    Node .sample (loadOf offset name) (.load name) [] := by
  have hrule : (Table.sample.info 101).bind OpInfo.fold = none := by
    decide +kernel
  have hclass : Table.sample.is 101 .nullaryLoad = true := by
    decide +kernel
  refine .load hrule ?_ hend
  simp [isLoad, loadOf, hne, hclass]

theorem node_sumOf
    (offset : Nat) (left right : Expr) :
    Node .sample (sumOf offset) (.binary "+" left right) [left, right] := by
  have hrule : (Table.sample.info 23).bind OpInfo.fold = some (.infixOp ⟨0⟩) := by
    decide +kernel
  exact .binary left right (.infixOp ⟨0⟩ hrule)

theorem node_callOf
    (offset : Nat) (callee : Expr) (arguments : List Expr) :
    Node .sample (countOf offset 131 "CALL_FUNCTION" arguments.length) (.call callee arguments)
      (callee :: arguments) := by
  have hrule : (Table.sample.info 131).bind OpInfo.fold = some .callFunction := by
    decide +kernel
  exact .call callee arguments hrule (by simp) rfl

end Sample
end Fold
end Disassembler
