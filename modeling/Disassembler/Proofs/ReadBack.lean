import Disassembler.Proofs.KeywordCalls

/-!
# Expressions are read back from their texts

**Input.**  An expression of names, operators, attributes and calls, in which no operator expression
is called (`Legible`).

**Results.**
* `read` finds the expression that a text shows, and `read_render` says that it finds every legible
  expression in its own text.
* `annotate_unambiguous`: instructions that compute different legible expressions are noted with
  different texts.
* `render_call_binary`: an operator expression that is called has the text of another expression, in
  which only its right operand is called.  The text then does not tell which of the two is called.

**Argument.**  The characters are read from left to right, with a stack of what is still open around
the operand that is being read (`Reader`).  Reading an operand puts its expression in the place of
the hole and leaves the stack as it was (`Legible.run_render`, `run_operand`).
-/

namespace Disassembler
namespace Fold

section Legible

/-- The characters that stand between names and operators. -/
def delimiters : List Char :=
  ['(', ')', ',', '.', ' ']

/-- The text has no delimiter in it, as it is of identifiers and of the symbols of operators. -/
def Word (text : String) : Prop :=
  ∀ c ∈ text.toList, c ∉ delimiters

instance (text : String) : Decidable (Word text) :=
  List.decidableBAll (fun c => c ∉ delimiters) text.toList

theorem word_text
    (op : InfixSymbol) :
    Word op.text := by
  have hall : ∀ symbol ∈ Operand.binaryOperators, Word symbol := by
    decide
  unfold InfixSymbol.text
  rw [List.getD_eq_getElem?_getD]
  cases hsymbol : Operand.binaryOperators[op.index]? with
  | none =>
      decide
  | some symbol =>
      exact hall symbol (List.mem_of_getElem? hsymbol)

/-- An expression of names, operators, attributes and calls. What is called is no operator
expression. -/
inductive Legible : Expr → Prop
  | load {name : String}
      (hword : Word name)
      (hne : name ≠ "") :
      Legible (.load name)
  | binary {symbol : String} {left right : Expr}
      (hword : Word symbol)
      (hleft : Legible left)
      (hright : Legible right) :
      Legible (.binary symbol left right)
  | attr {object : Expr} {name : String}
      (hword : Word name)
      (hobject : Legible object) :
      Legible (.attr object name)
  | call {callee : Expr} {arguments : List Expr}
      (hcallee : Legible callee)
      (hvalue : callee.isOperator = false)
      (harguments : ∀ a ∈ arguments, Legible a) :
      Legible (.call callee arguments)

end Legible

section Reading

/-- What has been read of an operand. -/
inductive Focus where
  | hole
  | term (e : Expr)
  | symbol (left : Expr) (text : String)

/-- What is open around an operand. -/
inductive Frame where
  | group
  | operator (left : Expr) (symbol : String)
  | arguments (callee : Expr) (before : List Expr)

/-- A place in a text: the operand there, and what is open around it, the innermost first. -/
structure Reader where
  focus : Focus
  frames : List Frame

namespace Reader

/-- The right operand of an operator ends here. -/
def settle : Reader → Reader
  | ⟨.term e, .operator left symbol :: frames⟩ => ⟨.term (.binary symbol left e), frames⟩
  | r => r

def openParenthesis : Reader → Option Reader
  | ⟨.hole, frames⟩ => some ⟨.hole, .group :: frames⟩
  | ⟨.term callee, frames⟩ => some ⟨.hole, .arguments callee [] :: frames⟩
  | _ => none

def closeParenthesis : Reader → Option Reader
  | ⟨.term e, .group :: frames⟩ => some ⟨.term e, frames⟩
  | ⟨.term e, .arguments callee before :: frames⟩ =>
    some ⟨.term (.call callee (before ++ [e])), frames⟩
  | ⟨.hole, .arguments callee [] :: frames⟩ => some ⟨.term (.call callee []), frames⟩
  | _ => none

def comma : Reader → Option Reader
  | ⟨.term e, .arguments callee before :: frames⟩ =>
    some ⟨.hole, .arguments callee (before ++ [e]) :: frames⟩
  | _ => none

def dot : Reader → Option Reader
  | ⟨.term e, frames⟩ => some ⟨.term (.attr e ""), frames⟩
  | _ => none

/-- A blank stands before and after the symbol of an operator, and after a comma. -/
def blank : Reader → Option Reader
  | ⟨.hole, frames⟩ => some ⟨.hole, frames⟩
  | ⟨.term e, frames⟩ => some ⟨.symbol e "", frames⟩
  | ⟨.symbol left text, frames⟩ => some ⟨.hole, .operator left text :: frames⟩

/-- A character that is no delimiter goes on with a name or a symbol. -/
def extend (c : Char) : Reader → Option Reader
  | ⟨.hole, frames⟩ => some ⟨.term (.load ("".push c)), frames⟩
  | ⟨.term (.load name), frames⟩ => some ⟨.term (.load (name.push c)), frames⟩
  | ⟨.term (.attr object name), frames⟩ => some ⟨.term (.attr object (name.push c)), frames⟩
  | ⟨.symbol left text, frames⟩ => some ⟨.symbol left (text.push c), frames⟩
  | _ => none

def step (r : Reader) (c : Char) : Option Reader :=
  match c with
  | '(' => r.openParenthesis
  | ')' => r.settle.closeParenthesis
  | ',' => r.settle.comma
  | '.' => r.dot
  | ' ' => r.blank
  | c => r.extend c

def run (r : Reader) (text : String) : Option Reader :=
  text.toList.foldlM step r

end Reader

/-- The expression that a text shows. -/
def read (text : String) : Option Expr :=
  match ((⟨.hole, []⟩ : Reader).run text).map Reader.settle with
  | some ⟨.term e, []⟩ => some e
  | _ => none

end Reading

section Words

namespace Reader

variable {frames : List Frame}

/-- A text is read part by part. -/
theorem run_append
    {r next : Reader} {front : String}
    (h : r.run front = some next)
    (back : String) :
    r.run (front ++ back) = next.run back := by
  unfold run at h ⊢
  rw [String.toList_append, List.foldlM_append, h]
  rfl

theorem run_char
    {text : String} {c : Char}
    (h : text.toList = [c])
    (r : Reader) :
    r.run text = r.step c := by
  rw [run, h, List.foldlM_cons]
  cases r.step c <;> rfl

@[simp] theorem run_open
    (r : Reader) :
    r.run "(" = r.openParenthesis :=
  run_char (c := '(') (by simp) r

@[simp] theorem run_close
    (r : Reader) :
    r.run ")" = r.settle.closeParenthesis :=
  run_char (c := ')') (by simp) r

@[simp] theorem run_comma
    (r : Reader) :
    r.run ", " = r.settle.comma.bind blank := by
  simp [run, step, Option.bind_eq_bind]

@[simp] theorem run_dot
    (r : Reader) :
    r.run "." = r.dot :=
  run_char (c := '.') (by simp) r

@[simp] theorem run_blank
    (r : Reader) :
    r.run " " = r.blank :=
  run_char (c := ' ') (by simp) r

theorem step_of_word
    {c : Char}
    (hc : c ∉ delimiters)
    (r : Reader) :
    r.step c = r.extend c := by
  unfold step
  split
  all_goals first | rfl | simp [delimiters] at hc

/-- A word goes on with a text in which every further character is noted. -/
theorem run_word
    {word : String} (grow : String → Reader)
    (hgrow : ∀ text c, (grow text).extend c = some (grow (text.push c)))
    (hword : Word word)
    (text : String) :
    (grow text).run word = some (grow (text ++ word)) := by
  unfold Word at hword
  unfold run
  rw [← String.ofList_toList (s := word)]
  generalize word.toList = cs at hword ⊢
  rw [String.toList_ofList]
  induction cs generalizing text with
  | nil =>
      simp
  | cons c cs ih =>
      have htext : text.push c ++ String.ofList cs = text ++ String.ofList (c :: cs) := by
        apply String.toList_inj.mp
        simp
      rw [List.foldlM_cons, step_of_word (hword c List.mem_cons_self), hgrow, ← htext]
      exact ih (text.push c) fun d hd => hword d (List.mem_cons_of_mem c hd)

theorem run_name
    {name : String}
    (hword : Word name)
    (hne : name ≠ "") :
    (⟨.hole, frames⟩ : Reader).run name = some ⟨.term (.load name), frames⟩ := by
  obtain ⟨c, cs, hcs⟩ := List.exists_cons_of_ne_nil (String.toList_eq_nil_iff.not.mpr hne)
  have hname : name = "".push c ++ String.ofList cs := by
    apply String.toList_inj.mp
    simp [hcs]
  have hrest : Word (String.ofList cs) := by
    intro d hd
    exact hword d (by simp_all)
  have hgrow := run_word (fun text => ⟨.term (.load text), frames⟩) (fun _ _ => rfl) hrest
    ("".push c)
  rw [← hname] at hgrow
  rw [← hgrow, run, run, hcs, List.foldlM_cons, step_of_word (hword c (by simp [hcs])),
    String.toList_ofList]
  rfl

end Reader
end Words

section Operands

namespace Reader

variable {frames : List Frame} {e : Expr}

/-- A reader behind the text of an expression. The right operand of an operator stands alone until
the next character shows that it ends there. -/
def behind : Expr → List Frame → Reader
  | .binary symbol left right, frames => ⟨.term right, .operator left symbol :: frames⟩
  | e, frames => ⟨.term e, frames⟩

theorem behind_of_value
    (hvalue : e.isOperator = false) :
    behind e frames = ⟨.term e, frames⟩ := by
  cases e <;> first | rfl | cases hvalue

/-- An operator is complete when nothing but an open parenthesis or call can stand around it. -/
theorem settle_behind
    (hframes : ∀ left symbol rest, frames ≠ .operator left symbol :: rest) :
    (behind e frames).settle = ⟨.term e, frames⟩ := by
  cases e with
  | binary symbol left right =>
      rfl
  | _ =>
      cases frames with
      | nil =>
          rfl
      | cons frame rest =>
          cases frame with
          | operator left symbol =>
              exact absurd rfl (hframes left symbol rest)
          | _ =>
              rfl

/-- The parentheses around an operator expression close its text. -/
theorem run_operand
    (h : ∀ frames, (⟨.hole, frames⟩ : Reader).run e.render = some (behind e frames)) :
    (⟨.hole, frames⟩ : Reader).run e.operand = some ⟨.term e, frames⟩ := by
  unfold Expr.operand Expr.parenthesized
  split
  · rw [String.append_assoc, run_append (run_open _), run_append (h _), run_close,
      settle_behind (by simp)]
    rfl
  · rename_i hvalue
    rw [h, behind_of_value (by simpa using hvalue)]

/-- The arguments of a call, up to its closing parenthesis. -/
theorem run_arguments
    {callee : Expr} {arguments : List Expr} (before : List Expr)
    (hne : arguments ≠ [])
    (h : ∀ a ∈ arguments, ∀ frames,
      (⟨.hole, frames⟩ : Reader).run a.render = some (behind a frames)) :
    (⟨.hole, .arguments callee before :: frames⟩ : Reader).run
        (", ".intercalate (arguments.map Expr.render) ++ ")") =
      some ⟨.term (.call callee (before ++ arguments)), frames⟩ := by
  induction arguments generalizing before with
  | nil =>
      exact absurd rfl hne
  | cons a rest ih =>
      have hfirst := h a List.mem_cons_self (.arguments callee before :: frames)
      cases rest with
      | nil =>
          rw [List.map_singleton, String.intercalate_singleton, run_append hfirst, run_close,
            settle_behind (by simp)]
          rfl
      | cons b rest =>
          have hrest := ih (before ++ [a]) (by simp) fun x hx => h x (List.mem_cons_of_mem a hx)
          have hcomma : (behind a (.arguments callee before :: frames)).run ", " =
              some ⟨.hole, .arguments callee (before ++ [a]) :: frames⟩ := by
            rw [run_comma, settle_behind (by simp)]
            rfl
          rw [List.append_assoc, List.map_cons] at hrest
          rw [List.map_cons, List.map_cons, String.intercalate_cons_cons, String.append_assoc,
            String.append_assoc, run_append hfirst, run_append hcomma]
          exact hrest

end Reader
end Operands

section Texts

/-- No blank stands before the first parenthesis of the text. -/
def Tight (text : String) : Prop :=
  ' ' ∉ text.toList.takeWhile (· ≠ '(')

theorem Tight.append
    {front back : String}
    (hfront : Tight front)
    (hback : ' ' ∉ back.toList) :
    Tight (front ++ back) := by
  unfold Tight at hfront ⊢
  rw [String.toList_append, List.takeWhile_append]
  split
  · rename_i hall
    rw [List.mem_append]
    rintro (hmem | hmem)
    · rw [(List.takeWhile_sublist _).eq_of_length hall] at hfront
      exact hfront hmem
    · exact hback ((List.takeWhile_sublist _).subset hmem)
  · exact hfront

theorem Tight.parenthesis
    {front : String}
    (hfront : Tight front)
    (back : String) :
    Tight (front ++ "(" ++ back) := by
  unfold Tight at hfront ⊢
  rw [String.append_assoc, String.toList_append, List.takeWhile_append]
  split
  · rename_i hall
    rw [(List.takeWhile_sublist _).eq_of_length hall] at hfront
    simpa using hfront
  · exact hfront

theorem tight_of_word
    {text : String}
    (h : Word text) :
    Tight text := by
  intro hmem
  exact h ' ' ((List.takeWhile_sublist _).subset hmem) (by decide)

theorem Tight.unslotted
    {text : String}
    (h : Tight text) :
    Unslotted text := by
  intro rest
  constructor
  · rintro rfl
    apply h
    simp
  · rintro rfl
    apply h
    simp

theorem operand_of_value
    {e : Expr}
    (hvalue : e.isOperator = false) :
    e.operand = e.render := by
  simp [Expr.operand, Expr.parenthesized, hvalue]

theorem render_binary
    (symbol : String) (left right : Expr) :
    (Expr.binary symbol left right).render =
      left.operand ++ (" " ++ (symbol ++ (" " ++ right.operand))) := by
  simp only [Expr.render, Expr.operand, String.append_assoc]

theorem render_attr
    (object : Expr) (name : String) :
    (Expr.attr object name).render = object.operand ++ ("." ++ name) := by
  simp only [Expr.render, Expr.operand, String.append_assoc]

theorem render_call
    {callee : Expr}
    (hslot : Unslotted callee.render)
    (arguments : List Expr) :
    (Expr.call callee arguments).render =
      callee.render ++ ("(" ++ (", ".intercalate (arguments.map Expr.render) ++ ")")) := by
  simp only [Expr.render, dropNull_of_unslotted hslot, Expr.renderAll_eq_map, String.append_assoc]

/-- What stands beside an operator has no blank before its first parenthesis. -/
theorem Legible.tight
    {e : Expr}
    (h : Legible e) :
    Tight e.operand := by
  induction h with
  | load hword hne =>
      exact tight_of_word hword
  | binary hword hleft hright ihLeft ihRight =>
      have hempty : Tight "" := by
        simp [Tight]
      exact (hempty.parenthesis _).append (by decide)
  | @attr object name hword hobject ih =>
      exact (ih.append (by decide)).append fun hmem => hword ' ' hmem (by decide)
  | @call callee arguments hcallee hvalue harguments ihCallee ihArguments =>
      rw [operand_of_value hvalue] at ihCallee
      rw [operand_of_value rfl, render_call ihCallee.unslotted, ← String.append_assoc]
      exact ihCallee.parenthesis _

theorem Legible.unslotted
    {e : Expr}
    (h : Legible e)
    (hvalue : e.isOperator = false) :
    Unslotted e.render := by
  have htight := h.tight
  rw [operand_of_value hvalue] at htight
  exact htight.unslotted

/-- Reading the text of an expression ends right behind it, with everything open as before. -/
theorem Legible.run_render
    {e : Expr}
    (h : Legible e)
    (frames : List Frame) :
    (⟨.hole, frames⟩ : Reader).run e.render = some (Reader.behind e frames) := by
  -- All that is open is kept for each part, so that a part is read as if it stood alone.
  induction h generalizing frames with
  | load hword hne =>
      rw [Expr.render]
      exact Reader.run_name hword hne
  | @binary symbol left right hword hleft hright ihLeft ihRight =>
      have hsymbol := Reader.run_word (fun text => ⟨.symbol left text, frames⟩) (fun _ _ => rfl)
        hword ""
      rw [String.empty_append] at hsymbol
      rw [render_binary, Reader.run_append (Reader.run_operand ihLeft),
        Reader.run_append (Reader.run_blank _), Reader.run_append hsymbol,
        Reader.run_append (Reader.run_blank _), Reader.run_operand ihRight]
      rfl
  | @attr object name hword hobject ih =>
      have hname := Reader.run_word (fun text => ⟨.term (.attr object text), frames⟩)
        (fun _ _ => rfl) hword ""
      rw [String.empty_append] at hname
      rw [render_attr, Reader.run_append (Reader.run_operand ih),
        Reader.run_append (Reader.run_dot _), hname]
      rfl
  | @call callee arguments hcallee hvalue harguments ihCallee ihArguments =>
      have hread := ihCallee frames
      rw [Reader.behind_of_value hvalue] at hread
      rw [render_call (hcallee.unslotted hvalue), Reader.run_append hread,
        Reader.run_append (Reader.run_open _)]
      -- Without arguments the call ends where its first argument would begin.
      by_cases hne : arguments = []
      · subst hne
        rfl
      · exact Reader.run_arguments [] hne ihArguments

/-- A legible expression is read back from its text. -/
theorem read_render
    {e : Expr}
    (h : Legible e) :
    read e.render = some e := by
  rw [read, h.run_render, Option.map_some, Reader.settle_behind (by simp)]

/-- An operator expression that is called has the text of the expression in which only its right
operand is called. -/
theorem render_call_binary
    {symbol : String} {left right : Expr}
    (hslot : Unslotted (Expr.binary symbol left right).render)
    (hright : Unslotted right.render)
    (hvalue : right.isOperator = false)
    (arguments : List Expr) :
    (Expr.call (.binary symbol left right) arguments).render =
      (Expr.binary symbol left (.call right arguments)).render := by
  rw [render_call hslot, render_binary, render_binary, operand_of_value hvalue,
    operand_of_value (e := .call right arguments) rfl, render_call hright]
  simp only [String.append_assoc]

end Texts

section Notes

variable {t : Table} {e : Expr} {body : List Instruction}

/-- The instructions compute an expression in postorder. No jump leads to them, and none of them
stands for an empty slot or for the keywords of a call. -/
structure Compiled (t : Table) (e : Expr) (body : List Instruction) : Prop where
  postorder : Postorder t [e] body
  ascending : body.Pairwise fun i j => i.offset < j.offset
  plain : ∀ i ∈ body, i.isCache = false ∧ i.isJumpTarget = false ∧ i.expression = none
  unmarked : ∀ i ∈ body, i.opname ≠ "PUSH_NULL" ∧ i.opname ≠ "KW_NAMES"

theorem Compiled.getLast?_expression
    {notes : List Note}
    (h : Compiled t e body)
    (hnotes : annotate? t body = some notes) :
    notes.getLast?.bind Note.expression = some e.render := by
  obtain ⟨note, _, hlast, _, hexpression, _⟩ :=
    @exists_last_note _ _ [] _ _ h.postorder hnotes h.ascending h.plain h.unmarked
  rw [hlast, Option.bind_some, hexpression]

/-- Instructions that compute an expression have notes, unless there are more of them than there is
room for values. -/
theorem Compiled.exists_notes
    (h : Compiled t e body)
    (hlength : body.length ≤ capacity) :
    ∃ notes, annotate? t body = some notes :=
  ⟨_, annotate?_of_hasRoom (h.postorder.hasRoom hlength)⟩

end Notes

/-- Instructions that compute legible expressions are noted with the same text only if they compute
the same expression. -/
theorem annotate_unambiguous
    {t : Table} {e e' : Expr} {body body' : List Instruction}
    (hbody : Compiled t e body)
    (hbody' : Compiled t e' body')
    (he : Legible e)
    (he' : Legible e') :
    (∀ notes notes', annotate? t body = some notes → annotate? t body' = some notes' →
      ∃ text text',
        notes.getLast?.bind Note.expression = some text ∧
        notes'.getLast?.bind Note.expression = some text' ∧
        (text = text' ↔ e = e')) ∧
    (body.length ≤ capacity → ∃ notes, annotate? t body = some notes) ∧
    (body'.length ≤ capacity → ∃ notes, annotate? t body' = some notes) := by
  refine ⟨fun notes notes' hnotes hnotes' => ?_, hbody.exists_notes, hbody'.exists_notes⟩
  refine ⟨e.render, e'.render, hbody.getLast?_expression hnotes,
    hbody'.getLast?_expression hnotes', ?_⟩
  constructor
  · intro htext
    have hread := read_render he
    rw [htext, read_render he'] at hread
    exact (Option.some.inj hread).symm
  · rintro rfl
    rfl

section Sample

/-- The expression `a + b(c)`. -/
def calledOperand : Expr :=
  .binary "+" (.load "a") (.call (.load "b") [.load "c"])

/-- The expression `a(b + c)`. -/
def sumArgument : Expr :=
  .call (.load "a") [.binary "+" (.load "b") (.load "c")]

/-- The expression `(a + b)(c)`. -/
def calledSum : Expr :=
  .call (.binary "+" (.load "a") (.load "b")) [.load "c"]

def calledOperandBody : List Instruction :=
  [loadOf 0 "a", loadOf 2 "b", loadOf 4 "c", countOf 6 131 "CALL_FUNCTION" 1, sumOf 8]

def sumArgumentBody : List Instruction :=
  [loadOf 0 "a", loadOf 2 "b", loadOf 4 "c", sumOf 6, countOf 8 131 "CALL_FUNCTION" 1]

def calledSumBody : List Instruction :=
  [loadOf 0 "a", loadOf 2 "b", sumOf 4, loadOf 6 "c", countOf 8 131 "CALL_FUNCTION" 1]

theorem compiled_calledOperand :
    Compiled .sample calledOperand calledOperandBody where
  postorder := by
    have ha := node_loadOf 0 "a" (by decide) (by decide)
    have hb := node_loadOf 2 "b" (by decide) (by decide)
    have hc := node_loadOf 4 "c" (by decide) (by decide)
    have hcall := Postorder.single (.cons .nil hb (.single .nil hc)) (node_callOf 6 _ [_])
    exact .single (.cons .nil ha hcall) (node_sumOf 8 _ _)
  ascending := by decide
  plain := by decide
  unmarked := by decide

theorem compiled_sumArgument :
    Compiled .sample sumArgument sumArgumentBody where
  postorder := by
    have ha := node_loadOf 0 "a" (by decide) (by decide)
    have hb := node_loadOf 2 "b" (by decide) (by decide)
    have hc := node_loadOf 4 "c" (by decide) (by decide)
    have hsum := Postorder.single (.cons .nil hb (.single .nil hc)) (node_sumOf 6 _ _)
    exact .single (.cons .nil ha hsum) (node_callOf 8 _ [_])
  ascending := by decide
  plain := by decide
  unmarked := by decide

theorem compiled_calledSum :
    Compiled .sample calledSum calledSumBody where
  postorder := by
    have ha := node_loadOf 0 "a" (by decide) (by decide)
    have hb := node_loadOf 2 "b" (by decide) (by decide)
    have hc := node_loadOf 6 "c" (by decide) (by decide)
    have hsum := Postorder.cons (.cons .nil ha (.single .nil hb)) (node_sumOf 4 _ _)
      (.single .nil hc)
    exact .single hsum (node_callOf 8 _ [_])
  ascending := by decide
  plain := by decide
  unmarked := by decide

/-- The texts of `a + b(c)` and `a(b + c)` differ. -/
theorem annotate_unambiguous_sums :
    ∃ notes notes' text text',
      annotate? .sample calledOperandBody = some notes ∧
      annotate? .sample sumArgumentBody = some notes' ∧
      notes.getLast?.bind Note.expression = some text ∧
      notes'.getLast?.bind Note.expression = some text' ∧
      text ≠ text' := by
  have hplus : Word "+" := word_text ⟨0⟩
  have ha : Legible (.load "a") := .load (by decide) (by decide)
  have hb : Legible (.load "b") := .load (by decide) (by decide)
  have hc : Legible (.load "c") := .load (by decide) (by decide)
  have hoperand : Legible calledOperand := .binary hplus ha (.call hb rfl (by simp [hc]))
  have hargument : Legible sumArgument := .call ha rfl (by simpa using .binary hplus hb hc)
  obtain ⟨hdiffer, hgiven, hgiven'⟩ :=
    annotate_unambiguous compiled_calledOperand compiled_sumArgument hoperand hargument
  obtain ⟨notes, hnotes⟩ := hgiven (by decide)
  obtain ⟨notes', hnotes'⟩ := hgiven' (by decide)
  obtain ⟨text, text', htext, htext', hiff⟩ := hdiffer notes notes' hnotes hnotes'
  refine ⟨notes, notes', text, text', hnotes, hnotes', htext, htext', fun heq => ?_⟩
  simpa [calledOperand, sumArgument] using hiff.mp heq

/-- The texts of `a + b(c)` and `(a + b)(c)` are the same. -/
theorem calledSum_ambiguous :
    Compiled .sample calledOperand calledOperandBody ∧
    Compiled .sample calledSum calledSumBody ∧
    calledOperand ≠ calledSum ∧
    (annotate? .sample calledOperandBody).bind (fun notes => notes.getLast?.bind Note.expression) =
      some "a + b(c)" ∧
    (annotate? .sample calledSumBody).bind (fun notes => notes.getLast?.bind Note.expression) =
      some "a + b(c)" := by
  have htext : calledOperand.render = "a + b(c)" := by
    decide
  have hsame : calledSum.render = calledOperand.render := by
    have hslot : Unslotted (Expr.binary "+" (.load "a") (.load "b")).render :=
      unslotted_of_head (by decide)
    exact render_call_binary hslot (unslotted_of_head (by decide)) rfl _
  obtain ⟨notes, hnotes⟩ := compiled_calledOperand.exists_notes (by decide)
  obtain ⟨notes', hnotes'⟩ := compiled_calledSum.exists_notes (by decide)
  refine ⟨compiled_calledOperand, compiled_calledSum, by simp [calledOperand, calledSum], ?_, ?_⟩
  · rw [hnotes, Option.bind_some, compiled_calledOperand.getLast?_expression hnotes, htext]
  · rw [hnotes', Option.bind_some, compiled_calledSum.getLast?_expression hnotes', hsame, htext]

end Sample

end Fold
end Disassembler
