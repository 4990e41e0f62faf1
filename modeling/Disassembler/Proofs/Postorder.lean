import Disassembler.Proofs.Derived
import Disassembler.Proofs.Room
import Disassembler.Proofs.Source
import Mathlib.Data.List.Forall2

/-!
# Folding undoes postorder compilation

**Input.**  Instructions that compute a source expression in postorder, after any others.

**Results.**  The note of the last of them is the text of the expression, and starts with the first
of them (`annotate_postorder`).  They ask for no more values than there are instructions
(`Postorder.operandCount_le`), so that there is room for these.  Only an instruction before them can
keep them from their notes, by counting more values than there is room for (`annotate_crowdedSum`).

**Argument.**  An instruction that finds the values of its operands on the stack is noted with the
text of its expression (`note_node`), and so leaves a value that shows it (`exists_value`).  Since
this value begins where the first operand does, the next walk back jumps over all of it, and the
values of an expression's operands lie on the stack when its own instruction comes
(`exists_holds`).
-/

namespace Disassembler
namespace Fold

open Text (EndsSolid)

section Shown

/-- A value is that of an expression. -/
structure Shows (v : Value) (e : Expr) : Prop where
  text : v.text = e.render
  grouped : v.grouped = e.isOperator
  expression : v.source.note.expression = some e.render
  start : v.source.note.start = some v.start
  solid : EndsSolid e.render

variable {vs : List Value} {es : List Expr}

theorem Shows.operand
    {v : Value} {e : Expr}
    (h : Shows v e) :
    v.operand = e.operand := by
  simp only [Value.operand, Expr.operand, Expr.parenthesized, h.text, h.grouped]

theorem map_of_shows
    {f : Value → String} {g : Expr → String}
    (hfg : ∀ v e, Shows v e → f v = g e)
    (h : List.Forall₂ Shows vs.reverse es) :
    (vs.map f).reverse = es.map g := by
  rw [← List.map_reverse]
  generalize vs.reverse = us at h ⊢
  induction h with
  | nil =>
      rfl
  | cons hve _ ih =>
      rw [List.map_cons, List.map_cons, hfg _ _ hve, ih]

theorem solid_of_shows
    {us : List Value}
    (h : List.Forall₂ Shows us es) :
    ∀ e ∈ es, EndsSolid e.render := by
  induction h with
  | nil =>
      simp
  | cons hve _ ih =>
      intro x hx
      rcases List.mem_cons.mp hx with rfl | hx
      · exact hve.solid
      · exact ih x hx

theorem length_of_shows
    (h : List.Forall₂ Shows vs.reverse es) :
    vs.length = es.length := by
  rw [← List.length_reverse]
  exact h.length_eq

theorem exists_start
    (h : List.Forall₂ Shows vs.reverse es)
    (hne : es ≠ []) :
    ∃ start, vs.getLast?.map Value.start = some start := by
  have hvs : vs ≠ [] := by
    rintro rfl
    exact hne (List.forall₂_nil_left_iff.mp h)
  exact ⟨(vs.getLast hvs).start, by rw [List.getLast?_eq_getLast_of_ne_nil hvs]; rfl⟩

variable {t : Table} {past base : Past}

/-- The operands of an instruction are the values that show its operand expressions. -/
theorem operandsFrom_of_shows
    (hholds : Holds t past vs base)
    (hshows : List.Forall₂ Shows vs.reverse es) :
    operandsFrom t past es.length = ⟨vs, none, base⟩ := by
  rw [← length_of_shows hshows]
  exact operandsFrom_of_holds hholds

theorem padded_of_shows
    (hholds : Holds t past vs base)
    (hshows : List.Forall₂ Shows vs.reverse es) :
    (operandsFrom t past es.length).padded es.length = es.map Expr.render := by
  rw [operandsFrom_of_shows hholds hshows, ← length_of_shows hshows]
  simp only [Operands.padded, Operands.texts, Nat.sub_self, List.replicate_zero, List.append_nil]
  exact map_of_shows (fun _ _ hve => hve.text) hshows

theorem grouped_of_shows
    (hholds : Holds t past vs base)
    (hshows : List.Forall₂ Shows vs.reverse es) :
    (operandsFrom t past es.length).grouped es.length = es.map Expr.operand := by
  rw [operandsFrom_of_shows hholds hshows, ← length_of_shows hshows]
  simp only [Operands.grouped, Operands.texts, Nat.sub_self, List.replicate_zero, List.append_nil]
  exact map_of_shows (fun _ _ hve => hve.operand) hshows

end Shown

section Rules

variable {t : Table} {i : Instruction}

theorem Operator.fold_eq
    {symbol : String}
    (h : Operator t i symbol) :
    ∃ rule, ruleOf t i = some rule ∧ rule.isOperator = true ∧
      ∀ past, fold t past i rule = infixFold t past symbol := by
  cases h with
  | infixOp op hrule =>
      exact ⟨_, hrule, rfl, fun past => rfl⟩
  | matMul hrule =>
      exact ⟨_, hrule, rfl, fun past => rfl⟩
  | compare _ hrule hvalue =>
      refine ⟨_, hrule, rfl, fun past => ?_⟩
      simp [fold, hvalue, OperandValue.name?]
  | isOp hrule =>
      exact ⟨_, hrule, rfl, fun past => rfl⟩
  | containsOp hrule =>
      exact ⟨_, hrule, rfl, fun past => rfl⟩
  | binaryOp a hrule harg hbound =>
      refine ⟨_, hrule, rfl, fun past => ?_⟩
      have hchosen : chosenOperator i = some Operand.binaryOperators[a] := by
        simp [chosenOperator, harg, hbound]
      simp [fold, hchosen]

theorem Sign.fold_eq
    {sign : String}
    (h : Sign t i sign) :
    ∃ rule, ruleOf t i = some rule ∧ rule.isOperator = true ∧
      ∀ past, fold t past i rule =
        unaryFold t past fun x => sign ++ "(" ++ x ++ ")" := by
  cases h with
  | negate hrule =>
      exact ⟨_, hrule, rfl, fun past => rfl⟩
  | invert hrule =>
      exact ⟨_, hrule, rfl, fun past => rfl⟩
  | not hrule =>
      exact ⟨_, hrule, rfl, fun past => rfl⟩
  | positive hrule =>
      exact ⟨_, hrule, rfl, fun past => rfl⟩

theorem fold_call
    {rule : FoldRule}
    (h : rule ∈ [FoldRule.callFunction, .callMethod, .call])
    (past : Past) :
    rule.isOperator = false ∧ fold t past i rule = plainCallFold t past i := by
  simp only [List.mem_cons, List.not_mem_nil, or_false] at h
  rcases h with rfl | rfl | rfl <;> exact ⟨rfl, rfl⟩

theorem note_of_folded
    {past : Past} {note : Note} {rule : FoldRule} {text : String} {start : Nat}
    (hnote : noteOf? t past i = some note)
    (hnone : i.expression = none)
    (hrule : ruleOf t i = some rule)
    (hfold : fold t past i rule = .folded text start) :
    note = ⟨some text, some start, some text⟩ := by
  simpa [noteOf?, hnone, hrule, hfold] using hnote.symm

/-- A rule that gives a note has not overflown. -/
theorem fold_ne_overflow_of_noteOf?
    {past : Past} {note : Note} {rule : FoldRule}
    (hnote : noteOf? t past i = some note)
    (hnone : i.expression = none)
    (hrule : ruleOf t i = some rule) :
    fold t past i rule ≠ .overflow := by
  intro hfold
  simp [noteOf?, hnone, hrule, hfold] at hnote

/-- The value of an instruction is grouped when its expression is an operator expression. -/
theorem Node.grouped_eq
    {e : Expr} {operands : List Expr}
    (h : Node t i e operands) :
    ((ruleOf t i).map FoldRule.isOperator).getD false = e.isOperator := by
  cases h with
  | load hrule =>
      simp [hrule, Expr.isOperator]
  | binary left right hoperator =>
      obtain ⟨rule, hrule, hop, _⟩ := hoperator.fold_eq
      simp [hrule, hop, Expr.isOperator]
  | unary operand hsign =>
      obtain ⟨rule, hrule, hop, _⟩ := hsign.fold_eq
      simp [hrule, hop, Expr.isOperator]
  | subscript _ _ hrule =>
      simp [hrule, FoldRule.isOperator, Expr.isOperator]
  | attr _ hrule =>
      simp [hrule, FoldRule.isOperator, Expr.isOperator]
  | sequence brackets _ hrule =>
      cases brackets <;> simp [hrule, Brackets.rule, FoldRule.isOperator, Expr.isOperator]
  | map _ hrule =>
      simp [hrule, FoldRule.isOperator, Expr.isOperator]
  | call _ _ hrule hcall =>
      simp [hrule, (fold_call (i := i) (t := t) hcall []).1, Expr.isOperator]

end Rules

section Folds

variable {t : Table} {i : Instruction} {past base : Past} {vs : List Value} {start : Nat}

/-- A template over all its operands starts with the first of them. -/
theorem fromTemplate_of_shows
    {es : List Expr} (text : String)
    (hholds : Holds t past vs base)
    (hshows : List.Forall₂ Shows vs.reverse es)
    (hstart : vs.getLast?.map Value.start = some start) :
    fromTemplate (operandsFrom t past es.length) text = .folded text start := by
  rw [operandsFrom_of_shows hholds hshows]
  simp [fromTemplate, Operands.start?, hstart]

theorem infixFold_of_shows
    {left right : Expr} (symbol : String)
    (hholds : Holds t past vs base)
    (hshows : List.Forall₂ Shows vs.reverse [left, right])
    (hstart : vs.getLast?.map Value.start = some start) :
    infixFold t past symbol = .folded (Expr.binary symbol left right).render start := by
  have htexts : (operandsFrom t past 2).grouped 2 = [left.operand, right.operand] :=
    grouped_of_shows hholds hshows
  have hfold : fromTemplate (operandsFrom t past 2) (Expr.binary symbol left right).render =
      .folded (Expr.binary symbol left right).render start :=
    fromTemplate_of_shows _ hholds hshows hstart
  rw [← hfold, infixFold, htexts]
  simp only [String.intercalate_cons_cons, String.intercalate_singleton, Expr.render,
    Expr.operand, String.append_assoc]

theorem subscriptFold_of_shows
    {container index : Expr}
    (hholds : Holds t past vs base)
    (hshows : List.Forall₂ Shows vs.reverse [container, index])
    (hstart : vs.getLast?.map Value.start = some start) :
    subscriptFold t past = .folded (Expr.subscript container index).render start := by
  have hgrouped : (operandsFrom t past 2).grouped 2 = [container.operand, index.operand] :=
    grouped_of_shows hholds hshows
  have hpadded : (operandsFrom t past 2).padded 2 = [container.render, index.render] :=
    padded_of_shows hholds hshows
  have hfold : fromTemplate (operandsFrom t past 2) (Expr.subscript container index).render =
      .folded (Expr.subscript container index).render start :=
    fromTemplate_of_shows _ hholds hshows hstart
  rw [← hfold, subscriptFold, hgrouped, hpadded]
  rfl

/-- The value on top of the stack, when it is that of one expression. -/
theorem Holds.top
    {e : Expr}
    (hholds : Holds t past vs base)
    (hshows : List.Forall₂ Shows vs.reverse [e])
    (hstart : vs.getLast?.map Value.start = some start) :
    ∃ p rest v, skipCaches past = p :: rest ∧ valueAt t p rest = .ok v ∧
      Shows v e ∧ v.start = start := by
  cases hholds with
  | nil =>
      simp at hstart
  | @cons p rest v ws _ hcache hvalue hrest =>
      have hlength := length_of_shows hshows
      have hws : ws = [] := by
        simpa using hlength
      subst hws
      refine ⟨p, rest, v, skipCaches_cons rest hcache, hvalue, ?_, by simpa using hstart⟩
      simpa using hshows

theorem unaryFold_of_shows
    {e : Expr} (text : String → String)
    (hholds : Holds t past vs base)
    (hshows : List.Forall₂ Shows vs.reverse [e])
    (hstart : vs.getLast?.map Value.start = some start) :
    unaryFold t past text = .folded (text e.render) start := by
  obtain ⟨p, rest, v, hskip, hvalue, hv, rfl⟩ := hholds.top hshows hstart
  simp [unaryFold, hskip, hvalue, hv.text]

theorem attributeFold_of_shows
    {object : Expr} {name : String}
    (hname : i.value = .name name)
    (hholds : Holds t past vs base)
    (hshows : List.Forall₂ Shows vs.reverse [object])
    (hstart : vs.getLast?.map Value.start = some start) :
    attributeFold t past i = .folded (Expr.attr object name).render start := by
  obtain ⟨p, rest, v, hskip, hvalue, hv, rfl⟩ := hholds.top hshows hstart
  simp [attributeFold, hskip, hvalue, attributeName, hname, hv.operand, Expr.render,
    Expr.operand]

theorem allOf_of_shows
    {es : List Expr} {text : List String → String}
    (hfits : allOf t past es.length text ≠ .overflow)
    (hholds : Holds t past vs base)
    (hshows : List.Forall₂ Shows vs.reverse es)
    (hstart : vs.getLast?.map Value.start = some start) :
    allOf t past es.length text = .folded (text (es.map Expr.render)) start := by
  have hpadded := padded_of_shows hholds hshows
  rw [operandsFrom_of_shows hholds hshows] at hpadded
  simp [allOf, withOperands_of_le (le_capacity_of_withOperands hfits),
    operandsFrom_of_shows hholds hshows, Operands.start?, hstart, hpadded]

/-- Brackets around the texts of some items, as a fold writes them. -/
theorem Brackets.enclose_of_ne_nil
    (brackets : Brackets) {items : List String}
    (hne : items ≠ []) :
    brackets.opening ++ ", ".intercalate items ++
        (if items.length = 1 ∧ brackets.opening = "(" then "," else "") ++ brackets.closing =
      brackets.enclose items := by
  match items with
  | [item] =>
      have hopening : brackets.opening = "(" ↔ brackets = .tuple := by
        cases brackets <;> decide
      simp [enclose, hopening]
  | first :: second :: rest =>
      simp [enclose]

/-- Where the values of some expressions start, or the instruction that puts them together when
there are none. -/
def startOf (vs : List Value) (i : Instruction) : Nat :=
  (vs.getLast?.map Value.start).getD i.offset

theorem fold_sequence
    (brackets : Brackets) {items : List Expr}
    (hfits : fold t past i brackets.rule ≠ .overflow)
    (harg : i.arg = some items.length)
    (hholds : Holds t past vs base)
    (hshows : List.Forall₂ Shows vs.reverse items) :
    fold t past i brackets.rule =
      .folded (Expr.sequence brackets items).render (startOf vs i) := by
  have hfold : fold t past i brackets.rule =
      sequenceFold t past i brackets.opening brackets.closing brackets.empty := by
    cases brackets <;> rfl
  rw [hfold] at hfits ⊢
  cases items with
  | nil =>
      have hvs : vs = [] := by
        simpa using length_of_shows hshows
      subst hvs
      simp [sequenceFold, harg, Expr.render, Brackets.enclose, startOf]
  | cons item rest =>
      obtain ⟨start, hstart⟩ := exists_start hshows (by simp)
      rw [sequenceFold, harg] at hfits ⊢
      have hall := allOf_of_shows hfits hholds hshows hstart
      have htext := brackets.enclose_of_ne_nil
        (List.map_eq_nil_iff.not.mpr (List.cons_ne_nil item rest) :
          (item :: rest).map Expr.render ≠ [])
      rw [List.length_map] at htext
      rw [htext] at hall
      rw [startOf, hstart]
      simp only [Expr.render, Expr.renderAll_eq_map]
      exact hall

theorem mapFold_of_shows
    {pairs : List (Expr × Expr)}
    (hfits : mapFold t past i ≠ .overflow)
    (harg : i.arg = some pairs.length)
    (hholds : Holds t past vs base)
    (hshows : List.Forall₂ Shows vs.reverse (Expr.flatten pairs)) :
    mapFold t past i = .folded (Expr.map pairs).render (startOf vs i) := by
  cases pairs with
  | nil =>
      have hvs : vs = [] := by
        simpa [Expr.flatten] using length_of_shows hshows
      subst hvs
      simp [mapFold, harg, Expr.render, Expr.renderPairs, braced, startOf]
  | cons pair rest =>
      obtain ⟨start, hstart⟩ := exists_start hshows (by simp [Expr.flatten])
      have hfold : mapFold t past i = allOf t past (Expr.flatten (pair :: rest)).length
          fun items => braced (pairTexts items) := by
        rw [mapFold, harg, Expr.length_flatten]
        rfl
      rw [hfold] at hfits ⊢
      rw [startOf, hstart]
      simp only [Expr.render, Expr.renderPairs_eq_pairTexts]
      exact allOf_of_shows hfits hholds hshows hstart

/-- The past holds neither an instruction that pushes an empty slot nor one that names keywords. -/
def Unmarked (past : Past) : Prop :=
  ∀ p ∈ past, p.instruction.opname ≠ "PUSH_NULL" ∧ p.instruction.opname ≠ "KW_NAMES"

theorem callStart_of_unmarked
    {callee : Value}
    (h : Unmarked callee.before) :
    callStart callee = callee.start := by
  unfold callStart
  split
  · rfl
  · rename_i p rest hskip
    have hnull : pushesNull p = false := by
      simp [pushesNull, (h p ((suffix_of_skipCaches hskip).subset List.mem_cons_self)).1]
    simp [hnull]

theorem followsKeywordNames_of_unmarked
    (h : Unmarked past) :
    followsKeywordNames past = false := by
  unfold followsKeywordNames
  split
  · rfl
  · rename_i p rest hskip
    simp [(h p ((suffix_of_skipCaches hskip).subset List.mem_cons_self)).2]

theorem arguments_nil
    (texts : List String) :
    Fold.arguments texts.length [] texts = ", ".intercalate texts := by
  simp [Fold.arguments]

theorem plainCallFold_of_shows
    {callee : Expr} {args : List Expr}
    (hfits : plainCallFold t past i ≠ .overflow)
    (harg : i.arg = some args.length)
    (hunmarked : Unmarked past)
    (hholds : Holds t past vs base)
    (hshows : List.Forall₂ Shows vs.reverse (callee :: args))
    (hstart : vs.getLast?.map Value.start = some start) :
    plainCallFold t past i = .folded (Expr.call callee args).render start := by
  -- The callee is the lowest of the values, so that the arguments lie above it.
  obtain ⟨c, us, hc, hus, hvs⟩ := List.forall₂_cons_right_iff.mp hshows
  have hsplit : vs = us.reverse ++ [c] := by
    rw [← List.reverse_inj, hvs]
    simp
  subst hsplit
  rw [← List.reverse_reverse us] at hus
  obtain ⟨mid, hargs, hcallee⟩ := hholds.split
  have hops := operandsFrom_of_shows hargs hus
  have htexts := padded_of_shows hargs hus
  rw [hops] at htexts
  have hargtext := arguments_nil (args.map Expr.render)
  rw [List.length_map] at hargtext
  have hmid : mid <:+ past := hargs.suffix
  cases hcallee with
  | @cons p rest _ _ _ hcache hvalue hrest =>
      have hbase : Unmarked c.before := by
        rw [hrest.eq_of_nil]
        exact fun q hq => hunmarked q (hholds.suffix.subset hq)
      have hnull : pushesNull p = false := by
        simp [pushesNull, (hunmarked p (hmid.subset List.mem_cons_self)).1]
      have hplace : calleePlace (p :: rest) = p :: rest := by
        simp [calleePlace, skipCaches_cons rest hcache, hnull]
      have hcstart : c.start = start := by
        simpa using hstart
      simp only [plainCallFold, harg, followsKeywordNames_of_unmarked hunmarked, callFold]
        at hfits ⊢
      rw [if_neg Bool.false_ne_true] at hfits ⊢
      rw [withOperands_of_le (le_capacity_of_withOperands hfits)]
      simp [hops, Operands.complete, hplace, hvalue, callStart_of_unmarked hbase, hcstart, htexts,
        hargtext, hc.text, Expr.render]

end Folds

section Induction

variable {t : Table} {i : Instruction} {e : Expr} {operands : List Expr}
variable {past base : Past} {vs : List Value}

theorem startOf_of_start
    {start : Nat}
    (h : vs.getLast?.map Value.start = some start) :
    startOf vs i = start := by
  simp [startOf, h]

/-- An instruction that finds the values of its operands is noted with its expression. -/
theorem note_node
    {note : Note}
    (hnode : Node t i e operands)
    (hnote : noteOf? t past i = some note)
    (hnone : i.expression = none)
    (hunmarked : Unmarked past)
    (hholds : Holds t past vs base)
    (hshows : List.Forall₂ Shows vs.reverse operands) :
    ∃ display, note = ⟨some e.render, some (startOf vs i), display⟩ := by
  cases hnode with
  | load hrule hload hend =>
      have hvs : vs = [] := by
        simpa using length_of_shows hshows
      subst hvs
      refine ⟨none, ?_⟩
      simpa [noteOf?, hnone, hrule, hload, Expr.render, startOf] using hnote.symm
  | binary left right hoperator =>
      obtain ⟨start, hstart⟩ := exists_start hshows (by simp)
      obtain ⟨rule, hrule, _, hfold⟩ := hoperator.fold_eq
      rw [startOf_of_start hstart]
      exact ⟨_, note_of_folded hnote hnone hrule
        ((hfold past).trans (infixFold_of_shows _ hholds hshows hstart))⟩
  | unary operand hsign =>
      obtain ⟨start, hstart⟩ := exists_start hshows (by simp)
      obtain ⟨rule, hrule, _, hfold⟩ := hsign.fold_eq
      rw [startOf_of_start hstart, Expr.render]
      exact ⟨_, note_of_folded hnote hnone hrule
        ((hfold past).trans (unaryFold_of_shows _ hholds hshows hstart))⟩
  | subscript container index hrule =>
      obtain ⟨start, hstart⟩ := exists_start hshows (by simp)
      rw [startOf_of_start hstart]
      exact ⟨_, note_of_folded hnote hnone hrule (subscriptFold_of_shows hholds hshows hstart)⟩
  | attr object hrule hvalue hend =>
      obtain ⟨start, hstart⟩ := exists_start hshows (by simp)
      rw [startOf_of_start hstart]
      exact ⟨_, note_of_folded hnote hnone hrule
        (attributeFold_of_shows hvalue hholds hshows hstart)⟩
  | sequence brackets items hrule harg =>
      have hfits := fold_ne_overflow_of_noteOf? hnote hnone hrule
      exact ⟨_, note_of_folded hnote hnone hrule
        (fold_sequence brackets hfits harg hholds hshows)⟩
  | map pairs hrule harg =>
      have hfits := fold_ne_overflow_of_noteOf? hnote hnone hrule
      exact ⟨_, note_of_folded hnote hnone hrule (mapFold_of_shows hfits harg hholds hshows)⟩
  | call callee args hrule hcall harg =>
      obtain ⟨start, hstart⟩ := exists_start hshows (by simp)
      have hfold := (fold_call (t := t) (i := i) hcall past).2
      have hfits := fold_ne_overflow_of_noteOf? hnote hnone hrule
      rw [hfold] at hfits
      rw [startOf_of_start hstart]
      exact ⟨_, note_of_folded hnote hnone hrule (hfold.trans
        (plainCallFold_of_shows hfits harg hunmarked hholds hshows hstart))⟩

/-- The place where the values of some operands start, seen from the instruction after them. -/
theorem exists_place
    (p : Noted)
    (hp : p.instruction = i)
    (hholds : Holds t past vs base) :
    ∃ above q, p :: past = above ++ q :: base ∧ q.instruction.offset = startOf vs i ∧
      q.instruction = (vs.getLast?.map fun v => v.first.instruction).getD i := by
  rcases List.eq_nil_or_concat vs with rfl | ⟨ws, v, rfl⟩
  · rw [hholds.eq_of_nil]
    exact ⟨[], p, rfl, by simp [startOf, hp], by simp [hp]⟩
  · rw [List.concat_eq_append] at hholds ⊢
    obtain ⟨above, hplace⟩ := hholds.place
    refine ⟨p :: above, v.first, by rw [hplace]; rfl, ?_, by simp⟩
    simp [startOf, Value.start]

/-- An instruction that finds the values of its operands leaves the value of its expression in
their place. -/
theorem exists_value
    {note : Note}
    (hnode : Node t i e operands)
    (hnote : noteOf? t past i = some note)
    (hplain : i.isCache = false ∧ i.isJumpTarget = false ∧ i.expression = none)
    (hdescending : Descending (⟨i, note⟩ :: past))
    (hunmarked : Unmarked past)
    (hholds : Holds t past vs base)
    (hshows : List.Forall₂ Shows vs.reverse operands) :
    ∃ v, Holds t (⟨i, note⟩ :: past) [v] base ∧ Shows v e ∧
      v.first.instruction = (vs.getLast?.map fun v => v.first.instruction).getD i := by
  obtain ⟨hcache, hjump, hnone⟩ := hplain
  obtain ⟨display, rfl⟩ := note_node hnode hnote hnone hunmarked hholds hshows
  obtain ⟨above, q, hplace, hoffset, hfirst⟩ :=
    exists_place ⟨i, ⟨some e.render, some (startOf vs i), display⟩⟩ rfl hholds
  have horigin := origin_of_place hdescending hplace (by simp [hoffset])
  have hsolid : EndsSolid e.render :=
    hnode.endsSolid (solid_of_shows hshows)
  refine ⟨⟨e.render, e.isOperator, ⟨i, ⟨some e.render, some (startOf vs i), display⟩⟩, q, base⟩,
    ?_, ?_, hfirst⟩
  · refine Holds.cons hcache ?_ (Holds.nil base)
    simp only [valueAt, hjump, horigin, unwrap_of_endsSolid hsolid, hnode.grouped_eq]
    rfl
  · exact ⟨rfl, rfl, rfl, by simp [Value.start, hoffset], hsolid⟩

/-- Instructions that compute expressions leave their values on the stack, and the lowest of them
begins with the first instruction. -/
theorem exists_holds
    {es : List Expr} {body : List Instruction} {notes : List Note}
    (hbody : Postorder t es body)
    (hnotes : annotateFrom? t past body = some notes)
    (hplain : ∀ i ∈ body, i.isCache = false ∧ i.isJumpTarget = false ∧ i.expression = none)
    (hdescending : Descending (seen t past body))
    (hunmarked : Unmarked (seen t past body)) :
    ∃ vs, Holds t (seen t past body) vs past ∧ List.Forall₂ Shows vs.reverse es ∧
      vs.getLast?.map (fun v => v.first.instruction) = body.head? := by
  -- The induction follows the forest: first the operands of an expression, then the expressions
  -- after it, which are computed above its value.
  induction hbody generalizing past notes with
  | nil =>
      exact ⟨[], Holds.nil past, List.Forall₂.nil, rfl⟩
  | @cons e operands rest before after i hoperands hnode hrest ihOperands ihRest =>
      obtain ⟨_, note, _, hbefore, hnote, hafter, _⟩ :=
        annotateFrom?_append_cons_eq_some_iff.mp hnotes
      rw [seen_append, seen_cons, noteOf_eq_of_some hnote] at hdescending hunmarked ⊢
      have hsuffix := suffix_seen t (⟨i, note⟩ :: seen t past before) after
      have hdescendingNode := hdescending.sublist hsuffix.sublist
      have hunmarkedBefore : Unmarked (seen t past before) :=
        fun p hp => hunmarked p (hsuffix.subset (List.mem_cons_of_mem _ hp))
      obtain ⟨vs, hvs, hshows, hfirst⟩ :=
        ihOperands hbefore (fun j hj => hplain j (by simp [hj]))
          (hdescendingNode.sublist (List.sublist_cons_self _ _)) hunmarkedBefore
      obtain ⟨v, hv, hshow, hvfirst⟩ :=
        exists_value hnode hnote (hplain i (by simp)) hdescendingNode hunmarkedBefore hvs hshows
      obtain ⟨ws, hws, hshowsRest, _⟩ :=
        ihRest hafter (fun j hj => hplain j (by simp [hj])) hdescending hunmarked
      refine ⟨ws ++ [v], hws.append hv, ?_, ?_⟩
      · rw [List.reverse_append]
        exact List.Forall₂.cons hshow hshowsRest
      · rw [hfirst] at hvfirst
        simp only [List.getLast?_concat, Option.map_some, hvfirst]
        cases before <;> rfl

end Induction

section Counts

variable {t : Table} {i : Instruction} {e : Expr} {operands es : List Expr}

/-- The operand of an instruction counts no more values than those of its operands. -/
theorem Node.operandCount_le
    {rule : FoldRule} {n : Nat}
    (h : Node t i e operands)
    (hrule : ruleOf t i = some rule)
    (hn : i.arg = some n) :
    operandCount rule n ≤ operands.length := by
  have hsame : ∀ {rule' : FoldRule}, ruleOf t i = some rule' → rule = rule' :=
    fun h' => Option.some.inj (hrule.symm.trans h')
  cases h with
  | load hnone =>
      rw [hnone] at hrule
      cases hrule
  | binary left right hoperator =>
      cases hoperator <;> cases hsame ‹_› <;> exact Nat.zero_le _
  | unary operand hsign =>
      cases hsign <;> cases hsame ‹_› <;> exact Nat.zero_le _
  | subscript _ _ hrule' | attr _ hrule' =>
      cases hsame hrule'
      exact Nat.zero_le _
  | sequence brackets items hrule' harg =>
      cases hsame hrule'
      cases hn.symm.trans harg
      cases brackets <;> exact Nat.le_refl _
  | map pairs hrule' harg =>
      cases hsame hrule'
      cases hn.symm.trans harg
      exact Nat.le_of_eq (Expr.length_flatten pairs).symm
  | call callee args hrule' hcall harg =>
      cases hsame hrule'
      cases hn.symm.trans harg
      simp only [List.mem_cons, List.not_mem_nil, or_false] at hcall
      rcases hcall with rfl | rfl | rfl <;> exact Nat.le_succ _

theorem Postorder.length_le
    {body : List Instruction}
    (h : Postorder t es body) :
    es.length ≤ body.length := by
  induction h with
  | nil =>
      exact Nat.le_refl 0
  | cons _ _ _ _ ihRest =>
      simp only [List.length_append, List.length_cons]
      omega

/-- The operands of instructions that compute expressions count no more values than there are
instructions. -/
theorem Postorder.operandCount_le
    {body : List Instruction}
    (h : Postorder t es body) :
    ∀ i ∈ body, ∀ rule ∈ ruleOf t i, ∀ n ∈ i.arg, operandCount rule n ≤ body.length := by
  induction h with
  | nil =>
      simp
  | @cons e operands rest before after i hoperands hnode hrest ihOperands ihRest =>
      intro j hj rule hrule n hn
      simp only [List.length_append, List.length_cons]
      rcases List.mem_append.mp hj with hj | hj
      · have := ihOperands j hj rule hrule n hn
        omega
      · rcases List.mem_cons.mp hj with rfl | hj
        · have hcount := hnode.operandCount_le hrule hn
          have hlength := hoperands.length_le
          omega
        · have := ihRest j hj rule hrule n hn
          omega

/-- There is room for the operands of instructions that compute expressions. -/
theorem Postorder.hasRoom
    {body : List Instruction}
    (h : Postorder t es body)
    (hlength : body.length ≤ capacity) :
    ∀ i ∈ body, HasRoom t i := by
  intro i hi rule hrule n hn
  exact Nat.le_trans (h.operandCount_le i hi rule hrule n hn) hlength

end Counts

/-- If there is a note of the last of the instructions that compute an expression, it is the text of
the expression, and starts with the first of them. -/
theorem exists_last_note
    {t : Table} {e : Expr} {pre body : List Instruction} {notes : List Note}
    (hbody : Postorder t [e] body)
    (hnotes : annotate? t (pre ++ body) = some notes)
    (hoffsets : (pre ++ body).Pairwise fun i j => i.offset < j.offset)
    (hplain : ∀ i ∈ body, i.isCache = false ∧ i.isJumpTarget = false ∧ i.expression = none)
    (hnames : ∀ i ∈ pre ++ body, i.opname ≠ "PUSH_NULL" ∧ i.opname ≠ "KW_NAMES") :
    ∃ note first,
      notes.getLast? = some note ∧
      body.head? = some first ∧
      note.expression = some e.render ∧
      note.start = some first.offset := by
  have hdescending := descending_seen t hoffsets
  have hunmarked : Unmarked (seen t [] (pre ++ body)) := by
    intro p hp
    have hmem := List.mem_map_of_mem (f := Noted.instruction) hp
    rw [map_instruction_seen, List.map_nil, List.append_nil, List.mem_reverse] at hmem
    exact hnames _ hmem
  rw [eq_annotate hnotes]
  rw [annotate?, annotateFrom?_append, Option.bind_eq_some_iff] at hnotes
  obtain ⟨_, _, hmap⟩ := hnotes
  obtain ⟨_, hafter, _⟩ := Option.map_eq_some_iff.mp hmap
  rw [seen_append] at hdescending hunmarked
  obtain ⟨vs, hholds, hshows, hfirst⟩ := exists_holds hbody hafter hplain hdescending hunmarked
  obtain ⟨v, us, hv, hus, hvs⟩ := List.forall₂_cons_right_iff.mp hshows
  rw [List.forall₂_nil_right_iff] at hus
  subst hus
  have hsingle : vs = [v] := by
    simpa using congrArg List.reverse hvs
  subst hsingle
  rw [← seen_append] at hholds
  generalize hseen : seen t [] (pre ++ body) = past at hholds
  cases hholds with
  | @cons p rest _ _ _ hcache hvalue hrest =>
      have hsource := source_of_valueAt hvalue
      refine ⟨p.note, v.first.instruction, getLast?_annotate hseen, hfirst.symm, ?_, ?_⟩
      · rw [← hsource]
        exact hv.expression
      · rw [← hsource]
        exact hv.start

/-- The note of the last of the instructions that compute an expression is the text of the
expression, and starts with the first of them.  Only those before them can keep them from their
notes, and these do not if there is room for their operands. -/
theorem annotate_postorder
    {t : Table} {e : Expr} {pre body : List Instruction}
    (hbody : Postorder t [e] body)
    (hoffsets : (pre ++ body).Pairwise fun i j => i.offset < j.offset)
    (hplain : ∀ i ∈ body, i.isCache = false ∧ i.isJumpTarget = false ∧ i.expression = none)
    (hnames : ∀ i ∈ pre ++ body, i.opname ≠ "PUSH_NULL" ∧ i.opname ≠ "KW_NAMES") :
    (∀ notes, annotate? t (pre ++ body) = some notes →
      ∃ note first,
        notes.getLast? = some note ∧
        body.head? = some first ∧
        note.expression = some e.render ∧
        note.start = some first.offset) ∧
    (body.length ≤ capacity →
      (annotate? t (pre ++ body)).isSome = (annotate? t pre).isSome) ∧
    ((∀ i ∈ pre, HasRoom t i) → (annotate? t pre).isSome = true) := by
  refine ⟨fun notes hnotes => exists_last_note hbody hnotes hoffsets hplain hnames, ?_, ?_⟩
  · intro hlength
    exact isSome_annotate?_append pre (hbody.hasRoom hlength)
  · intro hroom
    rw [annotate?_of_hasRoom hroom]
    rfl

section Sample

/-- The instructions that compute `f(-(a + b), [a]).x`. -/
def sampleBody : List Instruction :=
  [loadOf 4 "f", loadOf 6 "a", loadOf 8 "b", sumOf 10,
    { offset := 12, opcode := 11, opname := "UNARY_NEGATIVE" }, loadOf 14 "a",
    countOf 16 103 "BUILD_LIST" 1, countOf 18 131 "CALL_FUNCTION" 2,
    { loadOf 20 "x" with opcode := 106, opname := "LOAD_ATTR" }]

/-- The expression `f(-(a + b), [a]).x`. -/
def sampleExpr : Expr :=
  .attr (.call (.load "f")
    [.unary "-" (.binary "+" (.load "a") (.load "b")), .sequence .list [.load "a"]]) "x"

/-- The sample computes its expression. -/
theorem postorder_sample :
    Postorder .sample [sampleExpr] sampleBody := by
  have hf := node_loadOf 4 "f" (by decide) (by decide)
  have ha := node_loadOf 6 "a" (by decide) (by decide)
  have hb := node_loadOf 8 "b" (by decide) (by decide)
  have hitem := node_loadOf 14 "a" (by decide) (by decide)
  have hsum := Postorder.single (.cons .nil ha (.single .nil hb)) (node_sumOf 10 _ _)
  have hnegated : Node .sample { offset := 12, opcode := 11, opname := "UNARY_NEGATIVE" }
      (.unary "-" (.binary "+" (.load "a") (.load "b")))
      [.binary "+" (.load "a") (.load "b")] :=
    .unary _ (.negate (by decide +kernel))
  have hlist : Node .sample (countOf 16 103 "BUILD_LIST" 1) (.sequence .list [.load "a"])
      [.load "a"] :=
    .sequence .list [.load "a"] (by decide +kernel) rfl
  have hparts := Postorder.cons .nil hf
    (.cons hsum hnegated (.single (.single .nil hitem) hlist))
  have hcall := Postorder.single hparts (node_callOf 18 _ _)
  exact .single hcall (.attr _ (by decide +kernel) rfl (by decide))

/-- A jump leads to an instruction with a cache word before the sample. -/
def samplePre : List Instruction :=
  [{ offset := 0, opcode := 9, opname := "NOP", isJumpTarget := true },
    { offset := 2, opcode := 0, opname := "CACHE", isCache := true }]

/-- The last instruction of the sample is noted with the text of its expression. -/
theorem annotate_sample :
    ∃ notes note first,
      annotate? .sample (samplePre ++ sampleBody) = some notes ∧
      notes.getLast? = some note ∧
      sampleBody.head? = some first ∧
      note.expression = some "f(-(a + b), [a]).x" ∧
      note.start = some first.offset := by
  have htext : sampleExpr.render = "f(-(a + b), [a]).x" := by
    decide
  obtain ⟨hnoted, hgiven, hroom⟩ :=
    @annotate_postorder _ _ samplePre _ postorder_sample (by decide) (by decide) (by decide)
  have hpre : (annotate? .sample samplePre).isSome = true :=
    hroom (forall_hasRoom_of_isSmall (by decide))
  rw [← hgiven (by decide)] at hpre
  obtain ⟨notes, hnotes⟩ := Option.isSome_iff_exists.mp hpre
  obtain ⟨note, first, hlast⟩ := hnoted notes hnotes
  rw [htext] at hlast
  exact ⟨notes, note, first, hnotes, hlast⟩

/-- A list of more values than there is room for. -/
def crowdedList : Instruction :=
  countOf 0 103 "BUILD_LIST" 1152921504606846976

/-- The instructions that compute `a + b` have no notes after a list of more values than there is
room for. -/
theorem annotate_crowdedSum :
    Postorder .sample [.binary "+" (.load "a") (.load "b")] [loadOf 2 "a", loadOf 4 "b", sumOf 6] ∧
    (crowdedList :: [loadOf 2 "a", loadOf 4 "b", sumOf 6]).Pairwise
      (fun i j => i.offset < j.offset) ∧
    (∀ i ∈ [loadOf 2 "a", loadOf 4 "b", sumOf 6],
      i.isCache = false ∧ i.isJumpTarget = false ∧ i.expression = none) ∧
    (∀ i ∈ crowdedList :: [loadOf 2 "a", loadOf 4 "b", sumOf 6],
      i.opname ≠ "PUSH_NULL" ∧ i.opname ≠ "KW_NAMES") ∧
    annotate? .sample [loadOf 2 "a", loadOf 4 "b", sumOf 6] ≠ none ∧
    annotate? .sample (crowdedList :: [loadOf 2 "a", loadOf 4 "b", sumOf 6]) = none := by
  have ha := node_loadOf 2 "a" (by decide) (by decide)
  have hb := node_loadOf 4 "b" (by decide) (by decide)
  refine ⟨.single (.cons .nil ha (.single .nil hb)) (node_sumOf 6 _ _), by decide, by decide,
    by decide, ?_, ?_⟩
  · decide +kernel
  · decide +kernel

end Sample
end Fold
end Disassembler
