import Disassembler.Proofs.Isolation
import Disassembler.Proofs.OperatorTexts
import Disassembler.Proofs.Postorder

/-!
# Calls with keywords

The last arguments of a call can have keywords, which are a constant tuple.  Where the tuple stands,
and where an empty slot stands that some calls need, has changed with the version.

**Input.**  Instructions of a call in any of three layouts (`CallLayout`), with cache words anywhere
between them, after any other instructions.

**Results.**  The call is noted with the same text in all layouts (`annotate_keywordCall`): first
the arguments without keywords, then each keyword with its argument.  With more keywords than
arguments it has no expression.  Another instruction can keep the call from its note by counting
more values than there is room for (`annotate_crowdedCall`).

**Argument.**  Instructions that leave a value on their own (`Leaves`) are found one after the other
from the end of the past, cache words skipped (`EndsIn`).  All layouts end with the tuple and the
arguments; below these the callee is found with or without an empty slot above it
(`calleePlace_of_under`).
-/

namespace Disassembler
namespace Fold

open Decode (plain)
open Text (EndsSolid)

section Places

variable {t : Table} {past base : Past}

/-- Without its cache words, the past ends with some instructions above a base. -/
def EndsIn (past : Past) (ps : List Noted) (base : Past) : Prop :=
  ∃ front, past = front ++ base ∧ solid front = ps

/-- The last instruction is found behind the cache words at the end. -/
theorem EndsIn.skip
    {p : Noted} {ps : List Noted}
    (h : EndsIn past (p :: ps) base) :
    ∃ rest, skipCaches past = p :: rest ∧ EndsIn rest ps base := by
  obtain ⟨front, rfl, hsolid⟩ := h
  induction front with
  | nil =>
      cases hsolid
  | cons q front ih =>
      cases hcache : q.instruction.isCache with
      | true =>
          rw [solid_cons_of_isCache front hcache] at hsolid
          obtain ⟨rest, hskip, hrest⟩ := ih hsolid
          refine ⟨rest, ?_, hrest⟩
          rw [← hskip]
          simp [skipCaches, hcache]
      | false =>
          rw [solid_cons_of_not_isCache front hcache, List.cons.injEq] at hsolid
          obtain ⟨rfl, hsolid⟩ := hsolid
          exact ⟨front ++ base, skipCaches_cons _ hcache, front, rfl, hsolid⟩

/-- After some instructions the past ends with those that are no cache words, the last one first,
each with its note. -/
theorem endsIn_seen
    (t : Table) (pre body : List Instruction) :
    ∃ ps, EndsIn (seen t [] (pre ++ body)) ps (seen t [] pre) ∧
      ps.map Noted.instruction = (plain body).reverse ∧
      ∀ p ∈ ps, ∃ rest, p.note = noteOf t rest p.instruction := by
  obtain ⟨front, hfront⟩ := suffix_seen t (seen t [] pre) body
  rw [← seen_append] at hfront
  have hmap : front.map Noted.instruction = body.reverse := by
    have hall := map_instruction_seen t (seen t [] pre) body
    rw [← seen_append, ← hfront, List.map_append] at hall
    exact List.append_cancel_right hall
  refine ⟨solid front, ⟨front, hfront.symm, rfl⟩, ?_, ?_⟩
  · rw [plain, ← List.filter_reverse, ← hmap, List.filter_map]
    rfl
  · intro p hp
    obtain ⟨above, below, rfl⟩ := List.append_of_mem (List.mem_of_mem_filter hp)
    have hplace : p :: (below ++ seen t [] pre) <:+ seen t [] (pre ++ body) := by
      refine ⟨above, ?_⟩
      rw [← hfront]
      simp
    exact ⟨_, note_eq_noteOf p _ hplace⟩

end Places

section Values

variable {t : Table} {past base : Past}

/-- The instruction leaves a value with a text, to which no other instruction contributes. -/
def Leaves (t : Table) (p : Noted) (text : String) : Prop :=
  ∀ rest, valueAt t p rest = .ok ⟨text, false, p, p, rest⟩

/-- Instructions that leave values on their own are found one after the other. -/
theorem operandsFrom_of_leaves
    {ps qs : List Noted} {texts : List String}
    (hps : List.Forall₂ (Leaves t) ps texts)
    (hends : EndsIn past (ps ++ qs) base) :
    ∃ vs before, operandsFrom t past texts.length = ⟨vs, none, before⟩ ∧
      vs.map Value.text = texts ∧ EndsIn before qs base := by
  induction hps generalizing past with
  | nil =>
      exact ⟨[], past, rfl, rfl, hends⟩
  | @cons p text ps texts hp _ ih =>
      obtain ⟨rest, hskip, hrest⟩ := hends.skip
      obtain ⟨vs, before, hops, htexts, hbefore⟩ := ih hrest
      refine ⟨⟨text, false, p, p, rest⟩ :: vs, before, ?_, by simp [htexts], hbefore⟩
      simp [operandsFrom, hskip, hp rest, hops]

/-- A callee is the last of some instructions, or lies under an empty slot there. -/
inductive Under (p : Noted) : List Noted → Prop
  | bare (qs : List Noted)
      (hslot : pushesNull p = false) :
      Under p (p :: qs)
  | slot {s : Noted} (qs : List Noted)
      (hslot : pushesNull s = true)
      (htarget : s.instruction.isJumpTarget = false) :
      Under p (s :: p :: qs)

theorem calleePlace_of_under
    {p : Noted} {ps : List Noted}
    (hunder : Under p ps)
    (hends : EndsIn past ps base) :
    ∃ rest, calleePlace past = p :: rest := by
  cases hunder with
  | bare qs hslot =>
      obtain ⟨rest, hskip, _⟩ := hends.skip
      exact ⟨rest, by simp [calleePlace, hskip, hslot]⟩
  | slot qs hslot htarget =>
      obtain ⟨rest, hskip, hrest⟩ := hends.skip
      obtain ⟨rest', hskip', _⟩ := hrest.skip
      exact ⟨rest', by simp [calleePlace, hskip, hslot, htarget, hskip']⟩

end Values

section Calls

variable {t : Table} {past base : Past} {i : Instruction}

/-- The text of a call whose last arguments have keywords. -/
def keywordCall (callee : String) (texts keywords : List String) : String :=
  let positional := texts.length - keywords.length
  callee ++ "(" ++ ", ".intercalate
    (texts.take positional ++
      List.zipWith (fun key text => key ++ "=" ++ text) keywords (texts.drop positional)) ++ ")"

/-- The text has no mark of an empty slot before it. -/
def Unslotted (text : String) : Prop :=
  ∀ rest, text ≠ "NULL + " ++ rest ∧ text ≠ "NULL|self + " ++ rest

theorem unslotted_of_head
    {text : String}
    (h : text.toList.head? ≠ some 'N') :
    Unslotted text := by
  intro rest
  constructor
  · rintro rfl
    simp at h
  · rintro rfl
    simp at h

theorem dropNull_of_unslotted
    {text : String}
    (h : Unslotted text) :
    dropNull text = text := by
  have hself : Text.afterStart? "NULL|self + " text = none := by
    rw [Option.eq_none_iff_forall_ne_some]
    intro rest hrest
    exact (h rest).2 ((Text.afterStart?_eq_some_iff _ _ _).mp hrest)
  have hnull : Text.afterStart? "NULL + " text = none := by
    rw [Option.eq_none_iff_forall_ne_some]
    intro rest hrest
    exact (h rest).1 ((Text.afterStart?_eq_some_iff _ _ _).mp hrest)
  simp [dropNull, hself, hnull]

theorem strings?_map_str
    (keywords : List String) :
    strings? (keywords.map Constant.str) = some keywords := by
  induction keywords with
  | nil =>
      rfl
  | cons key rest ih =>
      simp [strings?, Constant.str?, ih]

/-- A call finds its arguments and, below them, its callee. -/
theorem callFold_of_leaves
    {p : Noted} {ps qs : List Noted} {f : String} {texts keywords : List String}
    (hfits : callFold t past (texts.length - keywords.length) keywords ≠ .overflow)
    (hcount : keywords.length ≤ texts.length)
    (hargs : List.Forall₂ (Leaves t) ps texts.reverse)
    (hcallee : Leaves t p f)
    (hunder : Under p qs)
    (hf : Unslotted f)
    (hends : EndsIn past (ps ++ qs) base) :
    ∃ start, callFold t past (texts.length - keywords.length) keywords =
      .folded (keywordCall f texts keywords) start := by
  obtain ⟨vs, before, hops, htexts, hbefore⟩ := operandsFrom_of_leaves hargs hends
  obtain ⟨rest, hplace⟩ := calleePlace_of_under hunder hbefore
  rw [List.length_reverse] at hops
  have htotal : texts.length - keywords.length + keywords.length = texts.length :=
    Nat.sub_add_cancel hcount
  have hlength : vs.length = texts.length := by
    rw [← List.length_map (f := Value.text), htexts, List.length_reverse]
  have hpadded : (⟨vs, none, before⟩ : Operands).padded texts.length = texts := by
    simp [Operands.padded, Operands.texts, hlength, htexts]
  refine ⟨callStart ⟨f, false, p, p, rest⟩, ?_⟩
  simp only [callFold, htotal] at hfits ⊢
  rw [withOperands_of_le (le_capacity_of_withOperands hfits)]
  simp only [hops, Operands.complete, Option.isNone_none, if_true, hplace, hcallee rest,
    dropNull_of_unslotted hf, hpadded]
  rfl

/-- A call with the tuple of its keywords before it, in any layout. -/
theorem keywordCallFold_of_leaves
    {k p : Noted} {ps qs : List Noted} {f : String} {texts keywords : List String}
    (hfits : keywordCallFold t past i ≠ .overflow)
    (harg : i.arg = some texts.length)
    (hkeys : k.instruction.value = .const (.tuple (keywords.map .str)))
    (htarget : k.instruction.isJumpTarget = false)
    (hargs : List.Forall₂ (Leaves t) ps texts.reverse)
    (hcallee : Leaves t p f)
    (hunder : Under p qs)
    (hf : Unslotted f)
    (hends : EndsIn past (k :: (ps ++ qs)) base) :
    if keywords.length ≤ texts.length then
      ∃ start, keywordCallFold t past i = .folded (keywordCall f texts keywords) start
    else keywordCallFold t past i = .declined := by
  obtain ⟨rest, hskip, hrest⟩ := hends.skip
  split
  · rename_i hcount
    have hfold : keywordCallFold t past i =
        callFold t rest (texts.length - keywords.length) keywords := by
      simp [keywordCallFold, harg, hskip, hkeys, strings?_map_str, htarget, hcount]
    rw [hfold] at hfits ⊢
    exact callFold_of_leaves hfits hcount hargs hcallee hunder hf hrest
  · rename_i hcount
    simp [keywordCallFold, harg, hskip, hkeys, strings?_map_str, htarget, hcount]

/-- A rule for keyword calls, or the rule for calls after an instruction that names keywords. -/
theorem fold_of_keywords
    {k : Noted} {rule : FoldRule} {n : Nat} {rest : Past}
    (hrule : rule ∈ [FoldRule.callFunctionKw, .callKw] ∨
      (rule = .call ∧ k.instruction.opname = "KW_NAMES"))
    (harg : i.arg = some n)
    (hskip : skipCaches past = k :: rest) :
    fold t past i rule = keywordCallFold t past i := by
  rcases hrule with hrule | ⟨rfl, hname⟩
  · simp only [List.mem_cons, List.not_mem_nil, or_false] at hrule
    rcases hrule with rfl | rfl <;> rfl
  · simp [fold, plainCallFold, harg, followsKeywordNames, hskip, hname]

end Calls

section Layouts

variable {t : Table}

/-- A plain load of a value with a text, which no jump leads to and into which nothing is folded. -/
structure PlainLoad (t : Table) (i : Instruction) (text : String) : Prop where
  rule : ruleOf t i = none
  load : isLoad t i = true
  repr : i.repr = text
  solid : text.toList.getLast? ≠ some ' '
  name : i.opname ≠ "PUSH_NULL"
  target : i.isJumpTarget = false
  fresh : i.expression = none

/-- An instruction whose constant is the tuple of some keywords. -/
structure HoldsKeywords (i : Instruction) (keywords : List String) : Prop where
  value : i.value = .const (.tuple (keywords.map .str))
  target : i.isJumpTarget = false

/-- An instruction that pushes an empty slot. -/
structure PushesSlot (i : Instruction) : Prop where
  name : i.opname = "PUSH_NULL"
  target : i.isJumpTarget = false

/-- The instructions before a call with keywords, in each of its layouts, and the rule of the call:
the tuple is loaded above the arguments; or it is announced, and an empty slot may lie below the
callee; or it is loaded, and an empty slot lies above the callee. -/
inductive CallLayout (t : Table) (f : String) (texts keywords : List String) :
    FoldRule → List Instruction → Prop
  | loaded {callee names : Instruction} {args : List Instruction} {rule : FoldRule}
      (hcallee : PlainLoad t callee f)
      (hargs : List.Forall₂ (PlainLoad t) args texts)
      (hnames : HoldsKeywords names keywords)
      (hrule : rule ∈ [.callFunctionKw, .callKw]) :
      CallLayout t f texts keywords rule (callee :: args ++ [names])
  | announced {callee names : Instruction} {slots args : List Instruction}
      (hslots : slots = [] ∨ ∃ slot, slots = [slot] ∧ PushesSlot slot)
      (hcallee : PlainLoad t callee f)
      (hargs : List.Forall₂ (PlainLoad t) args texts)
      (hnames : HoldsKeywords names keywords)
      (hname : names.opname = "KW_NAMES") :
      CallLayout t f texts keywords .call (slots ++ callee :: args ++ [names])
  | slotted {callee slot names : Instruction} {args : List Instruction}
      (hcallee : PlainLoad t callee f)
      (hslot : PushesSlot slot)
      (hargs : List.Forall₂ (PlainLoad t) args texts)
      (hnames : HoldsKeywords names keywords) :
      CallLayout t f texts keywords .callKw (callee :: slot :: args ++ [names])

/-- A plain load leaves the value of its text. -/
theorem PlainLoad.leaves
    {p : Noted} {text : String} {past : Past}
    (h : PlainLoad t p.instruction text)
    (hnote : p.note = noteOf t past p.instruction) :
    Leaves t p text := by
  intro rest
  have hne : p.instruction.repr ≠ "" := by
    have hload := h.load
    simp only [isLoad, Bool.and_eq_true, bne_iff_ne] at hload
    exact hload.1.2
  have hsolid : EndsSolid text := Text.endsSolid_of_ne (h.repr ▸ hne) h.solid
  have hnoted : p.note = ⟨some text, some p.instruction.offset, none⟩ := by
    rw [hnote]
    simp [noteOf_eq, h.fresh, h.rule, h.load, h.repr]
  simp [valueAt, h.target, hnoted, origin, h.rule, unwrap_of_endsSolid hsolid]

theorem PlainLoad.not_slot
    {p : Noted} {text : String}
    (h : PlainLoad t p.instruction text) :
    pushesNull p = false := by
  simp [pushesNull, h.name]

theorem leaves_of_plainLoads
    {ps : List Noted} {texts : List String}
    (h : List.Forall₂ (PlainLoad t) (ps.map Noted.instruction) texts)
    (hnotes : ∀ p ∈ ps, ∃ past, p.note = noteOf t past p.instruction) :
    List.Forall₂ (Leaves t) ps texts := by
  induction ps generalizing texts with
  | nil =>
      rw [List.map_nil, List.forall₂_nil_left_iff] at h
      rw [h]
      exact .nil
  | cons p ps ih =>
      obtain ⟨text, rest, hp, hrest, rfl⟩ := List.forall₂_cons_left_iff.mp h
      obtain ⟨past, hnote⟩ := hnotes p List.mem_cons_self
      exact .cons (hp.leaves hnote) (ih hrest fun q hq => hnotes q (List.mem_cons_of_mem p hq))

/-- The keywords and the arguments are seen above what lies below the arguments. -/
theorem exists_parts
    {ps : List Noted} {texts : List String}
    (below args : List Instruction) (names : Instruction)
    (hmap : ps.map Noted.instruction = (below ++ args ++ [names]).reverse)
    (hnotes : ∀ p ∈ ps, ∃ past, p.note = noteOf t past p.instruction)
    (hargs : List.Forall₂ (PlainLoad t) args texts) :
    ∃ k as lower, ps = k :: (as ++ lower) ∧ k.instruction = names ∧
      List.Forall₂ (Leaves t) as texts.reverse ∧
      lower.map Noted.instruction = below.reverse ∧
      ∀ p ∈ lower, ∃ past, p.note = noteOf t past p.instruction := by
  simp only [List.reverse_append, List.reverse_singleton, List.singleton_append] at hmap
  obtain ⟨k, qs, rfl, hk, hqs⟩ := List.map_eq_cons_iff.mp hmap
  obtain ⟨as, lower, rfl, has, hlower⟩ := List.map_eq_append_iff.mp hqs
  refine ⟨k, as, lower, rfl, hk, ?_, hlower, fun p hp => hnotes p (by simp [hp])⟩
  refine leaves_of_plainLoads ?_ fun p hp => hnotes p (by simp [hp])
  rw [has]
  exact List.forall₂_reverse_iff.mpr hargs

/-- Every layout ends with the keywords and the arguments above the callee. -/
theorem CallLayout.endsIn
    {f : String} {texts keywords : List String} {rule : FoldRule} {body : List Instruction}
    {ps : List Noted}
    (h : CallLayout t f texts keywords rule body)
    (hmap : ps.map Noted.instruction = body.reverse)
    (hnotes : ∀ p ∈ ps, ∃ past, p.note = noteOf t past p.instruction) :
    ∃ k as c lower, ps = k :: (as ++ lower) ∧ HoldsKeywords k.instruction keywords ∧
      List.Forall₂ (Leaves t) as texts.reverse ∧ Leaves t c f ∧ Under c lower ∧
      (rule ∈ [FoldRule.callFunctionKw, .callKw] ∨
        (rule = .call ∧ k.instruction.opname = "KW_NAMES")) := by
  -- The three layouts differ in what lies below the arguments.
  cases h with
  | @loaded callee names args _ hcallee hargs hnames hrule =>
      obtain ⟨k, as, lower, hps, rfl, has, hlower, hbelow⟩ :=
        exists_parts [callee] args names hmap hnotes hargs
      obtain ⟨c, rfl, rfl⟩ := List.map_eq_singleton_iff.mp hlower
      obtain ⟨past, hnote⟩ := hbelow c List.mem_cons_self
      exact ⟨k, as, c, [c], hps, hnames, has, hcallee.leaves hnote, .bare [] hcallee.not_slot,
        Or.inl hrule⟩
  | @announced callee names slots args hslots hcallee hargs hnames hname =>
      rw [List.append_cons slots callee args] at hmap
      obtain ⟨k, as, lower, hps, rfl, has, hlower, hbelow⟩ :=
        exists_parts (slots ++ [callee]) args names hmap hnotes hargs
      rw [List.reverse_append, List.reverse_singleton, List.singleton_append] at hlower
      obtain ⟨c, qs, rfl, rfl, _⟩ := List.map_eq_cons_iff.mp hlower
      obtain ⟨past, hnote⟩ := hbelow c List.mem_cons_self
      exact ⟨k, as, c, c :: qs, hps, hnames, has, hcallee.leaves hnote, .bare qs hcallee.not_slot,
        Or.inr ⟨rfl, hname⟩⟩
  | @slotted callee slot names args hcallee hslot hargs hnames =>
      obtain ⟨k, as, lower, hps, rfl, has, hlower, hbelow⟩ :=
        exists_parts [callee, slot] args names hmap hnotes hargs
      obtain ⟨s, qs, rfl, rfl, hqs⟩ := List.map_eq_cons_iff.mp hlower
      obtain ⟨c, rfl, rfl⟩ := List.map_eq_singleton_iff.mp hqs
      obtain ⟨past, hnote⟩ := hbelow c (by simp)
      have hpushes : pushesNull s = true := by
        simp [pushesNull, hslot.name]
      exact ⟨k, as, c, [s, c], hps, hnames, has, hcallee.leaves hnote,
        .slot [] hpushes hslot.target, Or.inl (by simp)⟩

end Layouts

/-- In every layout a call with keywords is noted with the same text: the arguments without keywords
and then each keyword with its argument.  With more keywords than arguments it has no expression.
There are notes if there is room for the operands of all instructions. -/
theorem annotate_keywordCall
    {t : Table} {f : String} {texts keywords : List String} {rule : FoldRule}
    {pre body post : List Instruction} {call : Instruction}
    (hf : Unslotted f)
    (hlayout : CallLayout t f texts keywords rule (plain body))
    (hrule : ruleOf t call = some rule)
    (harg : call.arg = some texts.length)
    (hfresh : call.expression = none) :
    (∀ notes, annotate? t (pre ++ body ++ call :: post) = some notes →
      ∃ note, notes[(pre ++ body).length]? = some note ∧
        note.expression =
          if keywords.length ≤ texts.length then some (keywordCall f texts keywords) else none) ∧
    ((∀ i ∈ pre ++ body ++ call :: post, HasRoom t i) →
      ∃ notes, annotate? t (pre ++ body ++ call :: post) = some notes) := by
  refine ⟨fun notes hnotes => ?_, fun hroom => ⟨_, annotate?_of_hasRoom hroom⟩⟩
  obtain ⟨before, note, after, hbefore, hnote, _, rfl⟩ :=
    annotateFrom?_append_cons_eq_some_iff.mp hnotes
  refine ⟨note, by rw [← length_of_annotateFrom? hbefore]; simp, ?_⟩
  obtain ⟨ps, hends, hmap, hnotes⟩ := endsIn_seen t pre body
  generalize seen t [] (pre ++ body) = past at hends hnote
  obtain ⟨k, as, c, lower, rfl, hnames, hargs, hcallee, hunder, hkeyed⟩ :=
    hlayout.endsIn hmap hnotes
  obtain ⟨rest, hskip, _⟩ := hends.skip
  have hfold := fold_of_keywords (t := t) hkeyed harg hskip
  have hfits := fold_ne_overflow_of_noteOf? hnote hfresh hrule
  rw [hfold] at hfits
  have hcall := keywordCallFold_of_leaves hfits harg hnames.value hnames.target hargs hcallee
    hunder hf hends
  split at hcall
  · rename_i hcount
    obtain ⟨start, hcall⟩ := hcall
    rw [if_pos hcount, note_of_folded hnote hfresh hrule (hfold.trans hcall)]
  · rename_i hcount
    rw [if_neg hcount]
    simp only [noteOf?, hfresh, hrule, hfold, hcall, Option.some.injEq] at hnote
    rw [← hnote]

section Sample

/-- An instruction with the keyword `key`. -/
def keyOf (offset opcode : Nat) (opname : String) : Instruction :=
  { offset := offset, opcode := opcode, opname := opname, arg := some 0
    value := .const (.tuple [.str "key"]), repr := "(\"key\",)", hasArg := true }

def slotOf (offset : Nat) : Instruction :=
  { offset := offset, opcode := 2, opname := "PUSH_NULL" }

theorem plainLoad_loadOf
    (offset : Nat) (name : String)
    (hne : name ≠ "")
    (hend : name.toList.getLast? ≠ some ' ') :
    PlainLoad .sample (loadOf offset name) name where
  rule := by
    have hrule : (Table.sample.info 101).bind OpInfo.fold = none := by
      decide +kernel
    exact hrule
  load := by
    have hclass : Table.sample.is 101 .nullaryLoad = true := by
      decide +kernel
    simp [isLoad, loadOf, hne, hclass]
  repr := rfl
  solid := hend
  name := by
    simp [loadOf]
  target := rfl
  fresh := rfl

theorem plainLoad_pair
    (first second : Nat) :
    List.Forall₂ (PlainLoad .sample) [loadOf first "a", loadOf second "b"] ["a", "b"] :=
  .cons (plainLoad_loadOf first "a" (by decide) (by decide))
    (.cons (plainLoad_loadOf second "b" (by decide) (by decide)) .nil)

/-- A callee, two arguments and a keyword, with cache words after the first and the last of them. -/
def loadedBody : List Instruction :=
  [loadOf 12 "f", { slotOf 14 with isCache := true }, loadOf 16 "a", loadOf 18 "b",
    keyOf 20 100 "LOAD_CONST", { slotOf 22 with isCache := true }]

def announcedBody : List Instruction :=
  [slotOf 12, loadOf 14 "f", loadOf 16 "a", loadOf 18 "b", keyOf 20 172 "KW_NAMES"]

def slottedBody : List Instruction :=
  [loadOf 12 "f", slotOf 14, loadOf 16 "a", loadOf 18 "b", keyOf 20 100 "LOAD_CONST"]

theorem callLayout_loadedBody :
    CallLayout .sample "f" ["a", "b"] ["key"] .callFunctionKw (plain loadedBody) :=
  .loaded (plainLoad_loadOf 12 "f" (by decide) (by decide)) (plainLoad_pair 16 18) ⟨rfl, rfl⟩
    (by decide)

theorem callLayout_announcedBody :
    CallLayout .sample "f" ["a", "b"] ["key"] .call (plain announcedBody) :=
  .announced (Or.inr ⟨slotOf 12, rfl, rfl, rfl⟩)
    (plainLoad_loadOf 14 "f" (by decide) (by decide)) (plainLoad_pair 16 18) ⟨rfl, rfl⟩ rfl

theorem callLayout_slottedBody :
    CallLayout .sample "f" ["a", "b"] ["key"] .callKw (plain slottedBody) :=
  .slotted (plainLoad_loadOf 12 "f" (by decide) (by decide)) ⟨rfl, rfl⟩ (plainLoad_pair 16 18)
    ⟨rfl, rfl⟩

/-- The call `f(a, key=b)` after a name, in its three layouts, the first one with cache words. -/
theorem annotate_keywordCall_layouts :
    (∃ notes note,
      annotate? .sample ([loadOf 0 "z"] ++ loadedBody ++ [countOf 24 141 "CALL_FUNCTION_KW" 2]) =
        some notes ∧
      notes[7]? = some note ∧ note.expression = some "f(a, key=b)") ∧
    (∃ notes note,
      annotate? .sample ([loadOf 0 "z"] ++ announcedBody ++ [countOf 22 171 "CALL" 2]) =
        some notes ∧
      notes[6]? = some note ∧ note.expression = some "f(a, key=b)") ∧
    (∃ notes note,
      annotate? .sample ([loadOf 0 "z"] ++ slottedBody ++ [countOf 22 170 "CALL_KW" 2]) =
        some notes ∧
      notes[6]? = some note ∧ note.expression = some "f(a, key=b)") := by
  have hf : Unslotted "f" :=
    unslotted_of_head (by decide)
  have htext : keywordCall "f" ["a", "b"] ["key"] = "f(a, key=b)" := by
    decide
  have hrules : ruleOf .sample (countOf 24 141 "CALL_FUNCTION_KW" 2) = some .callFunctionKw ∧
      ruleOf .sample (countOf 22 171 "CALL" 2) = some .call ∧
      ruleOf .sample (countOf 22 170 "CALL_KW" 2) = some .callKw := by
    decide +kernel
  have hnoted : ∀ {rule : FoldRule} {body : List Instruction} {call : Instruction},
      CallLayout .sample "f" ["a", "b"] ["key"] rule (plain body) →
      ruleOf .sample call = some rule →
      call.arg = some 2 →
      call.expression = none →
      ([loadOf 0 "z"] ++ body ++ [call]).all isSmall = true →
      ∃ notes note, annotate? .sample ([loadOf 0 "z"] ++ body ++ [call]) = some notes ∧
        notes[([loadOf 0 "z"] ++ body).length]? = some note ∧
        note.expression = some "f(a, key=b)" := by
    intro rule body call hlayout hrule harg hfresh hsmall
    obtain ⟨htexts, hgiven⟩ :=
      @annotate_keywordCall _ _ ["a", "b"] ["key"] _ [loadOf 0 "z"] _ [] _ hf hlayout hrule harg
        hfresh
    obtain ⟨notes, hnotes⟩ := hgiven (forall_hasRoom_of_isSmall hsmall)
    obtain ⟨note, hplace, hexpression⟩ := htexts notes hnotes
    rw [if_pos (by decide), htext] at hexpression
    exact ⟨notes, note, hnotes, hplace, hexpression⟩
  refine ⟨?_, ?_, ?_⟩
  · exact hnoted callLayout_loadedBody hrules.1 rfl rfl (by decide)
  · exact hnoted callLayout_announcedBody hrules.2.1 rfl rfl (by decide)
  · exact hnoted callLayout_slottedBody hrules.2.2 rfl rfl (by decide)

/-- The call `f(a, key=b)` has no note after a list of more values than there is room for. -/
theorem annotate_crowdedCall :
    Unslotted "f" ∧
    CallLayout .sample "f" ["a", "b"] ["key"] .callKw (plain slottedBody) ∧
    ruleOf .sample (countOf 22 170 "CALL_KW" 2) = some .callKw ∧
    (crowdedList :: slottedBody ++ [countOf 22 170 "CALL_KW" 2]).Pairwise
      (fun i j => i.offset < j.offset) ∧
    annotate? .sample (slottedBody ++ [countOf 22 170 "CALL_KW" 2]) ≠ none ∧
    annotate? .sample (crowdedList :: slottedBody ++ [countOf 22 170 "CALL_KW" 2]) = none := by
  refine ⟨unslotted_of_head (by decide), callLayout_slottedBody, ?_, by decide, ?_, ?_⟩
  · decide +kernel
  · decide +kernel
  · decide +kernel

end Sample
end Fold
end Disassembler
