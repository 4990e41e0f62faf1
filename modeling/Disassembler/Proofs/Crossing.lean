import Disassembler.Proofs.Caches
import Disassembler.Proofs.Derived

/-!
# Jump targets inside folded ranges

A jump that leads into the middle of a range may bring another stack.  So no value is taken from an
instruction that a jump leads to; the folded instruction itself, and some parts that are no values,
are taken without that check.

**Input.**  Any table and bytecode, and a folded instruction.

**Results.**
* `Overlooks t is notes m k`: the fold of `m` takes `k` without asking whether a jump leads to it.
* `Takes.crossed`: what lies among the parts of a fold and is a jump target was overlooked, or is a
  part that is no value.
* `annotate_crossing`: a jump target after the start of a folded range is the folded instruction,
  which then is no store, or an instruction that was overlooked.
-/

namespace Disassembler
namespace Fold

open Decode (plain)

section Overlooked

/-- The rules of calls. -/
def callRules : List FoldRule :=
  [.callFunction, .callMethod, .call, .callFunctionPacked, .callFunctionKw, .callKw]

/-- The fold of an instruction takes another one without asking whether a jump leads to it. -/
inductive Overlooks (t : Table) (is : List Instruction) (notes : List Note)
    (m k : Instruction) : Prop
  -- A call starts with an empty slot.
  | slot {note : Note} {rule : FoldRule}
      (hnote : (m, note) ∈ is.zip notes)
      (hrule : ruleOf t m = some rule)
      (hcall : rule ∈ callRules)
      (hslot : k.opname = "PUSH_NULL")
      (hstart : note.start = some k.offset) :
      Overlooks t is notes m k
  -- A name is imported out of what comes just before it.
  | imported {before between after : List Instruction}
      (hplace : is = before ++ k :: (between ++ m :: after))
      (hrule : ruleOf t m = some .importFrom)
      (hbetween : plain between = []) :
      Overlooks t is notes m k
  -- A function is made from one of the three constants before it.
  | constant {before between after : List Instruction} {c : Constant}
      (hplace : is = before ++ k :: (between ++ m :: after))
      (hrule : ruleOf t m = some .makeFunction ∨ ruleOf t m = some .makeFunctionOld)
      (hconst : k.value = .const c)
      (hbetween : (plain between).length ≤ 2) :
      Overlooks t is notes m k

/-- An instruction at or before an offset overlooks another one. -/
def OverlookedBy (t : Table) (is : List Instruction) (offset : Nat) (k : Noted) : Prop :=
  ∃ m ∈ is, m.offset ≤ offset ∧ Overlooks t is (annotate t is) m k.instruction

/-- A jump leads to an instruction that is no cache word. -/
def Joined (k : Noted) : Prop :=
  k.instruction.isCache = false ∧ k.instruction.isJumpTarget = true

/-- Where a jump leads into what contributes to a value, it leads to the last instruction or to one
that was overlooked. -/
def Guarded (t : Table) (is : List Instruction) (q : Noted) (rest : Past) : Prop :=
  ∀ k ∈ q :: rest, Joined k →
    k ∈ (origin q rest).2 ∨ k = q ∨ OverlookedBy t is q.instruction.offset k

theorem OverlookedBy.mono
    {t : Table} {is : List Instruction} {a b : Nat} {k : Noted}
    (h : OverlookedBy t is a k)
    (hle : a ≤ b) :
    OverlookedBy t is b k := by
  obtain ⟨m, hm, hma, hoverlooks⟩ := h
  exact ⟨m, hm, Nat.le_trans hma hle, hoverlooks⟩

end Overlooked

section Places

variable {t : Table} {is : List Instruction}

/-- What is no cache word is not skipped with these. -/
theorem mem_skipCaches
    {past : Past} {k : Noted}
    (hk : k ∈ past)
    (hcache : k.instruction.isCache = false) :
    k ∈ skipCaches past := by
  have hsolid : k ∈ solid (skipCaches past) := by
    rw [solid_skipCaches]
    exact List.mem_filter.mpr ⟨hk, by simp [hcache]⟩
  exact List.mem_of_mem_filter hsolid

/-- Only cache words are skipped. -/
theorem exists_of_skipCaches
    {past rest : Past} {p : Noted}
    (h : skipCaches past = p :: rest) :
    ∃ above, past = above ++ p :: rest ∧ solid above = [] := by
  refine ⟨past.takeWhile fun q => q.instruction.isCache, ?_, ?_⟩
  · rw [← h]
    exact (List.takeWhile_append_dropWhile ..).symm
  · rw [solid, List.filter_eq_nil_iff]
    intro q hq
    simpa using List.mem_takeWhile_imp hq

theorem instructions_of_seen
    {p k : Noted} {above below : Past}
    (h : p :: (above ++ k :: below) <:+ seen t [] is) :
    ∃ before between after,
      is = before ++ k.instruction :: (between ++ p.instruction :: after) ∧
        (plain between).length = (solid above).length := by
  obtain ⟨after, his⟩ := exists_of_suffix_seen h
  refine ⟨(below.map Noted.instruction).reverse, (above.map Noted.instruction).reverse, after,
    ?_, ?_⟩
  · rw [his]
    simp
  · rw [plain, List.filter_reverse, List.length_reverse, List.filter_map, List.length_map]
    rfl

end Places

section Parts

theorem isJumpTarget_of_valueAt
    {t : Table} {p : Noted} {rest : Past} {v : Value}
    (h : valueAt t p rest = .ok v) :
    p.instruction.isJumpTarget = false := by
  unfold valueAt at h
  split at h
  · cases h
  · rename_i htarget
    simpa using htarget

/-- A value lies above the origin of its instruction, or above the instruction itself. -/
theorem before_of_valueAt
    {t : Table} {p : Noted} {rest : Past} {v : Value}
    (h : valueAt t p rest = .ok v) :
    v.before = (origin p rest).2 ∨ v.before = rest := by
  unfold valueAt at h
  split at h
  · cases h
  · split at h
    · cases h
      exact Or.inl rfl
    · split at h
      · cases h
        exact Or.inr rfl
      · cases h

variable {t : Table} {is : List Instruction} {past mid base : Past} {x : Part} {parts : List Part}
  {k : Noted} {bound : Nat}

/-- A part that is taken without asking whether a jump leads to it. -/
def Unchecked (x : Part) (k : Noted) : Prop :=
  x.source = k ∧
    ((x.role = .slot ∧ x.first = k ∧ pushesNull k = true) ∨ x.role = .imported ∨
      x.role = .constant)

/-- A jump target in a part was overlooked, unless it is the last instruction of a part that is no
value. -/
theorem Ends.crossed
    (h : Ends t past x mid)
    (hguarded : ∀ q rest, q :: rest <:+ past → Guarded t is q rest)
    (hbound : ∀ q ∈ past, q.instruction.offset ≤ bound)
    (hk : k ∈ past)
    (hjoined : Joined k) :
    k ∈ mid ∨ OverlookedBy t is bound k ∨ Unchecked x k := by
  have hcases : ∀ {p : Noted} {rest : Past}, skipCaches past = p :: rest →
      k ∈ (origin p rest).2 ∨ k = p ∨ OverlookedBy t is bound k := by
    intro p rest hskip
    have hmem := mem_skipCaches hk hjoined.1
    rw [hskip] at hmem
    have hplace := suffix_of_skipCaches hskip
    rcases hguarded p rest hplace k hmem hjoined with hbefore | heq | hoverlooked
    · exact Or.inl hbefore
    · exact Or.inr (Or.inl heq)
    · exact Or.inr (Or.inr (hoverlooked.mono (hbound p (hplace.subset List.mem_cons_self))))
  have hown : ∀ {p : Noted} {rest : Past}, skipCaches past = p :: rest → k = p ∨ k ∈ rest := by
    intro p rest hskip
    have hmem := mem_skipCaches hk hjoined.1
    rw [hskip] at hmem
    exact List.mem_cons.mp hmem
  cases h with
  | @value p rest v hskip hvalue =>
      have htarget : p.instruction.isJumpTarget = false := isJumpTarget_of_valueAt hvalue
      have hne : k ≠ p := by
        rintro rfl
        rw [hjoined.2] at htarget
        cases htarget
      rcases before_of_valueAt hvalue with hbefore | hbefore
      · rw [hbefore]
        rcases hcases hskip with hmem | heq | hoverlooked
        · exact Or.inl hmem
        · exact absurd heq hne
        · exact Or.inr (Or.inl hoverlooked)
      · rw [hbefore]
        exact Or.inl ((hown hskip).resolve_left hne)
  | @slot p rest hskip hslot =>
      rcases hown hskip with rfl | hmem
      · exact Or.inr (Or.inr ⟨rfl, Or.inl ⟨rfl, rfl, hslot⟩⟩)
      · exact Or.inl hmem
  | @names p rest keys hskip hkeys htarget =>
      rcases hown hskip with rfl | hmem
      · rw [hjoined.2] at htarget
        cases htarget
      · exact Or.inl hmem
  | @imported p rest hskip =>
      rcases hcases hskip with hmem | rfl | hoverlooked
      · exact Or.inl hmem
      · exact Or.inr (Or.inr ⟨rfl, Or.inr (Or.inl rfl)⟩)
      · exact Or.inr (Or.inl hoverlooked)
  | @constant p rest c hskip hconst =>
      rcases hown hskip with rfl | hmem
      · exact Or.inr (Or.inr ⟨rfl, Or.inr (Or.inr rfl)⟩)
      · exact Or.inl hmem

/-- A jump target among the parts of a fold was overlooked, or is the last instruction of a part
that is no value. -/
theorem Takes.crossed
    (h : Takes t past parts base)
    (hguarded : ∀ q rest, q :: rest <:+ past → Guarded t is q rest)
    (hbound : ∀ q ∈ past, q.instruction.offset ≤ bound)
    (hk : k ∈ past)
    (hjoined : Joined k) :
    k ∈ base ∨ OverlookedBy t is bound k ∨ ∃ x ∈ parts, Unchecked x k := by
  induction h with
  | nil =>
      exact Or.inl hk
  | @cons past mid base x parts hends _ ih =>
      have hsuffix : mid <:+ past := (List.suffix_cons _ _).trans hends.suffix
      rcases hends.crossed hguarded hbound hk hjoined with hmid | hoverlooked | hunchecked
      · rcases ih (fun q rest hplace => hguarded q rest (hplace.trans hsuffix))
          (fun q hq => hbound q (hsuffix.subset hq)) hmid with hbase | hoverlooked | ⟨y, hy, hpart⟩
        · exact Or.inl hbase
        · exact Or.inr (Or.inl hoverlooked)
        · exact Or.inr (Or.inr ⟨y, List.mem_cons_of_mem x hy, hpart⟩)
      · exact Or.inr (Or.inl hoverlooked)
      · exact Or.inr (Or.inr ⟨x, List.mem_cons_self, hunchecked⟩)

/-- Constants lie above their base with only cache words between them. -/
theorem Takes.constants
    (h : Takes t past parts base)
    (hroles : ∀ x ∈ parts, x.role = .constant)
    (hk : k ∈ past)
    (hcache : k.instruction.isCache = false) :
    k ∈ base ∨ ∃ above below c, past = above ++ k :: below ∧
      (solid above).length < parts.length ∧ k.instruction.value = .const c := by
  induction h with
  | nil =>
      exact Or.inl hk
  | @cons past mid base x parts hends hrest ih =>
      have hrole := hroles x List.mem_cons_self
      cases hends with
      | value | slot | names | imported =>
          cases hrole
      | @constant p rest c hskip hconst =>
          obtain ⟨caches, hpast, hcaches⟩ := exists_of_skipCaches hskip
          have hmem := mem_skipCaches hk hcache
          rw [hskip] at hmem
          rcases List.mem_cons.mp hmem with rfl | hmid
          · right
            exact ⟨caches, mid, c, hpast, by simp [hcaches], hconst⟩
          · rcases ih (fun y hy => hroles y (List.mem_cons_of_mem _ hy)) hmid with
              hbase | ⟨above, below, d, hmid, hlength, hd⟩
            · exact Or.inl hbase
            · right
              refine ⟨caches ++ p :: above, below, d, ?_, ?_, hd⟩
              · rw [hpast, hmid]
                simp
              · have hp := isCache_of_skipCaches hskip
                rw [solid, List.filter_append, ← solid, hcaches, List.nil_append, ← solid,
                  solid_cons_of_not_isCache above hp]
                exact Nat.succ_lt_succ hlength

end Parts

section Rules

variable {t : Table} {is : List Instruction} {past base : Past} {i : Instruction}
  {parts : List Part} {x : Part} {k : Noted}

theorem AreValues.not_unchecked
    {n : Nat}
    (h : AreValues n parts)
    (hx : x ∈ parts) :
    ¬ Unchecked x k := by
  rintro ⟨_, ⟨hrole, _⟩ | hrole | hrole⟩ <;>
    · rw [h.2 x hx] at hrole
      cases hrole

theorem not_unchecked_of_names
    (h : x.role = .names) :
    ¬ Unchecked x k := by
  rintro ⟨_, ⟨hrole, _⟩ | hrole | hrole⟩ <;>
    · rw [h] at hrole
      cases hrole

/-- The one jump target that a call takes without asking is the empty slot that it starts with. -/
theorem IsCall.slot_of_unchecked
    {n : Nat} (i : Instruction)
    (h : IsCall n parts)
    (hx : x ∈ parts)
    (hunchecked : Unchecked x k)
    (hjoined : Joined k) :
    k.instruction.opname = "PUSH_NULL" ∧ startOfParts i parts = k.instruction.offset := by
  cases h with
  | @intro args upper lower callee hargs hupper hcallee hlower =>
      simp only [List.mem_append, List.mem_cons] at hx
      rcases hx with (hx | hx) | rfl | hx
      · exact absurd hunchecked (hargs.not_unchecked hx)
      · have htarget := (hupper x hx).2
        rw [hunchecked.1, hjoined.2] at htarget
        cases htarget
      · have hvalues : AreValues 1 [x] := ⟨rfl, by simpa using hcallee⟩
        exact absurd hunchecked (hvalues.not_unchecked List.mem_cons_self)
      · rcases hlower with rfl | ⟨y, rfl, hrole⟩
        · cases hx
        · obtain rfl := List.mem_singleton.mp hx
          obtain ⟨_, ⟨_, hfirst, hslot⟩ | hother | hother⟩ := hunchecked
          · refine ⟨by simpa [pushesNull] using hslot, ?_⟩
            simp [startOfParts, hfirst]
          · rw [hrole] at hother
            cases hother
          · rw [hrole] at hother
            cases hother

theorem mem_callRules_of_argumentCount
    {rule : FoldRule} {n : Nat}
    (h : argumentCount i rule = some n) :
    rule ∈ callRules := by
  cases rule with
  | callFunction | callMethod | call | callFunctionPacked =>
      simp [callRules]
  | _ =>
      cases h

/-- A part that a rule takes without asking whether a jump leads to it is overlooked. -/
theorem overlooks_of_asked
    {rule : FoldRule}
    (hrule : ruleOf t i = some rule)
    (hplace : ⟨i, noteOf t past i⟩ :: past <:+ seen t [] is)
    (hstart : (noteOf t past i).start = some (startOfParts i parts))
    (htakes : Takes t past parts base)
    (hasked : Asked past i rule parts)
    (hx : x ∈ parts)
    (hunchecked : Unchecked x k)
    (hk : k ∈ past)
    (hjoined : Joined k) :
    k ∈ base ∨ Overlooks t is (annotate t is) i k.instruction := by
  have hnote : (i, noteOf t past i) ∈ is.zip (annotate t is) :=
    mem_seen_iff.mp (hplace.subset List.mem_cons_self)
  have hslot : ∀ {n : Nat} {lower : List Part}, IsCall n lower → x ∈ lower →
      startOfParts i parts = startOfParts i lower → rule ∈ callRules →
        Overlooks t is (annotate t is) i k.instruction := by
    intro n lower hcall hx hlower hmem
    obtain ⟨hname, hbegin⟩ := hcall.slot_of_unchecked i hx hunchecked hjoined
    rw [hlower, hbegin] at hstart
    exact .slot hnote hrule hmem hname hstart
  cases hasked with
  | values hcount hvalues =>
      exact absurd hunchecked (hvalues.not_unchecked hx)
  | keyless harg =>
      cases hx
  | keyed harg hn hnames hvalues =>
      rcases List.mem_cons.mp hx with rfl | hx
      · exact absurd hunchecked (not_unchecked_of_names hnames)
      · exact absurd hunchecked (hvalues.not_unchecked hx)
  | call hcount hcall =>
      exact Or.inr (hslot hcall hx rfl (mem_callRules_of_argumentCount hcount))
  | @announcedCall _ _ y lower hcalls hannounced harg hnames hcall =>
      rcases List.mem_cons.mp hx with rfl | hx
      · exact absurd hunchecked (not_unchecked_of_names hnames)
      · refine Or.inr (hslot hcall hx (startOfParts_cons i y hcall.ne_nil) ?_)
        rcases hcalls with rfl | rfl | rfl <;> simp [callRules]
  | @keywordCall _ _ y lower hcalls harg hnames hcall =>
      rcases List.mem_cons.mp hx with rfl | hx
      · exact absurd hunchecked (not_unchecked_of_names hnames)
      · refine Or.inr (hslot hcall hx (startOfParts_cons i y hcall.ne_nil) ?_)
        rcases hcalls with rfl | rfl <;> simp [callRules]
  | @imported y hrole =>
      obtain rfl := List.mem_singleton.mp hx
      cases htakes with
      | cons hends hrest =>
          cases hends with
          | value | slot | names | constant =>
              cases hrole
          | @imported p rest hskip =>
              obtain rfl : p = k := hunchecked.1
              obtain ⟨above, rfl, habove⟩ := exists_of_skipCaches hskip
              obtain ⟨before, between, after, his, hlength⟩ := instructions_of_seen hplace
              rw [habove] at hlength
              exact Or.inr (.imported his hrule (List.eq_nil_of_length_eq_zero hlength))
  | function hfunction hthree hroles =>
      rcases htakes.constants hroles hk hjoined.1 with
        hbase | ⟨above, below, c, rfl, hlength, hconst⟩
      · exact Or.inl hbase
      · obtain ⟨before, between, after, his, hbetween⟩ := instructions_of_seen hplace
        have hfunction : ruleOf t i = some .makeFunction ∨ ruleOf t i = some .makeFunctionOld := by
          rcases hfunction with rfl | rfl
          · exact Or.inl hrule
          · exact Or.inr hrule
        exact Or.inr (.constant his hfunction hconst (by omega))

end Rules

section Pass

variable {t : Table} {is : List Instruction}

/-- One more note keeps the invariant. -/
theorem guarded_of_noteOf
    {past : Past} {i : Instruction}
    (hfresh : i.expression = none)
    (hdescending : Descending (seen t [] is))
    (hplace : ⟨i, noteOf t past i⟩ :: past <:+ seen t [] is)
    (hguarded : ∀ q rest, q :: rest <:+ past → Guarded t is q rest) :
    Guarded t is ⟨i, noteOf t past i⟩ past := by
  have hnext : Descending (⟨i, noteOf t past i⟩ :: past) := hdescending.sublist hplace.sublist
  have hmem : i ∈ is := mem_of_mem_seen (hplace.subset List.mem_cons_self)
  intro k hk hjoined
  rcases List.mem_cons.mp hk with rfl | hk
  · exact Or.inr (Or.inl rfl)
  rcases takes_of_noteOf hfresh hnext with
    ⟨hown, _⟩ | ⟨rule, parts, hrule, hstart, htakes, hasked⟩
  · rw [hown]
    exact Or.inl hk
  have hbound : ∀ q ∈ past, q.instruction.offset ≤ i.offset := by
    intro q hq
    exact Nat.le_of_lt ((List.pairwise_cons.mp hnext).1 q hq)
  rcases htakes.crossed hguarded hbound hk hjoined with hbase | hoverlooked | ⟨x, hx, hunchecked⟩
  · exact Or.inl hbase
  · exact Or.inr (Or.inr hoverlooked)
  · rcases overlooks_of_asked hrule hplace hstart htakes hasked hx hunchecked hk hjoined with
      hbase | hoverlooks
    · exact Or.inl hbase
    · exact Or.inr (Or.inr ⟨i, hmem, Nat.le_refl _, hoverlooks⟩)

/-- The whole pass keeps the invariant. -/
theorem guarded_seen
    (hdescending : Descending (seen t [] is))
    (hfresh : ∀ i ∈ is, i.expression = none) :
    ∀ q rest, q :: rest <:+ seen t [] is → Guarded t is q rest := by
  refine everywhere_seen ?_
  intro i past hplace hguarded
  have hmem : i ∈ is := mem_of_mem_seen (hplace.subset List.mem_cons_self)
  exact guarded_of_noteOf (hfresh i hmem) hdescending hplace hguarded

/-- A store is folded only where no jump leads to it. -/
theorem isJumpTarget_of_store
    (hfresh : ∀ i ∈ is, i.expression = none) :
    ∀ q rest, q :: rest <:+ seen t [] is → ruleOf t q.instruction = some .store →
      q.note.expression ≠ none → q.instruction.isJumpTarget = false := by
  refine everywhere_seen ?_
  intro i past hplace _ hrule hfolded
  have hmem : i ∈ is := mem_of_mem_seen (hplace.subset List.mem_cons_self)
  cases hfold : storeFold t past i with
  | folded text start =>
      exact (gathers_of_storeFold hfold).2
  | degraded text | declined | overflow =>
      simp [noteOf_eq, hfresh i hmem, hrule, fold, hfold] at hfolded

/-- A jump target after the start of a folded range is the folded instruction, which then is no
store, or an instruction that was overlooked. -/
theorem annotate_crossing
    (t : Table) (env : Environment) (showCaches : Bool) (code : List UInt8)
    {notes : List Note} {i k : Instruction} {note : Note} {rule : FoldRule} {start : Nat}
    (hnotes : annotate? t (decode t env showCaches code).instructions = some notes)
    (hnote : (i, note) ∈ (decode t env showCaches code).instructions.zip notes)
    (hrule : ruleOf t i = some rule)
    (hfolded : note.expression ≠ none)
    (hstart : note.start = some start)
    (hk : k ∈ (decode t env showCaches code).instructions)
    (hcache : k.isCache = false)
    (hrange : start < k.offset ∧ k.offset ≤ i.offset)
    (htarget : k.isJumpTarget = true) :
    (k = i ∧ rule ≠ .store) ∨
      ∃ m ∈ (decode t env showCaches code).instructions, m.offset ≤ i.offset ∧
        Overlooks t (decode t env showCaches code).instructions notes m k := by
  have hdescending := descending_seen t (Decode.pairwise_decode t env showCaches code)
  have hfresh := Decode.expression_decode t env showCaches code
  generalize (decode t env showCaches code).instructions = is at *
  obtain rfl := eq_annotate hnotes
  obtain ⟨above, rest, hseen⟩ := List.append_of_mem (mem_seen_iff.mpr hnote)
  have hplace : ⟨i, note⟩ :: rest <:+ seen t [] is := ⟨above, hseen.symm⟩
  obtain ⟨p, hp, rfl⟩ := exists_seen (t := t) hk
  have hmem : p ∈ ⟨i, note⟩ :: rest := by
    rw [hseen] at hp hdescending
    rcases List.mem_append.mp hp with hp | hp
    · have hlt := (List.pairwise_append.mp hdescending).2.2 p hp ⟨i, note⟩ List.mem_cons_self
      exact absurd hrange.2 (Nat.not_le_of_lt hlt)
    · exact hp
  rcases guarded_seen hdescending hfresh _ _ hplace p hmem ⟨hcache, htarget⟩ with
    hbefore | rfl | hoverlooked
  · -- What lies before the origin lies before the start.
    have hfirst := offset_origin_seen hdescending hfresh _ _ hplace start hstart
    have hsuffix := (origin_suffix ⟨i, note⟩ rest).trans hplace
    have hlt := (List.pairwise_cons.mp (hdescending.sublist hsuffix.sublist)).1 p hbefore
    omega
  · refine Or.inl ⟨rfl, ?_⟩
    rintro rfl
    have hnone := isJumpTarget_of_store hfresh _ _ hplace hrule hfolded
    rw [htarget] at hnone
    cases hnone
  · exact Or.inr hoverlooked

end Pass

section Sample

/-- The names of the samples. -/
def jumpNames : Environment :=
  { names := ["a", "b"] }

/-- `return a or b`, where the first value is kept by a jump to the return. -/
def orCode : List UInt8 :=
  [101, 0, 112, 6, 101, 1, 83, 0]

/-- The sum of a name and a call; a jump leads to the empty slot before the callee. -/
def slotCode : List UInt8 :=
  [101, 0, 2, 0, 101, 1, 171, 0, 23, 0, 112, 2]

/-- The return that a jump leads to is folded with the value of one of the two branches. -/
theorem crossing_orCode :
    ((annotate? .sample (decode .sample jumpNames false orCode).instructions).bind fun notes =>
        ((decode .sample jumpNames false orCode).instructions.zip notes)[3]?).map
      (fun p => (p.1.offset, p.1.isCache, p.1.isJumpTarget, ruleOf .sample p.1, p.2)) =
    some (6, false, true, some .returnValue,
      ⟨some "return b", some 4, some "return b"⟩) := by
  decide +kernel

/-- A jump leads to the empty slot that the call in a folded sum starts with. -/
theorem annotate_crossing_slotCode :
    ∃ notes i k note,
      annotate? .sample (decode .sample jumpNames false slotCode).instructions = some notes ∧
      (i, note) ∈ (decode .sample jumpNames false slotCode).instructions.zip notes ∧
      i.offset = 8 ∧ k.offset = 2 ∧ k.isJumpTarget = true ∧
      note = ⟨some "a + b()", some 0, some "a + b()"⟩ ∧
      ∃ m ∈ (decode .sample jumpNames false slotCode).instructions, m.offset ≤ 8 ∧
        Overlooks .sample (decode .sample jumpNames false slotCode).instructions notes m k := by
  have hsum : ((annotate? .sample (decode .sample jumpNames false slotCode).instructions).bind
      fun notes => ((decode .sample jumpNames false slotCode).instructions.zip notes)[4]?).map
      (fun p => (p.1.offset, ruleOf .sample p.1, p.2)) =
      some (8, some (.infixOp ⟨0⟩), ⟨some "a + b()", some 0, some "a + b()"⟩) := by
    decide +kernel
  have hslot : (decode .sample jumpNames false slotCode).instructions[1]?.map
      (fun k => (k.offset, k.isCache, k.isJumpTarget)) = some (2, false, true) := by
    decide +kernel
  obtain ⟨⟨i, note⟩, hsum, hfacts⟩ := Option.map_eq_some_iff.mp hsum
  obtain ⟨notes, hnotes, hi⟩ := Option.bind_eq_some_iff.mp hsum
  obtain ⟨k, hk, hkfacts⟩ := Option.map_eq_some_iff.mp hslot
  simp only [Prod.mk.injEq] at hfacts hkfacts
  obtain ⟨hoffset, hrule, rfl⟩ := hfacts
  obtain ⟨hkoffset, hkcache, htarget⟩ := hkfacts
  have hnote := List.mem_of_getElem? hi
  have hcrossing := annotate_crossing .sample jumpNames false slotCode hnotes hnote hrule (by simp)
    rfl (List.mem_of_getElem? hk) hkcache (by omega) htarget
  rw [hoffset] at hcrossing
  refine ⟨notes, i, k, _, hnotes, hnote, hoffset, hkoffset, htarget, rfl,
    hcrossing.resolve_left ?_⟩
  rintro ⟨rfl, _⟩
  omega

end Sample
end Fold
end Disassembler
