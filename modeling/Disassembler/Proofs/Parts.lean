import Disassembler.Proofs.Seen

/-!
# What a fold takes from the past

A fold puts its expression together from parts that lie one below the other at the end of the past:
values, the empty slots and the keyword names of calls, and what imports and functions are made
from.

**Input.**  A table, a past and an instruction that a rule folds.

**Results.**
* `Takes t past parts base`: the past ends with the parts, the top one first, and `base` is what was
  seen before all of them.  Only cache words lie between two parts.
* `Asked` says which parts each rule asks for, and `fold_gathers` that a rule that folds finds them
  and starts with the lowest.
-/

namespace Disassembler
namespace Fold

section Parts

/-- What a part is to a rule. -/
inductive Role where
  | value
  | slot
  | names
  | imported
  | constant
deriving DecidableEq, Repr

/-- A part of what a rule puts together. -/
structure Part where
  role : Role
  source : Noted
  first : Noted

/-- A value as a part. -/
def Part.ofValue (v : Value) : Part :=
  ⟨.value, v.source, v.first⟩

/-- The past ends with a part, before which something was seen. -/
inductive Ends (t : Table) (past : Past) : Part → Past → Prop
  | value {p : Noted} {rest : Past} {v : Value}
      (hskip : skipCaches past = p :: rest)
      (hvalue : valueAt t p rest = .ok v) :
      Ends t past (Part.ofValue v) v.before
  | slot {p : Noted} {rest : Past}
      (hskip : skipCaches past = p :: rest)
      (hslot : pushesNull p = true) :
      Ends t past ⟨.slot, p, p⟩ rest
  | names {p : Noted} {rest : Past} {keys : List Constant}
      (hskip : skipCaches past = p :: rest)
      (hkeys : p.instruction.value = .const (.tuple keys))
      (htarget : p.instruction.isJumpTarget = false) :
      Ends t past ⟨.names, p, p⟩ rest
  | imported {p : Noted} {rest : Past}
      (hskip : skipCaches past = p :: rest) :
      Ends t past ⟨.imported, p, (origin p rest).1⟩ (origin p rest).2
  | constant {p : Noted} {rest : Past} {c : Constant}
      (hskip : skipCaches past = p :: rest)
      (hconst : p.instruction.value = .const c) :
      Ends t past ⟨.constant, p, p⟩ rest

/-- The past ends with parts, the top one first, that lie above a base. -/
inductive Takes (t : Table) : Past → List Part → Past → Prop
  | nil (past : Past) :
      Takes t past [] past
  | cons {past mid base : Past} {x : Part} {parts : List Part}
      (hends : Ends t past x mid)
      (hrest : Takes t mid parts base) :
      Takes t past (x :: parts) base

variable {t : Table} {past mid base : Past} {x : Part} {parts lower : List Part}

/-- What was seen before a part lies below the instruction that it begins with. -/
theorem Ends.suffix
    (h : Ends t past x mid) :
    x.first :: mid <:+ past := by
  cases h with
  | value hskip hvalue =>
      exact (suffix_of_valueAt hvalue).trans (suffix_of_skipCaches hskip)
  | slot hskip | names hskip | constant hskip =>
      exact suffix_of_skipCaches hskip
  | imported hskip =>
      exact (origin_suffix _ _).trans (suffix_of_skipCaches hskip)

theorem Ends.takes
    (h : Ends t past x mid) :
    Takes t past [x] mid :=
  .cons h (.nil mid)

theorem Takes.append
    (h : Takes t past parts mid)
    (hmid : Takes t mid lower base) :
    Takes t past (parts ++ lower) base := by
  induction h with
  | nil =>
      exact hmid
  | cons hends _ ih =>
      exact .cons hends (ih hmid)

theorem Takes.suffix
    (h : Takes t past parts base) :
    base <:+ past := by
  induction h with
  | nil =>
      exact List.suffix_rfl
  | cons hends _ ih =>
      exact ih.trans ((List.suffix_cons _ _).trans hends.suffix)

/-- The offset that parts begin at, or that of the instruction itself when there are none. -/
def startOfParts (i : Instruction) (parts : List Part) : Nat :=
  (parts.getLast?.map fun x => x.first.instruction.offset).getD i.offset

theorem startOfParts_append_singleton
    (i : Instruction) (parts : List Part) (x : Part) :
    startOfParts i (parts ++ [x]) = x.first.instruction.offset := by
  simp [startOfParts]

/-- What lies above other parts does not change where they begin. -/
theorem startOfParts_cons
    (i : Instruction) (x : Part) {parts : List Part}
    (h : parts ≠ []) :
    startOfParts i (x :: parts) = startOfParts i parts := by
  rw [startOfParts, startOfParts, List.getLast?_cons_of_ne_nil h]

/-- Parts begin right above their base. -/
theorem Takes.place
    (h : Takes t past parts base)
    (hparts : parts ≠ []) (i : Instruction) :
    ∃ above q, past = above ++ q :: base ∧ q.instruction.offset = startOfParts i parts := by
  induction h with
  | nil =>
      exact absurd rfl hparts
  | @cons past mid base x parts hends hrest ih =>
      obtain ⟨above, hplace⟩ := hends.suffix
      cases parts with
      | nil =>
          cases hrest
          exact ⟨above, x.first, hplace.symm, rfl⟩
      | cons y parts =>
          obtain ⟨front, q, hmid, hq⟩ := ih (List.cons_ne_nil y parts)
          refine ⟨above ++ x.first :: front, q, ?_, ?_⟩
          · rw [← hplace, hmid]
            simp
          · rw [hq]
            simp [startOfParts]

end Parts

section Operands

variable {t : Table} {past : Past}

/-- The operands that are found are parts of the past, and those that were asked for unless one is
missing. -/
theorem operandsFrom_takes
    (t : Table) (past : Past) (n : Nat) :
    ∃ base, Takes t past ((operandsFrom t past n).values.map Part.ofValue) base ∧
      ((operandsFrom t past n).values.length ≤ n) ∧
      ((operandsFrom t past n).miss = none →
        base = (operandsFrom t past n).before ∧ (operandsFrom t past n).values.length = n) := by
  induction n generalizing past with
  | zero =>
      exact ⟨past, .nil past, Nat.le_refl 0, fun _ => ⟨rfl, rfl⟩⟩
  | succ n ih =>
      rw [operandsFrom]
      split
      · exact ⟨past, .nil past, Nat.zero_le _, fun h => by cases h⟩
      · rename_i p rest hskip
        split
        · exact ⟨past, .nil past, Nat.zero_le _, fun h => by cases h⟩
        · rename_i v hvalue
          obtain ⟨base, htakes, hle, hall⟩ := ih v.before
          refine ⟨base, .cons (.value hskip hvalue) htakes, Nat.succ_le_succ hle, ?_⟩
          intro hmiss
          obtain ⟨hbase, hlength⟩ := hall hmiss
          exact ⟨hbase, congrArg Nat.succ hlength⟩

/-- Parts that are all values, of some number. -/
def AreValues (n : Nat) (parts : List Part) : Prop :=
  parts.length = n ∧ ∀ x ∈ parts, x.role = .value

theorem areValues_map
    (vs : List Value) :
    AreValues vs.length (vs.map Part.ofValue) := by
  refine ⟨List.length_map .., ?_⟩
  intro x hx
  obtain ⟨v, _, rfl⟩ := List.mem_map.mp hx
  rfl

theorem start?_eq_startOfParts
    {ops : Operands} {start : Nat} (i : Instruction)
    (h : ops.start? = some start) :
    start = startOfParts i (ops.values.map Part.ofValue) := by
  rw [Operands.start?, Option.map_eq_some_iff] at h
  obtain ⟨v, hv, rfl⟩ := h
  simp only [startOfParts, List.getLast?_map, hv, Option.map_some, Option.getD_some]
  rfl

/-- The past ends with parts that an expression begins with. -/
def Gathers (t : Table) (past : Past) (i : Instruction) (start : Nat) (parts : List Part) : Prop :=
  (∃ base, Takes t past parts base) ∧ start = startOfParts i parts

/-- All operands that were asked for are parts. -/
theorem gathers_of_complete
    {n start : Nat} (i : Instruction)
    (hmiss : (operandsFrom t past n).miss = none)
    (hstart : (operandsFrom t past n).start? = some start) :
    ∃ parts, Gathers t past i start parts ∧ AreValues n parts := by
  obtain ⟨base, htakes, _, hall⟩ := operandsFrom_takes t past n
  have hvalues := areValues_map (operandsFrom t past n).values
  rw [(hall hmiss).2] at hvalues
  exact ⟨_, ⟨⟨base, htakes⟩, start?_eq_startOfParts i hstart⟩, hvalues⟩

end Operands

section Rules

variable {t : Table} {past : Past} {i : Instruction} {text : String} {start : Nat}

theorem gathers_of_value
    {p : Noted} {rest : Past} {v : Value}
    (hskip : skipCaches past = p :: rest)
    (hvalue : valueAt t p rest = .ok v) :
    ∃ parts, Gathers t past i v.start parts ∧ AreValues 1 parts :=
  ⟨[Part.ofValue v], ⟨⟨v.before, (Ends.value hskip hvalue).takes⟩, rfl⟩, areValues_map [v]⟩

theorem gathers_nothing :
    Gathers t past i i.offset [] :=
  ⟨⟨past, .nil past⟩, rfl⟩

theorem areValues_nil :
    AreValues 0 [] :=
  areValues_map []

theorem gathers_of_fromTemplate
    {n : Nat} {whole : String}
    (h : fromTemplate (operandsFrom t past n) whole = .folded text start) :
    ∃ parts, Gathers t past i start parts ∧ AreValues n parts := by
  unfold fromTemplate at h
  split at h
  · rename_i hmiss hstart
    cases h
    exact gathers_of_complete i hmiss hstart
  · cases h
  · cases h

theorem gathers_of_unaryFold
    {f : String → String}
    (h : unaryFold t past f = .folded text start) :
    ∃ parts, Gathers t past i start parts ∧ AreValues 1 parts := by
  unfold unaryFold at h
  split at h
  · cases h
  · rename_i hskip
    split at h
    · rename_i hvalue
      cases h
      exact gathers_of_value hskip hvalue
    · cases h
    · cases h

theorem gathers_of_duplicateFold
    (h : duplicateFold t past = .folded text start) :
    ∃ parts, Gathers t past i start parts ∧ AreValues 1 parts := by
  unfold duplicateFold at h
  split at h
  · cases h
  · split at h
    · cases h
    · exact gathers_of_unaryFold h

/-- A store is folded only where no jump leads to it. -/
theorem gathers_of_storeFold
    (h : storeFold t past i = .folded text start) :
    (∃ parts, Gathers t past i start parts ∧ AreValues 1 parts) ∧ i.isJumpTarget = false := by
  unfold storeFold at h
  split at h
  · cases h
  · rename_i htarget
    refine ⟨?_, by simpa using htarget⟩
    split at h
    · cases h
    · rename_i hskip
      split at h
      · cases h
      · split at h
        · cases h
        · rename_i hvalue
          have hparts := gathers_of_value (i := i) hskip hvalue
          simp only at h
          split at h
          · cases h
            exact hparts
          · cases h
            exact hparts

theorem gathers_of_attributeFold
    (h : attributeFold t past i = .folded text start) :
    ∃ parts, Gathers t past i start parts ∧ AreValues 1 parts := by
  unfold attributeFold at h
  split at h
  · cases h
  · rename_i hskip
    split at h
    · cases h
    · rename_i hvalue
      cases h
      exact gathers_of_value hskip hvalue

/-- Something was folded out of operands only if there was room for them. -/
theorem folded_of_withOperands
    {n : Nat} {outcome : Operands → Outcome}
    (h : withOperands t past n outcome = .folded text start) :
    outcome (operandsFrom t past n) = .folded text start := by
  unfold withOperands at h
  split at h
  · cases h
  · exact h

theorem gathers_of_allOf
    {n : Nat} {f : List String → String}
    (h : allOf t past n f = .folded text start) :
    ∃ parts, Gathers t past i start parts ∧ AreValues n parts := by
  replace h := folded_of_withOperands h
  split at h
  · rename_i hmiss hstart
    cases h
    exact gathers_of_complete i hmiss hstart
  · cases h

theorem gathers_of_sequenceFold
    {opening closing empty : String}
    (h : sequenceFold t past i opening closing empty = .folded text start) :
    ∃ n parts, i.arg = some n ∧ Gathers t past i start parts ∧ AreValues n parts := by
  unfold sequenceFold at h
  split at h
  · cases h
  · rename_i harg
    cases h
    exact ⟨0, [], harg, gathers_nothing, areValues_nil⟩
  · rename_i n _ harg
    obtain ⟨parts, hparts⟩ := gathers_of_allOf (i := i) h
    exact ⟨n, parts, harg, hparts⟩

theorem gathers_of_mapFold
    (h : mapFold t past i = .folded text start) :
    ∃ n parts, i.arg = some n ∧ Gathers t past i start parts ∧ AreValues (2 * n) parts := by
  unfold mapFold at h
  split at h
  · cases h
  · rename_i harg
    cases h
    exact ⟨0, [], harg, gathers_nothing, areValues_nil⟩
  · rename_i n _ harg
    obtain ⟨parts, hparts⟩ := gathers_of_allOf (i := i) h
    exact ⟨n, parts, harg, hparts⟩

theorem gathers_of_sliceFold
    (h : sliceFold t past i = .folded text start) :
    ∃ n parts, i.arg = some n ∧ Gathers t past i start parts ∧ AreValues n parts := by
  unfold sliceFold at h
  split at h
  · rename_i n harg
    split at h
    · obtain ⟨parts, hparts⟩ := gathers_of_allOf (i := i) h
      exact ⟨n, parts, harg, hparts⟩
    · cases h
  · cases h

theorem gathers_of_stringFold
    (h : stringFold t past i = .folded text start) :
    ∃ n parts, i.arg = some n ∧ Gathers t past i start parts ∧ AreValues n parts := by
  unfold stringFold at h
  split at h
  · cases h
  · rename_i harg
    cases h
    exact ⟨0, [], harg, gathers_nothing, areValues_nil⟩
  · rename_i n _ harg
    replace h := folded_of_withOperands h
    split at h
    · rename_i hmiss hstart
      cases h
      obtain ⟨parts, hparts⟩ := gathers_of_complete i hmiss hstart
      exact ⟨n, parts, harg, hparts⟩
    · cases h

/-- Values that were found in full are parts, also where no reason for a missing one is asked. -/
theorem gathers_of_values
    {n : Nat} (vs : List Value) {v : Value}
    (hvalues : (operandsFrom t past n).values = vs ++ [v]) :
    ∃ parts, Gathers t past i v.start parts ∧ AreValues (vs.length + 1) parts := by
  obtain ⟨base, htakes, _⟩ := operandsFrom_takes t past n
  rw [hvalues] at htakes
  refine ⟨_, ⟨⟨base, htakes⟩, ?_⟩, by simpa using areValues_map (vs ++ [v])⟩
  rw [List.map_append, List.map_singleton, startOfParts_append_singleton]
  rfl

theorem gathers_of_formatValueFold
    (h : formatValueFold t past i = .folded text start) :
    ∃ flags parts, i.arg = some flags ∧ Gathers t past i start parts ∧
      AreValues (1 + flags / 4 % 2) parts := by
  unfold formatValueFold at h
  split at h
  · cases h
  · rename_i flags harg
    dsimp only at h
    split at h
    · rename_i hformat
      split at h
      · rename_i format value hvalues
        cases h
        obtain ⟨parts, hparts⟩ := gathers_of_values (i := i) [format] hvalues
        exact ⟨flags, parts, harg, by simpa [hformat] using hparts⟩
      · cases h
    · rename_i hformat
      have hnone : flags / 4 % 2 = 0 := by omega
      split at h
      · rename_i value hvalues
        cases h
        obtain ⟨parts, hparts⟩ := gathers_of_values (i := i) [] hvalues
        exact ⟨flags, parts, harg, by simpa [hnone] using hparts⟩
      · cases h

theorem gathers_of_raiseFold
    (h : raiseFold t past i = .folded text start) :
    ∃ n parts, i.arg = some n ∧ Gathers t past i start parts ∧ AreValues n parts := by
  unfold raiseFold at h
  split at h
  · rename_i harg
    cases h
    exact ⟨0, [], harg, gathers_nothing, areValues_nil⟩
  · rename_i harg
    obtain ⟨parts, hparts⟩ := gathers_of_unaryFold (i := i) h
    exact ⟨1, parts, harg, hparts⟩
  · rename_i harg
    obtain ⟨parts, hparts⟩ := gathers_of_fromTemplate (i := i) h
    exact ⟨2, parts, harg, hparts⟩
  · cases h

/-- The keys of a map lie above its values. -/
theorem gathers_of_constKeyMapFold
    (h : constKeyMapFold t past i = .folded text start) :
    (i.arg = some 0 ∧ start = i.offset) ∨
      ∃ n x parts, i.arg = some n ∧ n ≠ 0 ∧ x.role = .names ∧ AreValues n parts ∧
        Gathers t past i start (x :: parts) := by
  unfold constKeyMapFold at h
  split at h
  · cases h
  · rename_i harg
    cases h
    exact Or.inl ⟨harg, rfl⟩
  · rename_i n hn harg
    right
    split at h
    · cases h
    · rename_i p rest hskip
      split at h
      · rename_i keys hkeys
        split at h
        · rename_i hguard
          obtain ⟨parts, ⟨⟨base, htakes⟩, hstart⟩, hvalues⟩ := gathers_of_allOf (i := i) h
          have hnonempty : parts ≠ [] := by
            intro hnil
            rw [hnil] at hvalues
            exact hn hvalues.1.symm
          refine ⟨n, ⟨.names, p, p⟩, parts, harg, hn, rfl, hvalues,
            ⟨base, .cons (.names hskip hkeys hguard.2) htakes⟩, ?_⟩
          rw [hstart, startOfParts_cons i _ hnonempty]
        · cases h
      · cases h

end Rules

section Calls

variable {t : Table} {past : Past} {i : Instruction} {text : String} {start : Nat}

/-- The parts of a call without its keyword names: the arguments, an empty slot that no jump leads
to, the callee, and an empty slot before it; the slots may be missing. -/
inductive IsCall (n : Nat) : List Part → Prop
  | intro {args upper lower : List Part} {callee : Part}
      (hargs : AreValues n args)
      (hupper : ∀ x ∈ upper, x.role = .slot ∧ x.source.instruction.isJumpTarget = false)
      (hcallee : callee.role = .value)
      (hlower : lower = [] ∨ ∃ x, lower = [x] ∧ x.role = .slot) :
      IsCall n (args ++ upper ++ callee :: lower)

/-- The callee lies at the end of the past, or below one empty slot there. -/
theorem takes_of_calleePlace
    {p : Noted} {rest : Past}
    (h : calleePlace past = p :: rest) :
    ∃ upper mid, Takes t past upper mid ∧ skipCaches mid = p :: rest ∧
      ∀ x ∈ upper, x.role = .slot ∧ x.source.instruction.isJumpTarget = false := by
  unfold calleePlace at h
  split at h
  · cases h
  · rename_i q below hskip
    split at h
    · rename_i hslot
      rw [Bool.and_eq_true, Bool.not_eq_true'] at hslot
      refine ⟨[⟨.slot, q, q⟩], below, (Ends.slot hskip hslot.1).takes, h, ?_⟩
      intro x hx
      rw [List.mem_singleton.mp hx]
      exact ⟨rfl, hslot.2⟩
    · exact ⟨[], past, .nil past, hskip.trans h, by simp⟩

/-- A call begins with its callee, or with an empty slot right before it. -/
theorem takes_of_callStart
    (t : Table) (callee : Value) :
    ∃ lower base, Takes t callee.before lower base ∧
      (lower = [] ∨ ∃ x, lower = [x] ∧ x.role = .slot) ∧
      callStart callee = startOfParts callee.first.instruction lower := by
  unfold callStart
  split
  · exact ⟨[], callee.before, .nil _, Or.inl rfl, rfl⟩
  · rename_i p rest hskip
    split
    · rename_i hslot
      rw [Bool.and_eq_true] at hslot
      exact ⟨[⟨.slot, p, p⟩], rest, (Ends.slot hskip hslot.1).takes, Or.inr ⟨_, rfl, rfl⟩, rfl⟩
    · exact ⟨[], callee.before, .nil _, Or.inl rfl, rfl⟩

theorem gathers_of_callFold
    {positional : Nat} {keywords : List String}
    (h : callFold t past positional keywords = .folded text start) :
    ∃ parts, Gathers t past i start parts ∧ IsCall (positional + keywords.length) parts := by
  simp only [callFold] at h
  replace h := folded_of_withOperands h
  split at h
  · rename_i hcomplete
    split at h
    · cases h
    · rename_i p rest hplace
      split at h
      · cases h
      · rename_i callee hvalue
        cases h
        have hmiss : (operandsFrom t past (positional + keywords.length)).miss = none := by
          simpa [Operands.complete] using hcomplete
        obtain ⟨base, hargs, _, hall⟩ := operandsFrom_takes t past (positional + keywords.length)
        obtain ⟨rfl, hlength⟩ := hall hmiss
        have hvalues := areValues_map (operandsFrom t past (positional + keywords.length)).values
        rw [hlength] at hvalues
        obtain ⟨upper, mid, hupper, hskip, hslots⟩ := takes_of_calleePlace (t := t) hplace
        obtain ⟨lower, base, hlower, hone, hstart⟩ := takes_of_callStart t callee
        have hcallee := Takes.cons (Ends.value hskip hvalue) hlower
        refine ⟨_, ⟨⟨base, (hargs.append hupper).append hcallee⟩, ?_⟩,
          .intro hvalues hslots rfl hone⟩
        rw [hstart]
        rcases hone with rfl | ⟨x, rfl, _⟩
        · rw [startOfParts_append_singleton]
          rfl
        · simp [startOfParts]
  · cases h

theorem IsCall.ne_nil
    {n : Nat} {parts : List Part}
    (h : IsCall n parts) :
    parts ≠ [] := by
  cases h
  simp

theorem gathers_of_keywordCallFold
    (h : keywordCallFold t past i = .folded text start) :
    ∃ n x parts, i.arg = some n ∧ x.role = .names ∧ IsCall n parts ∧
      Gathers t past i start (x :: parts) := by
  unfold keywordCallFold at h
  split at h
  · rename_i total p rest harg hskip
    split at h
    · rename_i items hitems
      split at h
      · rename_i keywords _
        split at h
        · rename_i hguard
          obtain ⟨parts, ⟨⟨base, htakes⟩, hstart⟩, hcall⟩ := gathers_of_callFold (i := i) h
          rw [Nat.sub_add_cancel hguard.2] at hcall
          refine ⟨total, ⟨.names, p, p⟩, parts, harg, rfl, hcall,
            ⟨base, .cons (.names hskip hitems hguard.1) htakes⟩, ?_⟩
          rw [hstart, startOfParts_cons i _ hcall.ne_nil]
        · cases h
      · cases h
    · cases h
  · cases h

end Calls

section Definitions

variable {t : Table} {past : Past} {i : Instruction} {text : String} {start : Nat}

theorem gathers_of_importFromFold
    (h : importFromFold t past i = .folded text start) :
    ∃ x, x.role = .imported ∧ Gathers t past i start [x] := by
  unfold importFromFold at h
  split at h
  · cases h
  · rename_i p rest hskip
    split at h
    · cases h
    · simp only at h
      split at h
      · cases h
      · cases h
        exact ⟨⟨.imported, p, (origin p rest).1⟩, rfl, ⟨_, (Ends.imported hskip).takes⟩, rfl⟩

theorem gathers_of_functionFold
    {n : Nat}
    (h : functionFold past n = .folded text start) :
    ∃ parts, parts.length ≤ n ∧ parts ≠ [] ∧ (∀ x ∈ parts, x.role = .constant) ∧
      Gathers t past i start parts := by
  induction n generalizing past with
  | zero =>
      cases h
  | succ n ih =>
      rw [functionFold] at h
      split at h
      · cases h
      · rename_i p rest hskip
        split at h
        · rename_i code hcode
          cases h
          refine ⟨[⟨.constant, p, p⟩], by simp, by simp, by simp, ?_⟩
          exact ⟨⟨rest, (Ends.constant hskip hcode).takes⟩, rfl⟩
        · rename_i c _ hconst
          obtain ⟨parts, hlength, hne, hroles, ⟨base, htakes⟩, hstart⟩ := ih h
          refine ⟨⟨.constant, p, p⟩ :: parts, Nat.succ_le_succ hlength, by simp, ?_,
            ⟨base, .cons (.constant hskip hconst) htakes⟩, ?_⟩
          · intro x hx
            rcases List.mem_cons.mp hx with rfl | hx
            · rfl
            · exact hroles x hx
          · rw [hstart, startOfParts_cons i _ hne]
        · cases h

end Definitions

section Shapes

/-- The number of values that a rule asks for, when it asks for nothing else. -/
def valueCount (i : Instruction) : FoldRule → Option Nat
  | .infixOp _ | .compare | .isOp | .containsOp | .binaryOp | .matMul | .subscript | .storeAttr =>
    some 2
  | .negate | .invert | .not | .positive | .returnValue | .dupTop | .store | .attr => some 1
  | .storeSubscr => some 3
  | .returnConst | .buildMapHint | .importName | .loadBuildClass => some 0
  | .buildList | .buildTuple | .buildSet | .buildSlice | .buildString | .raiseVarargs => i.arg
  | .buildMap => i.arg.map (2 * ·)
  | .formatValue => i.arg.map fun flags => 1 + flags / 4 % 2
  | _ => none

/-- The number of arguments of a call without keyword names. -/
def argumentCount (i : Instruction) : FoldRule → Option Nat
  | .callFunction | .callMethod | .call => i.arg
  | .callFunctionPacked => (i.arg.filter fun a => a / 256 % 256 == 0).map (· % 256)
  | _ => none

/-- The parts that a rule asks for. -/
inductive Asked (past : Past) (i : Instruction) : FoldRule → List Part → Prop
  | values {rule : FoldRule} {n : Nat} {parts : List Part}
      (hcount : valueCount i rule = some n)
      (hvalues : AreValues n parts) :
      Asked past i rule parts
  | keyless
      (harg : i.arg = some 0) :
      Asked past i .buildConstKeyMap []
  | keyed {n : Nat} {x : Part} {parts : List Part}
      (harg : i.arg = some n)
      (hn : n ≠ 0)
      (hnames : x.role = .names)
      (hvalues : AreValues n parts) :
      Asked past i .buildConstKeyMap (x :: parts)
  | call {rule : FoldRule} {n : Nat} {parts : List Part}
      (hcount : argumentCount i rule = some n)
      (hcall : IsCall n parts) :
      Asked past i rule parts
  | announcedCall {rule : FoldRule} {n : Nat} {x : Part} {parts : List Part}
      (hrule : rule = .callFunction ∨ rule = .callMethod ∨ rule = .call)
      (hannounced : followsKeywordNames past = true)
      (harg : i.arg = some n)
      (hnames : x.role = .names)
      (hcall : IsCall n parts) :
      Asked past i rule (x :: parts)
  | keywordCall {rule : FoldRule} {n : Nat} {x : Part} {parts : List Part}
      (hrule : rule = .callFunctionKw ∨ rule = .callKw)
      (harg : i.arg = some n)
      (hnames : x.role = .names)
      (hcall : IsCall n parts) :
      Asked past i rule (x :: parts)
  | imported {x : Part}
      (hrole : x.role = .imported) :
      Asked past i .importFrom [x]
  | function {rule : FoldRule} {parts : List Part}
      (hrule : rule = .makeFunction ∨ rule = .makeFunctionOld)
      (hlength : parts.length ≤ 3)
      (hroles : ∀ x ∈ parts, x.role = .constant) :
      Asked past i rule parts

variable {t : Table} {past : Past} {i : Instruction} {text : String} {start : Nat}

theorem asked_of_plainCallFold
    {rule : FoldRule}
    (hrule : rule = .callFunction ∨ rule = .callMethod ∨ rule = .call)
    (h : plainCallFold t past i = .folded text start) :
    ∃ parts, Gathers t past i start parts ∧ Asked past i rule parts := by
  unfold plainCallFold at h
  split at h
  · cases h
  · rename_i n harg
    split at h
    · rename_i hannounced
      obtain ⟨_, x, parts, harg, hnames, hcall, hgathers⟩ := gathers_of_keywordCallFold h
      exact ⟨x :: parts, hgathers, .announcedCall hrule hannounced harg hnames hcall⟩
    · obtain ⟨parts, hgathers, hcall⟩ := gathers_of_callFold (i := i) h
      refine ⟨parts, hgathers, .call ?_ hcall⟩
      rcases hrule with rfl | rfl | rfl <;> exact harg

theorem asked_of_packedCallFold
    (h : packedCallFold t past i = .folded text start) :
    ∃ parts, Gathers t past i start parts ∧ Asked past i .callFunctionPacked parts := by
  unfold packedCallFold at h
  split at h
  · cases h
  · rename_i arg harg
    split at h
    · rename_i hhigh
      obtain ⟨parts, hgathers, hcall⟩ := gathers_of_callFold (i := i) h
      have hcount : argumentCount i .callFunctionPacked = some (arg % 256) := by
        simp [argumentCount, harg, Option.filter, hhigh]
      exact ⟨parts, hgathers, .call hcount hcall⟩
    · cases h

/-- A rule that folds finds the parts that it asks for at the end of the past. -/
theorem fold_gathers
    {rule : FoldRule}
    (h : fold t past i rule = .folded text start) :
    ∃ parts, Gathers t past i start parts ∧ Asked past i rule parts := by
  cases rule with
  | infixOp | isOp | containsOp | matMul | subscript | storeAttr | storeSubscr =>
      obtain ⟨parts, hgathers, hvalues⟩ := gathers_of_fromTemplate (i := i) h
      exact ⟨parts, hgathers, .values rfl hvalues⟩
  | compare | binaryOp =>
      simp only [fold] at h
      split at h
      · obtain ⟨parts, hgathers, hvalues⟩ := gathers_of_fromTemplate (i := i) h
        exact ⟨parts, hgathers, .values rfl hvalues⟩
      · cases h
  | negate | invert | not | positive | returnValue =>
      simp only [fold] at h
      obtain ⟨parts, hgathers, hvalues⟩ := gathers_of_unaryFold (i := i) h
      exact ⟨parts, hgathers, .values rfl hvalues⟩
  | returnConst | buildMapHint | importName | loadBuildClass =>
      cases h
      exact ⟨[], gathers_nothing, .values rfl areValues_nil⟩
  | dupTop =>
      obtain ⟨parts, hgathers, hvalues⟩ := gathers_of_duplicateFold (i := i) h
      exact ⟨parts, hgathers, .values rfl hvalues⟩
  | store =>
      obtain ⟨⟨parts, hgathers, hvalues⟩, _⟩ := gathers_of_storeFold h
      exact ⟨parts, hgathers, .values rfl hvalues⟩
  | attr =>
      obtain ⟨parts, hgathers, hvalues⟩ := gathers_of_attributeFold h
      exact ⟨parts, hgathers, .values rfl hvalues⟩
  | buildList | buildTuple | buildSet =>
      obtain ⟨n, parts, harg, hgathers, hvalues⟩ := gathers_of_sequenceFold h
      exact ⟨parts, hgathers, .values harg hvalues⟩
  | buildMap =>
      obtain ⟨n, parts, harg, hgathers, hvalues⟩ := gathers_of_mapFold h
      exact ⟨parts, hgathers, .values (by simp [valueCount, harg]) hvalues⟩
  | buildConstKeyMap =>
      rcases gathers_of_constKeyMapFold h with ⟨harg, rfl⟩ |
        ⟨n, x, parts, harg, hn, hnames, hvalues, hgathers⟩
      · exact ⟨[], gathers_nothing, .keyless harg⟩
      · exact ⟨x :: parts, hgathers, .keyed harg hn hnames hvalues⟩
  | buildSlice =>
      obtain ⟨n, parts, harg, hgathers, hvalues⟩ := gathers_of_sliceFold h
      exact ⟨parts, hgathers, .values harg hvalues⟩
  | buildString =>
      obtain ⟨n, parts, harg, hgathers, hvalues⟩ := gathers_of_stringFold h
      exact ⟨parts, hgathers, .values harg hvalues⟩
  | formatValue =>
      obtain ⟨flags, parts, harg, hgathers, hvalues⟩ := gathers_of_formatValueFold h
      exact ⟨parts, hgathers, .values (by simp [valueCount, harg]) hvalues⟩
  | callFunction =>
      exact asked_of_plainCallFold (Or.inl rfl) h
  | callMethod =>
      exact asked_of_plainCallFold (Or.inr (Or.inl rfl)) h
  | call =>
      exact asked_of_plainCallFold (Or.inr (Or.inr rfl)) h
  | callFunctionPacked =>
      exact asked_of_packedCallFold h
  | callFunctionKw =>
      obtain ⟨n, x, parts, harg, hnames, hcall, hgathers⟩ := gathers_of_keywordCallFold h
      exact ⟨x :: parts, hgathers, .keywordCall (Or.inl rfl) harg hnames hcall⟩
  | callKw =>
      obtain ⟨n, x, parts, harg, hnames, hcall, hgathers⟩ := gathers_of_keywordCallFold h
      exact ⟨x :: parts, hgathers, .keywordCall (Or.inr rfl) harg hnames hcall⟩
  | importFrom =>
      obtain ⟨x, hrole, hgathers⟩ := gathers_of_importFromFold h
      exact ⟨[x], hgathers, .imported hrole⟩
  | makeFunction =>
      obtain ⟨parts, hlength, _, hroles, hgathers⟩ := gathers_of_functionFold h
      exact ⟨parts, hgathers, .function (Or.inl rfl) hlength hroles⟩
  | makeFunctionOld =>
      obtain ⟨parts, hlength, _, hroles, hgathers⟩ := gathers_of_functionFold h
      exact ⟨parts, hgathers, .function (Or.inr rfl) hlength hroles⟩
  | raiseVarargs =>
      obtain ⟨n, parts, harg, hgathers, hvalues⟩ := gathers_of_raiseFold h
      exact ⟨parts, hgathers, .values harg hvalues⟩

end Shapes
end Fold
end Disassembler
