import Disassembler.Proofs.Effects
import Disassembler.Proofs.Faultless
import Disassembler.Proofs.Start

/-!
# The stack account of a fold

Folding takes every instruction with a text for one value on the stack.  Some leave two values or
none, some calls take an empty slot that nobody asks for, and keyword names need not lie on the
stack.  The surplus of an instruction says by how much it differs from what it is taken for.

**Input.**  The instructions of faultless bytecode without cache words, under a regular table.

**Results.**
* `surplus` is computed from the table and the instruction alone.
* `Settled t js past base n`: from `base` to `past` all stack effects are known, and less the
  surpluses they add up to `n`.
* `Takes.settled`: parts settle for what they are counted for.
* `settled_of_asked`: a folded instruction on top of its parts settles for one value.
-/

namespace Disassembler
namespace Fold

open Decode (Faultless Short TwoBytesAtMost)
open Stack (SmallCounts NeedsOperand TwoBytes pushed taken takes)

section Surplus

/-- The sum of what a function gives for instructions. -/
def total (f : Instruction → Int) : List Instruction → Int
  | [] => 0
  | j :: rest => f j + total f rest

/-- The instruction before another one, cache words apart, names the keywords of a call. -/
def announced (is : List Instruction) (j : Instruction) : Bool :=
  match (is.filter fun k => !k.isCache && decide (k.offset < j.offset)).getLast? with
  | some k => k.opname == "KW_NAMES"
  | none => false

/-- The values that an instruction stands for as the end of a part. -/
def counted (j : Instruction) : Int :=
  if j.opname = "PUSH_NULL" ∨ j.opname = "KW_NAMES" then 0 else 1

/-- The values that an instruction takes beside its parts: an empty slot next to the callee, keys
that are not asked for, or names that were announced and do not lie on the stack. -/
def unnoticed (t : Table) (named : Bool) (j : Instruction) : Int :=
  match ruleOf t j with
  | some .call | some .callMethod => 1
  | some .callKw => if named then 2 else 1
  | some .callFunctionKw => if named then 1 else 0
  | some .buildConstKeyMap => if named ∨ j.arg = some 0 then 1 else 0
  | _ => 0

/-- The values that an instruction leaves on the stack. -/
def leaves (t : Table) (j : Instruction) : Int :=
  match t.info j.opcode with
  | some info => pushed info j.arg
  | none => 0

/-- What an instruction leaves on the stack beyond what folding takes it for. -/
def surplus (t : Table) (is : List Instruction) (j : Instruction) : Int :=
  leaves t j - counted j - unnoticed t (announced is j) j

/-- The stack effect of an instruction, less its surplus. -/
def credit (t : Table) (is : List Instruction) (j : Instruction) : Int :=
  j.stackEffect.getD 0 - surplus t is j

theorem total_append
    (f : Instruction → Int) (xs ys : List Instruction) :
    total f (xs ++ ys) = total f xs + total f ys := by
  induction xs with
  | nil =>
      simp [total]
  | cons j xs ih =>
      simp only [List.cons_append, total, ih]
      omega

end Surplus

section Settled

/-- From a base to the past all stack effects are known, and less the surpluses they add up. -/
structure Settled (t : Table) (js : List Instruction) (past base : Past) (n : Int) : Prop where
  adds : total (credit t js) (past.map Noted.instruction) =
    total (credit t js) (base.map Noted.instruction) + n
  known : ∀ k ∈ past, k ∈ base ∨ k.instruction.stackEffect ≠ none

variable {t : Table} {js : List Instruction} {past mid base : Past} {m n : Int}

theorem Settled.refl
    (t : Table) (js : List Instruction) (past : Past) :
    Settled t js past past 0 :=
  ⟨(Int.add_zero _).symm, fun _ hk => Or.inl hk⟩

theorem Settled.trans
    (h : Settled t js past mid m)
    (hmid : Settled t js mid base n) :
    Settled t js past base (m + n) := by
  refine ⟨?_, ?_⟩
  · rw [h.adds, hmid.adds]
    omega
  · intro k hk
    rcases h.known k hk with hk | hknown
    · exact hmid.known k hk
    · exact Or.inr hknown

/-- One more instruction adds its credit. -/
theorem Settled.cons
    {p : Noted} {e : Int}
    (h : Settled t js past base n)
    (heffect : p.instruction.stackEffect = some e) :
    Settled t js (p :: past) base (credit t js p.instruction + n) := by
  refine ⟨?_, ?_⟩
  · simp only [List.map_cons, total, h.adds]
    omega
  · intro k hk
    rcases List.mem_cons.mp hk with rfl | hk
    · exact Or.inr (by simp [heffect])
    · exact h.known k hk

end Settled

section Instructions

/-- The instructions of faultless bytecode, without cache words and definitions, under a regular
table.  Names are few enough for every operand that names one to be a signed 64-bit number. -/
structure Clean (t : Table) (env : Environment) (js : List Instruction) : Prop where
  regular : Regular t
  names : env.names.length < 0x4000000000000000
  plain : ∀ j ∈ js, j.isCache = false
  fresh : ∀ j ∈ js, j.expression = none
  ascending : js.Pairwise fun i j => i.offset < j.offset
  faultless : ∀ j ∈ js, ∃ info, Faultless t env j info
  short : js.IsChain (Short t)
  values : ∀ j ∈ js, ∀ rule ∈ ruleOf t j, demand rule ≠ none

variable {t : Table} {env : Environment} {js : List Instruction} {j : Instruction} {info : OpInfo}

theorem ruleOf_eq
    (h : Faultless t env j info) :
    ruleOf t j = info.fold := by
  rw [ruleOf, h.known, Option.bind_some]

theorem Clean.exists_info
    (h : Clean t env js)
    (hj : j ∈ js) :
    ∃ info, Faultless t env j info ∧ RegularAt t j.opcode info := by
  obtain ⟨info, hfaultless⟩ := h.faultless j hj
  exact ⟨info, hfaultless, h.regular.1 _ _ hfaultless.known⟩

theorem Clean.demand_ne_none
    {rule : FoldRule}
    (h : Clean t env js)
    (hj : j ∈ js)
    (hfaultless : Faultless t env j info)
    (hrule : info.fold = some rule) :
    demand rule ≠ none :=
  h.values j hj rule ((ruleOf_eq hfaultless).trans hrule)

/-- What counts for one value. -/
theorem counted_of_value
    (hfaultless : Faultless t env j info)
    (hregular : RegularAt t j.opcode info)
    (h : info.fold ≠ none ∨ Loads t j.opcode info) :
    counted j = 1 := by
  have hnames := hregular.value h
  rw [← hfaultless.name] at hnames
  simp [counted, hnames]

/-- What leaves a value extends no operand. -/
theorem not_extension_of_value
    (hregular : RegularAt t j.opcode info)
    (h : info.fold ≠ none ∨ Loads t j.opcode info) :
    t.extendedArg ≠ some j.opcode := by
  intro hextension
  obtain ⟨hfold, hloads, _⟩ := hregular.extension hextension
  rcases h with h | h
  · exact h hfold
  · exact hloads h

theorem credit_eq
    (js : List Instruction)
    (hfaultless : Faultless t env j info)
    (heffect : j.stackEffect = some (pushed info j.arg - taken info j.arg)) :
    credit t js j = counted j + unnoticed t (announced js j) j - taken info j.arg := by
  have hleaves : leaves t j = pushed info j.arg := by
    rw [leaves, hfaultless.known]
  simp only [credit, surplus, heffect, Option.getD_some, hleaves]
  omega

/-- A rule that asks for nothing overlooks nothing. -/
theorem unnoticed_eq_zero
    (named : Bool)
    (h : ∀ rule ∈ ruleOf t j, demand rule = some (.inl 0)) :
    unnoticed t named j = 0 := by
  cases hrule : ruleOf t j with
  | none =>
      simp [unnoticed, hrule]
  | some rule =>
      have hzero := h rule hrule
      cases rule with
      | call | callMethod | callKw | callFunctionKw | buildConstKeyMap =>
          simp [demand] at hzero
      | _ =>
          simp [unnoticed, hrule]

/-- Opcodes that take nothing have a known effect, also for large operands. -/
theorem Clean.effect_of_leaf
    (h : Clean t env js)
    (hfaultless : Faultless t env j info)
    (hregular : RegularAt t j.opcode info)
    (hleaf : Leaf info ∨ FlaggedLoad t j.opcode info) :
    j.stackEffect = some (pushed info j.arg - taken info j.arg) ∧ taken info j.arg = 0 := by
  rw [hfaultless.effect]
  rcases hleaf with ⟨hrule, hpop, hpush⟩ | ⟨hrule, hencoding, hargument, hconst, hname⟩
  · have hbare : ¬ NeedsOperand info := by
      rintro (hstack | hneg | hneg)
      · exact hstack hrule
      · omega
      · omega
    refine ⟨Stack.stackEffect_eq hfaultless.known hregular.counts (fun hneeds => ?_), ?_⟩
    · exact absurd hneeds hbare
    · simp [taken, hrule, hpop, Stack.count]
  · obtain ⟨a, harg, hlt⟩ := hfaultless.lt_of_nullPush hargument hconst hname hencoding
    have hnames := h.names
    rw [harg]
    refine ⟨Stack.stackEffect_of_nullPushFlag hfaultless.known hrule (by omega), ?_⟩
    simp [taken, hrule]

/-- An instruction that takes nothing settles for what it is counted for. -/
theorem Clean.settled_of_leaf
    {p : Noted} (rest : Past)
    (h : Clean t env js)
    (hfaultless : Faultless t env p.instruction info)
    (hregular : RegularAt t p.instruction.opcode info)
    (hleaf : Leaf info ∨ FlaggedLoad t p.instruction.opcode info)
    (hrule : ∀ rule ∈ info.fold, demand rule = some (.inl 0)) :
    Settled t js (p :: rest) rest (counted p.instruction) := by
  obtain ⟨heffect, htaken⟩ := h.effect_of_leaf hfaultless hregular hleaf
  have hnone : unnoticed t (announced js p.instruction) p.instruction = 0 := by
    apply unnoticed_eq_zero
    rw [ruleOf_eq hfaultless]
    exact hrule
  have hsettled := (Settled.refl t js rest).cons heffect
  rw [credit_eq js hfaultless heffect, hnone, htaken] at hsettled
  simpa using hsettled

end Instructions

section Parts

variable {t : Table} {env : Environment} {js : List Instruction} {past mid base : Past} {x : Part}
  {parts : List Part}

/-- A folded instruction settles for one value, and so does a load. -/
def Balanced (t : Table) (js : List Instruction) (q : Noted) (rest : Past) : Prop :=
  q.note.expression ≠ none →
    Settled t js (q :: rest) (origin q rest).2 1 ∧
      ∀ info, t.info q.instruction.opcode = some info →
        info.fold ≠ none ∨ Loads t q.instruction.opcode info

/-- A part that is a value, an empty slot or keyword names. -/
def OnStack (x : Part) : Prop :=
  x.role = .value ∨ x.role = .slot ∨ x.role = .names

/-- What a part at the end of the past is worth. -/
structure Weighed (t : Table) (js : List Instruction) (past : Past) (x : Part) (mid : Past) :
    Prop where
  settled : Settled t js past mid (counted x.source.instruction)
  top : ∃ rest, past = x.source :: rest
  whole : t.extendedArg ≠ some x.source.instruction.opcode
  value : x.role = .value → counted x.source.instruction = 1
  slot : x.role = .slot → counted x.source.instruction = 0
  names : x.role = .names → x.source.instruction.opname ≠ "PUSH_NULL"

/-- There are no cache words to skip. -/
theorem Clean.eq_of_skipCaches
    {p : Noted} {rest : Past}
    (h : Clean t env js)
    (hplace : past <:+ seen t [] js)
    (hskip : skipCaches past = p :: rest) :
    past = p :: rest ∧ p.instruction ∈ js := by
  cases past with
  | nil =>
      cases hskip
  | cons q past =>
      have hmem : q.instruction ∈ js := mem_of_mem_seen (hplace.subset List.mem_cons_self)
      rw [skipCaches_cons past (h.plain _ hmem)] at hskip
      obtain ⟨rfl, rfl⟩ := List.cons.inj hskip
      exact ⟨rfl, hmem⟩

theorem Clean.settled_of_valueAt
    {p : Noted} {rest : Past} {v : Value}
    (h : Clean t env js)
    (hmem : p.instruction ∈ js)
    (hbalanced : Balanced t js p rest)
    (hvalue : valueAt t p rest = .ok v) :
    Settled t js (p :: rest) v.before 1 ∧ counted p.instruction = 1 ∧
      t.extendedArg ≠ some p.instruction.opcode := by
  obtain ⟨info, hfaultless, hregular⟩ := h.exists_info hmem
  unfold valueAt at hvalue
  split at hvalue
  · cases hvalue
  · split at hvalue
    · rename_i text htext
      cases hvalue
      obtain ⟨hsettled, hvalues⟩ := hbalanced (by simp [htext])
      have hcounts := hvalues info hfaultless.known
      exact ⟨hsettled, counted_of_value hfaultless hregular hcounts,
        not_extension_of_value hregular hcounts⟩
    · split at hvalue
      · rename_i hguard
        cases hvalue
        simp only [Bool.and_eq_true] at hguard
        have hleaf := And.intro hguard.1.1 hguard.2
        have hcounts := counted_of_value hfaultless hregular (Or.inr (Or.inr hleaf))
        have hrules : ∀ rule ∈ info.fold, demand rule = some (.inl 0) := by
          intro rule hrule
          exact (hregular.leaf hleaf rule hrule).resolve_left
            (h.demand_ne_none hmem hfaultless hrule)
        have hsettled := h.settled_of_leaf rest hfaultless hregular
          (hregular.load (Or.inr hleaf)) hrules
        rw [hcounts] at hsettled
        exact ⟨hsettled, hcounts, not_extension_of_value hregular (Or.inr (Or.inr hleaf))⟩
      · cases hvalue

/-- Values, empty slots and keyword names are worth what they are counted for. -/
theorem Ends.weighed
    (hclean : Clean t env js)
    (hplace : past <:+ seen t [] js)
    (hbalanced : ∀ q rest, q :: rest <:+ past → Balanced t js q rest)
    (honStack : OnStack x)
    (h : Ends t past x mid) :
    Weighed t js past x mid := by
  cases h with
  | @value p rest v hskip hvalue =>
      obtain ⟨rfl, hmem⟩ := hclean.eq_of_skipCaches hplace hskip
      have hsource := source_of_valueAt hvalue
      obtain ⟨hsettled, hcounts, hwhole⟩ :=
        hclean.settled_of_valueAt hmem (hbalanced p rest List.suffix_rfl) hvalue
      rw [← hcounts] at hsettled
      rw [← hsource] at hcounts hwhole hsettled ⊢
      exact ⟨hsettled, ⟨rest, rfl⟩, hwhole, fun _ => hcounts, by simp [Part.ofValue],
        by simp [Part.ofValue]⟩
  | @slot p rest hskip hslot =>
      obtain ⟨rfl, hmem⟩ := hclean.eq_of_skipCaches hplace hskip
      obtain ⟨info, hfaultless, hregular⟩ := hclean.exists_info hmem
      have hname : p.instruction.opname = "PUSH_NULL" := by
        simpa [pushesNull] using hslot
      have hinfo := hfaultless.name.symm.trans hname
      obtain ⟨hleaf, hfold⟩ := hregular.slot hinfo
      refine ⟨hclean.settled_of_leaf _ hfaultless hregular (Or.inl hleaf) (by simp [hfold]),
        ⟨_, rfl⟩, ?_, by simp, by simp [counted, hname], by simp⟩
      intro hextension
      exact (hregular.extension hextension).2.2.2 hinfo
  | @names p rest keys hskip hkeys _ =>
      obtain ⟨rfl, hmem⟩ := hclean.eq_of_skipCaches hplace hskip
      obtain ⟨info, hfaultless, hregular⟩ := hclean.exists_info hmem
      have hconst := hfaultless.is_const hkeys
      obtain ⟨hleaf, hname, hfold⟩ := hregular.const hconst
      have hrules : ∀ rule ∈ info.fold, demand rule = some (.inl 0) := by
        intro rule hrule
        rw [Option.mem_def] at hrule
        rcases hfold with hnone | hreturn
        · rw [hnone] at hrule
          cases hrule
        · rw [hreturn] at hrule
          cases hrule
          rfl
      refine ⟨hclean.settled_of_leaf _ hfaultless hregular (Or.inl hleaf) hrules,
        ⟨_, rfl⟩, ?_, by simp, by simp, fun _ => ?_⟩
      · intro hextension
        rw [(hregular.extension hextension).2.2.1] at hconst
        cases hconst
      · rw [hfaultless.name]
        exact hname
  | imported | constant =>
      simp [OnStack] at honStack

/-- What parts are counted for in all. -/
def worth : List Part → Int
  | [] => 0
  | x :: parts => counted x.source.instruction + worth parts

/-- Parts on the stack settle for what they are counted for. -/
theorem Takes.settled
    (hclean : Clean t env js)
    (hplace : past <:+ seen t [] js)
    (hbalanced : ∀ q rest, q :: rest <:+ past → Balanced t js q rest)
    (honStack : ∀ x ∈ parts, OnStack x)
    (h : Takes t past parts base) :
    Settled t js past base (worth parts) ∧
      ∀ x ∈ parts, (x.role = .value → counted x.source.instruction = 1) ∧
        (x.role = .slot → counted x.source.instruction = 0) := by
  induction h with
  | nil past =>
      exact ⟨Settled.refl t js past, by simp⟩
  | @cons past mid base x parts hends _ ih =>
      have hsuffix : mid <:+ past := (List.suffix_cons _ _).trans hends.suffix
      have hweighed := hends.weighed hclean hplace hbalanced (honStack x List.mem_cons_self)
      obtain ⟨hsettled, hcounts⟩ := ih (hsuffix.trans hplace)
        (fun q rest hq => hbalanced q rest (hq.trans hsuffix))
        (fun y hy => honStack y (List.mem_cons_of_mem x hy))
      refine ⟨hweighed.settled.trans hsettled, ?_⟩
      intro y hy
      rcases List.mem_cons.mp hy with rfl | hy
      · exact ⟨hweighed.value, hweighed.slot⟩
      · exact hcounts y hy

end Parts

section Rules

variable {t : Table} {env : Environment} {js : List Instruction} {past base : Past}
  {i : Instruction} {info : OpInfo} {rule : FoldRule} {parts : List Part}

/-- Values count for one each and empty slots for nothing. -/
def Counts (parts : List Part) : Prop :=
  ∀ x ∈ parts, (x.role = .value → counted x.source.instruction = 1) ∧
    (x.role = .slot → counted x.source.instruction = 0)

theorem worth_append
    (xs ys : List Part) :
    worth (xs ++ ys) = worth xs + worth ys := by
  induction xs with
  | nil =>
      simp [worth]
  | cons x xs ih =>
      simp only [List.cons_append, worth, ih]
      omega

theorem worth_of_areValues
    {n : Nat}
    (h : AreValues n parts)
    (hcounts : Counts parts) :
    worth parts = n := by
  induction parts generalizing n with
  | nil =>
      rw [← h.1]
      rfl
  | cons x parts ih =>
      have hrest : AreValues parts.length parts :=
        ⟨rfl, fun y hy => h.2 y (List.mem_cons_of_mem x hy)⟩
      have hone := (hcounts x List.mem_cons_self).1 (h.2 x List.mem_cons_self)
      rw [worth, hone, ih hrest (fun y hy => hcounts y (List.mem_cons_of_mem x hy)), ← h.1,
        List.length_cons]
      omega

theorem worth_of_slots
    (h : ∀ x ∈ parts, x.role = .slot)
    (hcounts : Counts parts) :
    worth parts = 0 := by
  induction parts with
  | nil =>
      rfl
  | cons x parts ih =>
      have hzero := (hcounts x List.mem_cons_self).2 (h x List.mem_cons_self)
      rw [worth, hzero, ih (fun y hy => h y (List.mem_cons_of_mem x hy))
        (fun y hy => hcounts y (List.mem_cons_of_mem x hy))]
      rfl

/-- The parts of a call are its arguments and its callee; empty slots do not count. -/
theorem worth_of_isCall
    {n : Nat}
    (h : IsCall n parts)
    (hcounts : Counts parts) :
    worth parts = n + 1 := by
  cases h with
  | @intro args upper lower callee hargs hupper hcallee hlower =>
      have hslots : ∀ x ∈ lower, x.role = .slot := by
        rcases hlower with rfl | ⟨y, rfl, hrole⟩
        · simp
        · simpa using hrole
      have hone := (hcounts callee (by simp)).1 hcallee
      rw [worth_append, worth_append, worth, hone,
        worth_of_areValues hargs (fun x hx => hcounts x (by simp [hx])),
        worth_of_slots (fun x hx => (hupper x hx).1) (fun x hx => hcounts x (by simp [hx])),
        worth_of_slots hslots (fun x hx => hcounts x (by simp [hx]))]
      omega

/-- In a clean listing the instruction before is the one seen last. -/
theorem Clean.announced_eq
    {p : Noted}
    (h : Clean t env js)
    (hplace : p :: past <:+ seen t [] js) :
    announced js p.instruction = followsKeywordNames past := by
  obtain ⟨after, hafter⟩ := exists_of_suffix_seen hplace
  have hjs : js = (past.map Noted.instruction).reverse ++ p.instruction :: after := by
    rw [hafter]
    simp
  have hascending := h.ascending
  rw [hjs, List.pairwise_append, List.pairwise_cons] at hascending
  obtain ⟨_, ⟨habove, _⟩, hbefore⟩ := hascending
  have hplain : ∀ q ∈ past, q.instruction.isCache = false := by
    intro q hq
    apply h.plain
    rw [hjs]
    exact List.mem_append_left _ (List.mem_reverse.mpr (List.mem_map_of_mem hq))
  have hfilter : js.filter (fun k => !k.isCache && decide (k.offset < p.instruction.offset)) =
      (past.map Noted.instruction).reverse := by
    nth_rewrite 1 [hjs]
    rw [List.filter_append, List.filter_eq_self.mpr, List.filter_eq_nil_iff.mpr, List.append_nil]
    · intro k hk
      rcases List.mem_cons.mp hk with rfl | hk
      · simp
      · have hlt := habove k hk
        simp only [Bool.and_eq_true, decide_eq_true_eq]
        omega
    · intro k hk
      have hlt := hbefore k hk p.instruction List.mem_cons_self
      obtain ⟨q, hq, rfl⟩ := List.mem_map.mp (List.mem_reverse.mp hk)
      simp [hplain q hq, hlt]
  rw [announced, hfilter, List.getLast?_reverse, followsKeywordNames]
  cases past with
  | nil =>
      rfl
  | cons q past =>
      rw [skipCaches_cons past (hplain q List.mem_cons_self)]
      rfl

/-- What the names above the other parts of a call or a map are counted for. -/
def NamesCount (past : Past) (x : Part) : Prop :=
  counted x.source.instruction = if followsKeywordNames past then 0 else 1

/-- An opcode takes what its parts are worth, and what it does not notice. -/
theorem taken_of_asked
    (hrule : ruleOf t i = some rule)
    (hdemand : demand rule = some (takes info))
    (hasked : Asked past i rule parts)
    (hcounts : Counts parts)
    (hnames : ∀ x ∈ parts.head?, x.role = .names → NamesCount past x) :
    taken info i.arg = worth parts + unnoticed t (followsKeywordNames past) i := by
  have hcount : ∀ c, demand rule = some (.inl c) →
      taken info i.arg = Stack.count c (i.arg.getD 0) := by
    intro c hc
    rw [hc, Option.some.injEq] at hdemand
    exact Stack.taken_of_count hdemand.symm
  have hstack : ∀ r, demand rule = some (.inr r) → info.stackRule = some r := by
    intro r hr
    rw [hr, Option.some.injEq] at hdemand
    exact Stack.stackRule_of_takes hdemand.symm
  cases hasked with
  | @values _ n _ hn hvalues =>
      rw [worth_of_areValues hvalues hcounts]
      cases rule with
      | infixOp | compare | isOp | containsOp | binaryOp | matMul | subscript | storeAttr | negate
      | invert | not | positive | returnValue | dupTop | store | attr | storeSubscr | returnConst
      | buildMapHint | loadBuildClass =>
          cases hn
          rw [hcount _ rfl]
          simp [Stack.count, unnoticed, hrule]
      | buildList | buildTuple | buildSet | buildSlice | buildString | raiseVarargs =>
          rw [hcount _ rfl, show i.arg = some n from hn]
          simp [Stack.count, unnoticed, hrule]
      | buildMap =>
          obtain ⟨a, harg, rfl⟩ := Option.map_eq_some_iff.mp hn
          simp [taken, hstack _ rfl, harg, unnoticed, hrule]
      | formatValue =>
          obtain ⟨a, harg, rfl⟩ := Option.map_eq_some_iff.mp hn
          simp [taken, hstack _ rfl, harg, unnoticed, hrule]
      | importName =>
          cases hdemand
      | _ =>
          cases hn
  | keyless harg =>
      rw [hcount _ rfl, harg]
      simp [Stack.count, worth, unnoticed, hrule, harg]
  | @keyed n x lower harg hn hrole hvalues =>
      have hx := hnames x rfl hrole
      have hlower := worth_of_areValues hvalues (fun y hy => hcounts y (List.mem_cons_of_mem x hy))
      rw [hcount _ rfl, harg, worth, hx, hlower]
      cases hannounced : followsKeywordNames past with
      | true =>
          simp [Stack.count, unnoticed, hrule]
      | false =>
          simp [Stack.count, unnoticed, hrule, harg, hn]
          omega
  | @call _ n _ hn hcall =>
      rw [worth_of_isCall hcall hcounts]
      cases rule with
      | callFunction =>
          rw [hcount _ rfl, show i.arg = some n from hn]
          simp [Stack.count, unnoticed, hrule]
      | callMethod | call =>
          rw [hcount _ rfl, show i.arg = some n from hn]
          simp [Stack.count, unnoticed, hrule]
          omega
      | callFunctionPacked =>
          obtain ⟨a, ha, rfl⟩ := Option.map_eq_some_iff.mp hn
          obtain ⟨harg, hhigh⟩ := Option.filter_eq_some_iff.mp ha
          have hhigh : a / 256 % 256 = 0 := by simpa using hhigh
          simp only [taken, hstack _ rfl, harg, Option.getD_some, unnoticed, hrule]
          omega
      | _ =>
          cases hn
  | @announcedCall _ n x lower hcalls hannounced harg hrole hcall =>
      have hx := hnames x rfl hrole
      have hlower := worth_of_isCall hcall (fun y hy => hcounts y (List.mem_cons_of_mem x hy))
      rw [NamesCount, hannounced] at hx
      rw [worth, hx, hlower]
      rcases hcalls with rfl | rfl | rfl
      · rw [hcount _ rfl, harg]
        simp [Stack.count, unnoticed, hrule]
      · rw [hcount _ rfl, harg]
        simp [Stack.count, unnoticed, hrule]
        omega
      · rw [hcount _ rfl, harg]
        simp [Stack.count, unnoticed, hrule]
        omega
  | @keywordCall _ n x lower hcalls harg hrole hcall =>
      have hx := hnames x rfl hrole
      have hlower := worth_of_isCall hcall (fun y hy => hcounts y (List.mem_cons_of_mem x hy))
      rw [worth, hx, hlower]
      rcases hcalls with rfl | rfl
      · rw [hcount _ rfl, harg]
        cases hannounced : followsKeywordNames past <;>
          simp [Stack.count, unnoticed, hrule] <;> omega
      · rw [hcount _ rfl, harg]
        cases hannounced : followsKeywordNames past <;>
          simp [Stack.count, unnoticed, hrule] <;> omega
  | imported =>
      cases hdemand
  | function hfunction =>
      rcases hfunction with rfl | rfl <;> cases hdemand

end Rules

section Folded

variable {t : Table} {env : Environment} {js : List Instruction} {past base : Past}
  {i : Instruction} {note : Note} {info : OpInfo} {rule : FoldRule} {parts : List Part}

theorem onStack_of_asked
    (h : Asked past i rule parts)
    (hdemand : demand rule ≠ none) :
    ∀ x ∈ parts, OnStack x := by
  have hvalue : ∀ {n : Nat} {lower : List Part}, AreValues n lower → ∀ x ∈ lower, OnStack x :=
    fun hvalues x hx => Or.inl (hvalues.2 x hx)
  have hcall : ∀ {n : Nat} {lower : List Part}, IsCall n lower → ∀ x ∈ lower, OnStack x := by
    intro n lower h
    cases h with
    | intro hargs hupper hcallee hlower =>
        intro x hx
        simp only [List.mem_append, List.mem_cons] at hx
        rcases hx with (hx | hx) | rfl | hx
        · exact hvalue hargs x hx
        · exact Or.inr (Or.inl (hupper x hx).1)
        · exact Or.inl hcallee
        · rcases hlower with rfl | ⟨y, rfl, hrole⟩
          · cases hx
          · rw [List.mem_singleton.mp hx]
            exact Or.inr (Or.inl hrole)
  cases h with
  | values _ hvalues =>
      exact hvalue hvalues
  | keyless =>
      simp
  | keyed _ _ hnames hvalues =>
      exact List.forall_mem_cons.mpr ⟨Or.inr (Or.inr hnames), hvalue hvalues⟩
  | call _ hparts =>
      exact hcall hparts
  | announcedCall _ _ _ hnames hparts =>
      exact List.forall_mem_cons.mpr ⟨Or.inr (Or.inr hnames), hcall hparts⟩
  | keywordCall _ _ hnames hparts =>
      exact List.forall_mem_cons.mpr ⟨Or.inr (Or.inr hnames), hcall hparts⟩
  | imported =>
      exact absurd rfl hdemand
  | function hfunction =>
      rcases hfunction with rfl | rfl <;> exact absurd rfl hdemand

/-- A rule without parts has nothing to take. -/
theorem arg_of_asked_nil
    (h : Asked past i rule [])
    (hdemand : demand rule ≠ none) :
    i.arg = some 0 ∨ demand rule = some (.inl 0) := by
  generalize hparts : ([] : List Part) = parts at h
  cases h with
  | @values _ n _ hn hvalues =>
      subst hparts
      obtain rfl : 0 = n := hvalues.1
      cases rule with
      | returnConst | buildMapHint | loadBuildClass =>
          exact Or.inr rfl
      | buildList | buildTuple | buildSet | buildSlice | buildString | raiseVarargs =>
          exact Or.inl hn
      | buildMap =>
          obtain ⟨a, harg, ha⟩ := Option.map_eq_some_iff.mp hn
          obtain rfl : a = 0 := by omega
          exact Or.inl harg
      | formatValue =>
          obtain ⟨a, harg, ha⟩ := Option.map_eq_some_iff.mp hn
          omega
      | importName =>
          exact absurd rfl hdemand
      | _ =>
          cases hn
  | keyless harg =>
      exact Or.inl harg
  | call _ hcall =>
      exact absurd hparts.symm hcall.ne_nil
  | keyed | announcedCall | keywordCall | imported =>
      cases hparts
  | function hfunction =>
      rcases hfunction with rfl | rfl <;> exact absurd rfl hdemand

theorem not_needsOperand_of_takes
    (h : takes info = .inl 0)
    (hpush : info.stackRule = none → 0 ≤ info.push) :
    ¬ NeedsOperand info := by
  unfold takes at h
  split at h
  · rename_i hrule
    have hpop : info.pop = 0 := Sum.inl.inj h
    have hnonneg := hpush hrule
    rintro (hstack | hneg | hneg)
    · exact hstack hrule
    · omega
    · omega
  · cases Sum.inl.inj h
  · cases h

/-- After an instruction that extends no operand comes one whose operand has two bytes. -/
theorem Clean.twoBytesAtMost
    {p q : Noted} {rest : Past}
    (h : Clean t env js)
    (hplace : p :: q :: rest <:+ seen t [] js)
    (hwhole : t.extendedArg ≠ some q.instruction.opcode) :
    TwoBytesAtMost p.instruction := by
  obtain ⟨after, hafter⟩ := exists_of_suffix_seen hplace
  have hjs : js = (rest.map Noted.instruction).reverse ++
      q.instruction :: p.instruction :: after := by
    rw [hafter]
    simp
  have hshort := h.short
  rw [hjs, List.isChain_append_cons_cons] at hshort
  exact hshort.2.1 hwhole

/-- Where an operand is needed it has two bytes. -/
theorem Clean.twoBytes_of_asked
    (h : Clean t env js)
    (hplace : ⟨i, note⟩ :: past <:+ seen t [] js)
    (hbalanced : ∀ q rest, q :: rest <:+ past → Balanced t js q rest)
    (hfaultless : Faultless t env i info)
    (hregular : RegularAt t i.opcode info)
    (hfold : info.fold = some rule)
    (hdemand : demand rule = some (takes info))
    (htakes : Takes t past parts base)
    (hasked : Asked past i rule parts)
    (hneeds : NeedsOperand info) :
    TwoBytes i.arg := by
  have hsome : demand rule ≠ none := by
    simp [hdemand]
  cases htakes with
  | nil =>
      rcases arg_of_asked_nil hasked hsome with harg | hzero
      · exact ⟨0, harg, by omega⟩
      · rw [hdemand, Option.some.injEq] at hzero
        exact absurd hneeds (not_needsOperand_of_takes hzero (hregular.folded rule hfold).2)
  | @cons _ mid _ x lower hends _ =>
      have hrest : past <:+ seen t [] js := (List.suffix_cons _ _).trans hplace
      have hweighed := hends.weighed h hrest hbalanced
        (onStack_of_asked hasked hsome x List.mem_cons_self)
      obtain ⟨rest, rfl⟩ := hweighed.top
      obtain ⟨a, _, _, harg, _⟩ := hfaultless.operand (hregular.operand hneeds)
      exact ⟨a, harg, h.twoBytesAtMost hplace hweighed.whole a harg⟩

/-- A folded instruction on top of its parts settles for one value. -/
theorem Clean.settled_of_asked
    (h : Clean t env js)
    (hplace : ⟨i, note⟩ :: past <:+ seen t [] js)
    (hbalanced : ∀ q rest, q :: rest <:+ past → Balanced t js q rest)
    (hrule : ruleOf t i = some rule)
    (htakes : Takes t past parts base)
    (hasked : Asked past i rule parts) :
    Settled t js (⟨i, note⟩ :: past) base 1 := by
  have hi : i ∈ js := mem_of_mem_seen (hplace.subset List.mem_cons_self)
  have hrest : past <:+ seen t [] js := (List.suffix_cons _ _).trans hplace
  obtain ⟨info, hfaultless, hregular⟩ := h.exists_info hi
  have hfold : info.fold = some rule := (ruleOf_eq hfaultless).symm.trans hrule
  have hsome := h.values i hi rule hrule
  have hdemand := (hregular.folded rule hfold).1.resolve_left hsome
  have honStack := onStack_of_asked hasked hsome
  obtain ⟨hsettled, hcounts⟩ := htakes.settled h hrest hbalanced honStack
  -- Names lie at the end of the past, so they are what the instruction before says.
  have hnames : ∀ x ∈ parts.head?, x.role = .names → NamesCount past x := by
    intro x hx hrole
    cases htakes with
    | nil =>
        cases hx
    | @cons _ mid _ y lower hends _ =>
        obtain rfl : y = x := Option.some.inj hx
        have hweighed := hends.weighed h hrest hbalanced (honStack y List.mem_cons_self)
        obtain ⟨rest, rfl⟩ := hweighed.top
        have hplain := h.plain _ (mem_of_mem_seen (hrest.subset List.mem_cons_self))
        rw [NamesCount, followsKeywordNames, skipCaches_cons rest hplain]
        simp [counted, hweighed.names hrole]
  have heffect : i.stackEffect = some (pushed info i.arg - taken info i.arg) := by
    rw [hfaultless.effect]
    exact Stack.stackEffect_eq hfaultless.known hregular.counts
      (h.twoBytes_of_asked hplace hbalanced hfaultless hregular hfold hdemand htakes hasked)
  have hcredit := credit_eq js hfaultless heffect
  rw [counted_of_value hfaultless hregular (Or.inl (by simp [hfold])),
    h.announced_eq hplace, taken_of_asked hrule hdemand hasked hcounts hnames] at hcredit
  have htop := hsettled.cons (p := ⟨i, note⟩) heffect
  rw [hcredit] at htop
  have hone : (1 : Int) + unnoticed t (followsKeywordNames past) i -
      (worth parts + unnoticed t (followsKeywordNames past) i) + worth parts = 1 := by
    omega
  rw [hone] at htop
  exact htop

end Folded
end Fold
end Disassembler
