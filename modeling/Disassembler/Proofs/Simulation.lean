import Disassembler.Proofs.Seen
import Mathlib.Data.List.Forall2

/-!
# Pasts that folding cannot tell apart

**Input.**  A relation between pasts and one between places in them.

**Results.**
* `Simulation R S` says what folding may read: at the ends of related pasts lie related places, and
  related places look alike.  What a jump target holds is only read under `Simulation.Exact`.
* Values, and operands below each other, are found alike in related pasts (`valueAt_alike`,
  `operandsFrom_alike`).
* A rule has the same outcome on related pasts (`fold_eq`).
* Pasts whose instructions are related one by one are such pasts, if the relation of instructions
  hides nothing that is read (`Unseen.simulation`, `Unseen.exact`).
-/

namespace Disassembler
namespace Fold

section Places

/-- Two instructions look alike: what is read of every instruction agrees. -/
structure Alike (p q : Noted) : Prop where
  offset : p.instruction.offset = q.instruction.offset
  opcode : p.instruction.opcode = q.instruction.opcode
  opname : p.instruction.opname = q.instruction.opname
  target : p.instruction.isJumpTarget = q.instruction.isJumpTarget

/-- Two instructions hold the same operand and leave the same expression. -/
structure SameContent (p q : Noted) : Prop where
  arg : p.instruction.arg = q.instruction.arg
  value : p.instruction.value = q.instruction.value
  repr : p.instruction.repr = q.instruction.repr
  expression : p.note.expression = q.note.expression

/-- Folding cannot tell related pasts apart, without a look into a jump target. -/
structure Simulation (R : Past → Past → Prop) (S : Noted → Past → Noted → Past → Prop) :
    Prop where
  -- Empty pasts are related.
  nil : R [] []
  -- Without their cache words, related pasts are empty or end with related places.
  top : ∀ {a b}, R a b →
    (skipCaches a = [] ∧ skipCaches b = []) ∨
      ∃ p rest q rest', skipCaches a = p :: rest ∧ skipCaches b = q :: rest' ∧ S p rest q rest'
  -- Related places are the ends of related pasts.
  whole : ∀ {p rest q rest'}, S p rest q rest' → R (p :: rest) (q :: rest')
  -- What comes before related places is related.
  rest : ∀ {p rest q rest'}, S p rest q rest' → R rest rest'
  -- Related places look alike.
  alike : ∀ {p rest q rest'}, S p rest q rest' → Alike p q
  -- Unless a jump leads there, they hold the same.
  content : ∀ {p rest q rest'}, S p rest q rest' →
    p.instruction.isJumpTarget = false → SameContent p q
  -- Unless a jump leads there, what contributes to their values begins alike.
  first : ∀ {p rest q rest'}, S p rest q rest' →
    p.instruction.isJumpTarget = false → Alike (origin p rest).1 (origin q rest').1
  -- Unless a jump leads there, what comes before that is related.
  before : ∀ {p rest q rest'}, S p rest q rest' →
    p.instruction.isJumpTarget = false → R (origin p rest).2 (origin q rest').2

/-- Related places also hold the same where a jump leads to them. -/
structure Simulation.Exact (S : Noted → Past → Noted → Past → Prop) : Prop where
  -- They hold the same.
  content : ∀ {p rest q rest'}, S p rest q rest' → SameContent p q
  -- What contributes to their values begins at related places.
  origin : ∀ {p rest q rest'}, S p rest q rest' →
    S (origin p rest).1 (origin p rest).2 (origin q rest').1 (origin q rest').2
  -- These lie before the places themselves, or are the places themselves.
  shorter : ∀ {p rest q rest'}, S p rest q rest' →
    ((Fold.origin p rest).2.length < rest.length ↔ (Fold.origin q rest').2.length < rest'.length)

end Places

section Values

variable {R : Past → Past → Prop} {S : Noted → Past → Noted → Past → Prop} (t : Table)

/-- Two values are the same to a rule. -/
structure ValueAlike (R : Past → Past → Prop) (v w : Value) : Prop where
  text : v.text = w.text
  grouped : v.grouped = w.grouped
  source : Alike v.source w.source
  content : SameContent v.source w.source
  first : Alike v.first w.first
  before : R v.before w.before

theorem Alike.ruleOf_eq
    {p q : Noted}
    (h : Alike p q) :
    ruleOf t p.instruction = ruleOf t q.instruction := by
  rw [ruleOf, ruleOf, h.opcode]

/-- The values of related places are the same to a rule, or missing for the same reason. -/
theorem valueAt_alike
    (hsim : Simulation R S)
    {p q : Noted} {rest rest' : Past}
    (h : S p rest q rest') :
    (∃ miss, valueAt t p rest = .error miss ∧ valueAt t q rest' = .error miss) ∨
      ∃ v w, valueAt t p rest = .ok v ∧ valueAt t q rest' = .ok w ∧ ValueAlike R v w := by
  have halike := hsim.alike h
  cases htarget : p.instruction.isJumpTarget with
  | true =>
      left
      refine ⟨.jumpTarget, ?_, ?_⟩
      · simp [valueAt, htarget]
      · simp [valueAt, ← halike.target, htarget]
  | false =>
      have hcontent := hsim.content h htarget
      have htarget' : q.instruction.isJumpTarget = false := by
        rw [← halike.target, htarget]
      simp only [valueAt, htarget, htarget', Bool.false_eq_true, if_false,
        ← hcontent.expression, ← hcontent.repr, ← halike.opcode, ← halike.ruleOf_eq t]
      cases p.note.expression with
      | some text =>
          right
          exact ⟨_, _, rfl, rfl, rfl, rfl, halike, hcontent, hsim.first h htarget,
            hsim.before h htarget⟩
      | none =>
          dsimp only
          split
          · right
            exact ⟨_, _, rfl, rfl, rfl, rfl, halike, hcontent, halike, hsim.rest h⟩
          · left
            exact ⟨_, rfl, rfl⟩

/-- Two lists of operands are the same to a rule. -/
structure OperandsAlike (R : Past → Past → Prop) (xs ys : Operands) : Prop where
  values : List.Forall₂ (ValueAlike R) xs.values ys.values
  miss : xs.miss = ys.miss
  before : R xs.before ys.before

/-- The operands found in related pasts are the same to a rule. -/
theorem operandsFrom_alike
    (hsim : Simulation R S)
    {past past' : Past} (n : Nat)
    (h : R past past') :
    OperandsAlike R (operandsFrom t past n) (operandsFrom t past' n) := by
  induction n generalizing past past' with
  | zero =>
      exact ⟨List.Forall₂.nil, rfl, h⟩
  | succ n ih =>
      rcases hsim.top h with ⟨ha, hb⟩ | ⟨p, rest, q, rest', ha, hb, hS⟩
      · simp only [operandsFrom, ha, hb]
        exact ⟨List.Forall₂.nil, rfl, hsim.nil⟩
      · rcases valueAt_alike t hsim hS with ⟨miss, hp, hq⟩ | ⟨v, w, hv, hw, hvw⟩
        · simp only [operandsFrom, ha, hb, hp, hq]
          exact ⟨List.Forall₂.nil, rfl, hsim.whole hS⟩
        · simp only [operandsFrom, ha, hb, hv, hw]
          have hmore := ih hvw.before
          exact ⟨List.Forall₂.cons hvw hmore.values, hmore.miss, hmore.before⟩

theorem ValueAlike.start_eq
    {v w : Value}
    (h : ValueAlike R v w) :
    v.start = w.start :=
  h.first.offset

theorem ValueAlike.operand_eq
    {v w : Value}
    (h : ValueAlike R v w) :
    v.operand = w.operand := by
  rw [Value.operand, Value.operand, h.text, h.grouped]

theorem ValueAlike.literal?_eq
    {v w : Value}
    (h : ValueAlike R v w) :
    literal? v = literal? w := by
  have hatom : v.isAtom = w.isAtom := by
    rw [Value.isAtom, Value.isAtom, h.start_eq, h.source.offset]
  rw [literal?, literal?, h.content.value, hatom]

theorem ValueAlike.piece_eq
    {v w : Value}
    (h : ValueAlike R v w) :
    piece t v = piece t w := by
  rw [piece, piece, h.literal?_eq, h.source.ruleOf_eq t, h.text]

theorem ValueAlike.formatText_eq
    {v w : Value}
    (h : ValueAlike R v w) :
    formatText v = formatText w := by
  rw [formatText, formatText, h.literal?_eq, h.text]

theorem ValueAlike.passesThrough_eq
    {v w : Value}
    (h : ValueAlike R v w) (target : String) :
    passesThrough t v.source target = passesThrough t w.source target := by
  have hchosen : chosenOperator v.source.instruction = chosenOperator w.source.instruction := by
    rw [chosenOperator, chosenOperator, h.content.arg]
  rw [passesThrough, passesThrough, h.source.ruleOf_eq t, hchosen, h.content.expression]

theorem map_eq_of_forall₂
    {α : Type} {g : Value → α} {vs ws : List Value}
    (hg : ∀ {v w}, ValueAlike R v w → g v = g w)
    (h : List.Forall₂ (ValueAlike R) vs ws) :
    vs.map g = ws.map g := by
  induction h with
  | nil =>
      rfl
  | cons hvw _ ih =>
      rw [List.map_cons, List.map_cons, hg hvw, ih]

/-- Operands that are the same to a rule have the same texts. -/
theorem OperandsAlike.texts_eq
    {xs ys : Operands} {g : Value → String}
    (h : OperandsAlike R xs ys)
    (hg : ∀ {v w}, ValueAlike R v w → g v = g w) (n : Nat) :
    xs.texts n g = ys.texts n g := by
  rw [Operands.texts, Operands.texts, map_eq_of_forall₂ hg h.values, h.values.length_eq]

theorem OperandsAlike.padded_eq
    {xs ys : Operands}
    (h : OperandsAlike R xs ys) (n : Nat) :
    xs.padded n = ys.padded n :=
  h.texts_eq ValueAlike.text n

theorem OperandsAlike.grouped_eq
    {xs ys : Operands}
    (h : OperandsAlike R xs ys) (n : Nat) :
    xs.grouped n = ys.grouped n :=
  h.texts_eq ValueAlike.operand_eq n

theorem OperandsAlike.start?_eq
    {xs ys : Operands}
    (h : OperandsAlike R xs ys) :
    xs.start? = ys.start? := by
  rw [Operands.start?, Operands.start?, ← List.getLast?_map, ← List.getLast?_map,
    map_eq_of_forall₂ ValueAlike.start_eq h.values]

theorem OperandsAlike.fromTemplate_eq
    {xs ys : Operands}
    (h : OperandsAlike R xs ys) (text : String) :
    fromTemplate xs text = fromTemplate ys text := by
  rw [fromTemplate, fromTemplate, h.miss, h.start?_eq]

end Values

section Rules

variable {R : Past → Past → Prop} {S : Noted → Past → Noted → Past → Prop}
variable (hsim : Simulation R S) (t : Table) (i : Instruction) {past past' : Past}
variable (h : R past past')

include hsim h

theorem infixFold_eq
    (symbol : String) :
    infixFold t past symbol = infixFold t past' symbol := by
  have hops := operandsFrom_alike t hsim 2 h
  rw [infixFold, infixFold, hops.grouped_eq, hops.fromTemplate_eq]

theorem subscriptFold_eq :
    subscriptFold t past = subscriptFold t past' := by
  have hops := operandsFrom_alike t hsim 2 h
  rw [subscriptFold, subscriptFold, hops.grouped_eq, hops.padded_eq, hops.fromTemplate_eq]

theorem unaryFold_eq
    (text : String → String) :
    unaryFold t past text = unaryFold t past' text := by
  rcases hsim.top h with ⟨ha, hb⟩ | ⟨p, rest, q, rest', ha, hb, hS⟩
  · rw [unaryFold, unaryFold, ha, hb]
  · rcases valueAt_alike t hsim hS with ⟨miss, hp, hq⟩ | ⟨v, w, hv, hw, hvw⟩
    · simp only [unaryFold, ha, hb, hp, hq]
    · simp only [unaryFold, ha, hb, hv, hw, hvw.text, hvw.start_eq]

theorem duplicateFold_eq :
    duplicateFold t past = duplicateFold t past' := by
  have hunary := unaryFold_eq hsim t h fun x => "push(" ++ x ++ ") "
  rcases hsim.top h with ⟨ha, hb⟩ | ⟨p, rest, q, rest', ha, hb, hS⟩
  · rw [duplicateFold, duplicateFold, ha, hb]
  · simp only [duplicateFold, ha, hb, hunary, (hsim.alike hS).opcode]

theorem storeFold_eq :
    storeFold t past i = storeFold t past' i := by
  rcases hsim.top h with ⟨ha, hb⟩ | ⟨p, rest, q, rest', ha, hb, hS⟩
  · rw [storeFold, storeFold, ha, hb]
  · rcases valueAt_alike t hsim hS with ⟨miss, hp, hq⟩ | ⟨v, w, hv, hw, hvw⟩
    · simp only [storeFold, ha, hb, hp, hq, (hsim.alike hS).opcode]
    · simp only [storeFold, ha, hb, hv, hw, (hsim.alike hS).opcode, hvw.text, hvw.start_eq,
        hvw.passesThrough_eq t]

theorem attributeFold_eq :
    attributeFold t past i = attributeFold t past' i := by
  rcases hsim.top h with ⟨ha, hb⟩ | ⟨p, rest, q, rest', ha, hb, hS⟩
  · rw [attributeFold, attributeFold, ha, hb]
  · rcases valueAt_alike t hsim hS with ⟨miss, hp, hq⟩ | ⟨v, w, hv, hw, hvw⟩
    · simp only [attributeFold, ha, hb, hp, hq]
    · simp only [attributeFold, ha, hb, hv, hw, hvw.operand_eq, hvw.start_eq]

theorem storeAttributeFold_eq :
    storeAttributeFold t past i = storeAttributeFold t past' i := by
  have hops := operandsFrom_alike t hsim 2 h
  rw [storeAttributeFold, storeAttributeFold, hops.grouped_eq, hops.fromTemplate_eq]

theorem storeSubscriptFold_eq :
    storeSubscriptFold t past = storeSubscriptFold t past' := by
  have hops := operandsFrom_alike t hsim 3 h
  rw [storeSubscriptFold, storeSubscriptFold, hops.grouped_eq, hops.fromTemplate_eq]

/-- Whether there is room for operands does not depend on what is found. -/
theorem withOperands_eq
    {n : Nat} {outcome : Operands → Outcome}
    (heq : OperandsAlike R (operandsFrom t past n) (operandsFrom t past' n) →
      outcome (operandsFrom t past n) = outcome (operandsFrom t past' n)) :
    withOperands t past n outcome = withOperands t past' n outcome := by
  rw [withOperands, withOperands, heq (operandsFrom_alike t hsim n h)]

theorem allOf_eq
    (n : Nat) (text : List String → String) :
    allOf t past n text = allOf t past' n text := by
  refine withOperands_eq hsim t h ?_
  intro hops
  simp only [hops.miss, hops.start?_eq, hops.padded_eq]

theorem sequenceFold_eq
    (opening closing empty : String) :
    sequenceFold t past i opening closing empty = sequenceFold t past' i opening closing empty := by
  simp only [sequenceFold, allOf_eq hsim t h]

theorem mapFold_eq :
    mapFold t past i = mapFold t past' i := by
  simp only [mapFold, allOf_eq hsim t h]

theorem sliceFold_eq :
    sliceFold t past i = sliceFold t past' i := by
  simp only [sliceFold, allOf_eq hsim t h]

theorem stringFold_eq :
    stringFold t past i = stringFold t past' i := by
  unfold stringFold
  split
  · rfl
  · rfl
  · refine withOperands_eq hsim t h ?_
    intro hops
    simp only [hops.miss, hops.start?_eq, List.map_reverse,
      map_eq_of_forall₂ (fun hvw => hvw.piece_eq t) hops.values]

theorem constKeyMapFold_eq :
    constKeyMapFold t past i = constKeyMapFold t past' i := by
  rcases hsim.top h with ⟨ha, hb⟩ | ⟨p, rest, q, rest', ha, hb, hS⟩
  · simp only [constKeyMapFold, ha, hb]
  · have htarget := (hsim.alike hS).target
    cases hp : p.instruction.isJumpTarget with
    | true =>
        -- The keys of a jump target are read, but nothing is made of them.
        rw [hp] at htarget
        simp only [constKeyMapFold, ha, hb, hp, ← htarget, Bool.true_eq_false, and_false, if_false]
        split
        · rfl
        · rfl
        · split <;> split <;> rfl
    | false =>
        simp only [constKeyMapFold, ha, hb, ← htarget, (hsim.content hS hp).value,
          allOf_eq hsim t (hsim.rest hS)]

theorem formatValueFold_eq :
    formatValueFold t past i = formatValueFold t past' i := by
  have htwo := (operandsFrom_alike t hsim 2 h).values
  have hone := (operandsFrom_alike t hsim 1 h).values
  unfold formatValueFold
  split
  · rfl
  · dsimp only
    split
    · generalize (operandsFrom t past 2).values = vs at htwo ⊢
      generalize (operandsFrom t past' 2).values = ws at htwo ⊢
      rcases htwo with _ | ⟨hformat, _ | ⟨hvalue, _ | _⟩⟩
      · rfl
      · rfl
      · simp only [hformat.formatText_eq, hvalue.text, hvalue.start_eq]
      · rfl
    · generalize (operandsFrom t past 1).values = vs at hone ⊢
      generalize (operandsFrom t past' 1).values = ws at hone ⊢
      rcases hone with _ | ⟨hvalue, _ | _⟩
      · rfl
      · simp only [hvalue.text, hvalue.start_eq]
      · rfl

/-- The callees below related pasts lie at related places. -/
theorem calleePlace_alike :
    (calleePlace past = [] ∧ calleePlace past' = []) ∨
      ∃ p rest q rest', calleePlace past = p :: rest ∧ calleePlace past' = q :: rest' ∧
        S p rest q rest' := by
  rcases hsim.top h with ⟨ha, hb⟩ | ⟨p, rest, q, rest', ha, hb, hS⟩
  · left
    simp only [calleePlace, ha, hb, and_self]
  · have halike := hsim.alike hS
    have hnull : pushesNull p = pushesNull q := by
      rw [pushesNull, pushesNull, halike.opname]
    simp only [calleePlace, ha, hb, hnull, halike.target]
    split
    · exact hsim.top (hsim.rest hS)
    · right
      exact ⟨p, rest, q, rest', rfl, rfl, hS⟩

omit h in
theorem callStart_eq
    {v w : Value}
    (hvw : ValueAlike R v w) :
    callStart v = callStart w := by
  rcases hsim.top hvw.before with ⟨ha, hb⟩ | ⟨p, rest, q, rest', ha, hb, hS⟩
  · simp only [callStart, ha, hb, hvw.start_eq]
  · have halike := hsim.alike hS
    have hnull : pushesNull p = pushesNull q := by
      rw [pushesNull, pushesNull, halike.opname]
    simp only [callStart, ha, hb, hnull, hvw.first.target, halike.offset, hvw.start_eq]

theorem callFold_eq
    (positional : Nat) (keywords : List String) :
    callFold t past positional keywords = callFold t past' positional keywords := by
  simp only [callFold]
  refine withOperands_eq hsim t h ?_
  intro hops
  rcases calleePlace_alike hsim hops.before with ⟨ha, hb⟩ | ⟨p, rest, q, rest', ha, hb, hS⟩
  · simp only [Operands.complete, hops.miss, ha, hb]
  · rcases valueAt_alike t hsim hS with ⟨miss, hp, hq⟩ | ⟨v, w, hv, hw, hvw⟩
    · simp only [Operands.complete, hops.miss, ha, hb, hp, hq]
    · simp only [Operands.complete, hops.miss, hops.padded_eq, ha, hb, hv, hw, hvw.text,
        callStart_eq hsim hvw]

theorem keywordCallFold_eq :
    keywordCallFold t past i = keywordCallFold t past' i := by
  cases harg : i.arg with
  | none =>
      simp only [keywordCallFold, harg]
  | some total =>
      rcases hsim.top h with ⟨ha, hb⟩ | ⟨p, rest, q, rest', ha, hb, hS⟩
      · simp only [keywordCallFold, harg, ha, hb]
      · have htarget := (hsim.alike hS).target
        cases hp : p.instruction.isJumpTarget with
        | true =>
            -- As for the keys of a map, the keywords of a jump target are read for nothing.
            rw [hp] at htarget
            simp only [keywordCallFold, harg, ha, hb, hp, ← htarget, Bool.true_eq_false, false_and,
              if_false]
            split <;> split <;> (try split) <;> (try split) <;> rfl
        | false =>
            simp only [keywordCallFold, harg, ha, hb, ← htarget, (hsim.content hS hp).value,
              callFold_eq hsim t (hsim.rest hS)]

theorem plainCallFold_eq :
    plainCallFold t past i = plainCallFold t past' i := by
  have hfollows : followsKeywordNames past = followsKeywordNames past' := by
    rcases hsim.top h with ⟨ha, hb⟩ | ⟨p, rest, q, rest', ha, hb, hS⟩
    · rw [followsKeywordNames, followsKeywordNames, ha, hb]
    · simp only [followsKeywordNames, ha, hb, (hsim.alike hS).opname]
  simp only [plainCallFold, hfollows, keywordCallFold_eq hsim t i h, callFold_eq hsim t h]

theorem packedCallFold_eq :
    packedCallFold t past i = packedCallFold t past' i := by
  simp only [packedCallFold, callFold_eq hsim t h]

theorem raiseFold_eq :
    raiseFold t past i = raiseFold t past' i := by
  have hops := operandsFrom_alike t hsim 2 h
  simp only [raiseFold, unaryFold_eq hsim t h, hops.grouped_eq, hops.fromTemplate_eq]

end Rules

section ExactRules

variable {R : Past → Past → Prop} {S : Noted → Past → Noted → Past → Prop}
variable (hsim : Simulation R S) (hexact : Simulation.Exact S) (t : Table) (i : Instruction)

include hsim hexact

/-- Chains of stores from related places go back to instructions that hold the same. -/
theorem importSource_alike
    {p q : Noted} {rest rest' : Past}
    (h : S p rest q rest') :
    (importSource t (p :: rest) = none ∧ importSource t (q :: rest') = none) ∨
      ∃ u v, importSource t (p :: rest) = some u ∧ importSource t (q :: rest') = some v ∧
        SameContent u v := by
  -- The chain is followed from the end of the past on, so the induction is on its length.
  induction hlength : rest.length using Nat.strongRecOn generalizing p q rest rest' with
  | _ n ih =>
      have hstore : t.is p.instruction.opcode .store = t.is q.instruction.opcode .store := by
        rw [(hsim.alike h).opcode]
      rw [importSource, importSource, ← hstore]
      split
      · simp only [← hexact.shorter h]
        split
        · rename_i hshorter
          exact ih _ (hlength ▸ hshorter) (hexact.origin h) rfl
        · left
          exact ⟨rfl, rfl⟩
      · right
        exact ⟨p, q, rfl, rfl, hexact.content h⟩

theorem importFromFold_eq
    {past past' : Past}
    (h : R past past') :
    importFromFold t past i = importFromFold t past' i := by
  rcases hsim.top h with ⟨ha, hb⟩ | ⟨p, rest, q, rest', ha, hb, hS⟩
  · rw [importFromFold, importFromFold, ha, hb]
  · have hfirst := hsim.alike (hexact.origin hS)
    rcases importSource_alike hsim hexact t hS with ⟨hp, hq⟩ | ⟨u, v, hu, hv, huv⟩
    · simp only [importFromFold, ha, hb, hp, hq]
    · simp only [importFromFold, ha, hb, hu, hv, huv.expression, huv.repr, hfirst.offset]

theorem functionFold_eq
    {past past' : Past} (n : Nat)
    (h : R past past') :
    functionFold past n = functionFold past' n := by
  induction n generalizing past past' with
  | zero =>
      rfl
  | succ n ih =>
      rcases hsim.top h with ⟨ha, hb⟩ | ⟨p, rest, q, rest', ha, hb, hS⟩
      · rw [functionFold, functionFold, ha, hb]
      · simp only [functionFold, ha, hb, (hexact.content hS).value, (hsim.alike hS).offset,
          ih (hsim.rest hS)]

end ExactRules

/-- The rule reads what a jump target holds. -/
def readsTargets : FoldRule → Bool
  | .importFrom | .makeFunction | .makeFunctionOld => true
  | _ => false

/-- A rule has the same outcome on related pasts. -/
theorem fold_eq
    {R : Past → Past → Prop} {S : Noted → Past → Noted → Past → Prop}
    (hsim : Simulation R S) (t : Table) (i : Instruction) (rule : FoldRule)
    (hexact : readsTargets rule = true → Simulation.Exact S)
    {past past' : Past}
    (h : R past past') :
    fold t past i rule = fold t past' i rule := by
  cases rule with
  | importFrom =>
      exact importFromFold_eq hsim (hexact rfl) t i h
  | makeFunction =>
      exact functionFold_eq hsim (hexact rfl) 3 h
  | makeFunctionOld =>
      exact functionFold_eq hsim (hexact rfl) 3 h
  | dupTop =>
      exact duplicateFold_eq hsim t h
  | store =>
      exact storeFold_eq hsim t i h
  | storeAttr =>
      exact storeAttributeFold_eq hsim t i h
  | storeSubscr =>
      exact storeSubscriptFold_eq hsim t h
  | attr =>
      exact attributeFold_eq hsim t i h
  | subscript =>
      exact subscriptFold_eq hsim t h
  | buildMap =>
      exact mapFold_eq hsim t i h
  | buildConstKeyMap =>
      exact constKeyMapFold_eq hsim t i h
  | buildSlice =>
      exact sliceFold_eq hsim t i h
  | buildString =>
      exact stringFold_eq hsim t i h
  | formatValue =>
      exact formatValueFold_eq hsim t i h
  | callFunctionPacked =>
      exact packedCallFold_eq hsim t i h
  | raiseVarargs =>
      exact raiseFold_eq hsim t i h
  | callFunction | callMethod | call =>
      exact plainCallFold_eq hsim t i h
  | callFunctionKw | callKw =>
      exact keywordCallFold_eq hsim t i h
  | buildList | buildTuple | buildSet =>
      exact sequenceFold_eq hsim t i h _ _ _
  | negate | invert | not | positive | returnValue =>
      simp only [fold, unaryFold_eq hsim t h]
  | infixOp | compare | isOp | containsOp | binaryOp | matMul =>
      simp only [fold, infixFold_eq hsim t h]
  | returnConst | buildMapHint | importName | loadBuildClass =>
      rfl

section Pointwise

/-- A relation between instructions that folding cannot see, unless it looks into a jump target. -/
structure Unseen (Q : Noted → Noted → Prop) : Prop where
  alike : ∀ {p q}, Q p q → Alike p q
  isCache : ∀ {p q}, Q p q → p.instruction.isCache = q.instruction.isCache
  content : ∀ {p q}, Q p q → p.instruction.isJumpTarget = false → SameContent p q
  start : ∀ {p q}, Q p q → p.instruction.isJumpTarget = false → p.note.start = q.note.start

/-- Related instructions after pasts of related instructions. -/
def Pointwise (Q : Noted → Noted → Prop) (p : Noted) (rest : Past) (q : Noted) (rest' : Past) :
    Prop :=
  Q p q ∧ List.Forall₂ Q rest rest'

variable {Q : Noted → Noted → Prop}

theorem forall₂_dropWhile
    {f : Noted → Bool} {past past' : Past}
    (hf : ∀ {p q}, Q p q → f p = f q)
    (h : List.Forall₂ Q past past') :
    List.Forall₂ Q (past.dropWhile f) (past'.dropWhile f) := by
  induction h with
  | nil =>
      exact List.Forall₂.nil
  | @cons p q rest rest' hpq hrest ih =>
      cases hp : f p with
      | true =>
          rw [List.dropWhile_cons_of_pos hp, List.dropWhile_cons_of_pos (by rw [← hf hpq, hp])]
          exact ih
      | false =>
          rw [List.dropWhile_cons_of_neg (by simp [hp]),
            List.dropWhile_cons_of_neg (by simp [← hf hpq, hp])]
          exact List.Forall₂.cons hpq hrest

/-- Where the same start is noted, what contributes to a value begins at related places. -/
theorem Unseen.origin
    (hQ : Unseen Q)
    {p q : Noted} {rest rest' : Past}
    (h : Pointwise Q p rest q rest')
    (hstart : p.note.start = q.note.start) :
    Pointwise Q (origin p rest).1 (origin p rest).2 (origin q rest').1 (origin q rest').2 := by
  obtain ⟨hpq, hrest⟩ := h
  unfold Fold.origin
  rw [← hstart]
  cases p.note.start with
  | none =>
      exact ⟨hpq, hrest⟩
  | some offset =>
      have hdrop := forall₂_dropWhile
        (f := fun r : Noted => r.instruction.offset != offset)
        (fun h => by rw [(hQ.alike h).offset]) (List.Forall₂.cons hpq hrest)
      dsimp only
      generalize (p :: rest).dropWhile (fun r => r.instruction.offset != offset) = xs at hdrop ⊢
      generalize (q :: rest').dropWhile (fun r => r.instruction.offset != offset) = ys at hdrop ⊢
      cases hdrop with
      | nil =>
          exact ⟨hpq, hrest⟩
      | cons hfirst hbefore =>
          exact ⟨hfirst, hbefore⟩

/-- Folding cannot tell pasts apart whose instructions are related one by one. -/
theorem Unseen.simulation
    (hQ : Unseen Q) :
    Simulation (List.Forall₂ Q) (Pointwise Q) := by
  constructor
  case nil =>
    exact List.Forall₂.nil
  case top =>
    intro a b hab
    have hdrop : List.Forall₂ Q (skipCaches a) (skipCaches b) := forall₂_dropWhile hQ.isCache hab
    generalize skipCaches a = xs at hdrop ⊢
    generalize skipCaches b = ys at hdrop ⊢
    cases hdrop with
    | nil =>
        exact Or.inl ⟨rfl, rfl⟩
    | cons hpq hrest =>
        exact Or.inr ⟨_, _, _, _, rfl, rfl, hpq, hrest⟩
  case whole =>
    rintro p rest q rest' ⟨hpq, hrest⟩
    exact List.Forall₂.cons hpq hrest
  case rest =>
    rintro p rest q rest' ⟨_, hrest⟩
    exact hrest
  case alike =>
    rintro p rest q rest' ⟨hpq, _⟩
    exact hQ.alike hpq
  case content =>
    rintro p rest q rest' ⟨hpq, _⟩
    exact hQ.content hpq
  case first =>
    intro p rest q rest' h htarget
    exact hQ.alike (hQ.origin h (hQ.start h.1 htarget)).1
  case before =>
    intro p rest q rest' h htarget
    exact (hQ.origin h (hQ.start h.1 htarget)).2

/-- They stay so for a look into a jump target, if the relation hides nothing there. -/
theorem Unseen.exact
    (hQ : Unseen Q)
    (hcontent : ∀ {p q}, Q p q → SameContent p q)
    (hstart : ∀ {p q}, Q p q → p.note.start = q.note.start) :
    Simulation.Exact (Pointwise Q) := by
  constructor
  case content =>
    rintro p rest q rest' ⟨hpq, _⟩
    exact hcontent hpq
  case origin =>
    intro p rest q rest' h
    exact hQ.origin h (hstart h.1)
  case shorter =>
    intro p rest q rest' h
    rw [(hQ.origin h (hstart h.1)).2.length_eq, h.2.length_eq]

end Pointwise
end Fold
end Disassembler
