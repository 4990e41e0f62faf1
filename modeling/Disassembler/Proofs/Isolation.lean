import Disassembler.Proofs.Room
import Disassembler.Proofs.Simulation
import Disassembler.Proofs.Source

/-!
# What a jump target holds stays there

Another branch may reach a jump target with another stack, so what its instruction holds says
nothing about the values below the instructions after it.

**Input.**  Instructions that differ in the operands of jump targets, and in nothing else.

**Results.**
* `Masked` relates two such instructions with their notes.  Folding cannot tell masked instructions
  apart (`unseen_masked`), since no rule but those of imports and definitions of functions looks
  into a jump target.
* `annotateFrom?_masked`: instructions that come after such pasts get the same notes.
* `annotate_isolated`: the operand of a jump target has no part in the note of another instruction.
  Only where there is no room for what it counts does it keep the others from their notes
  (`annotate_crowded_sumAfter`).
-/

namespace Disassembler
namespace Fold

section Masks

/-- The same instruction with the same note, or a jump target with another operand and any notes. -/
def Masked (p q : Noted) : Prop :=
  p = q ∨ p.instruction.isJumpTarget = true ∧ ∃ arg value repr,
    q.instruction = { p.instruction with arg := arg, value := value, repr := repr }

theorem Masked.alike
    {p q : Noted}
    (h : Masked p q) :
    Alike p q := by
  rcases h with rfl | ⟨_, arg, value, repr, hq⟩
  · exact ⟨rfl, rfl, rfl, rfl⟩
  · constructor <;> rw [hq]

theorem Masked.isCache_eq
    {p q : Noted}
    (h : Masked p q) :
    p.instruction.isCache = q.instruction.isCache := by
  rcases h with rfl | ⟨_, arg, value, repr, hq⟩
  · rfl
  · rw [hq]

theorem Masked.eq_of_not_target
    {p q : Noted}
    (h : Masked p q) (htarget : p.instruction.isJumpTarget = false) :
    p = q := by
  rcases h with rfl | ⟨hp, _⟩
  · rfl
  · rw [htarget] at hp
    cases hp

/-- Folding cannot tell masked instructions apart, since it takes nothing from a jump target. -/
theorem unseen_masked :
    Unseen Masked := by
  constructor
  case alike =>
    exact Masked.alike
  case isCache =>
    exact Masked.isCache_eq
  case content =>
    intro p q h htarget
    obtain rfl := h.eq_of_not_target htarget
    exact ⟨rfl, rfl, rfl, rfl⟩
  case start =>
    intro p q h htarget
    rw [h.eq_of_not_target htarget]

end Masks

section Pass

variable {t : Table}

/-- The note of an instruction after pasts of masked instructions is the same. -/
theorem noteOf?_masked
    {i : Instruction} {past past' : Past}
    (hi : (ruleOf t i).any readsTargets = false)
    (hpast : List.Forall₂ Masked past past') :
    noteOf? t past i = noteOf? t past' i := by
  unfold noteOf?
  cases hrule : ruleOf t i with
  | none =>
      rfl
  | some rule =>
      have hexact : readsTargets rule = true → Simulation.Exact (Pointwise Masked) := by
        intro hreads
        rw [hrule, Option.any_some, hreads] at hi
        cases hi
      simp only [fold_eq unseen_masked.simulation t i rule hexact hpast]

/-- Instructions that come after pasts of masked instructions get the same notes. -/
theorem annotateFrom?_masked
    {is : List Instruction} {past past' : Past}
    (hrules : ∀ i ∈ is, (ruleOf t i).any readsTargets = false)
    (hpast : List.Forall₂ Masked past past') :
    annotateFrom? t past is = annotateFrom? t past' is := by
  induction is generalizing past past' with
  | nil =>
      rfl
  | cons i rest ih =>
      rw [annotateFrom?_cons, annotateFrom?_cons, noteOf?_masked (hrules i List.mem_cons_self) hpast]
      congr 1
      funext note
      rw [ih (fun j hj => hrules j (List.mem_cons_of_mem i hj))
        (List.Forall₂.cons (Or.inl rfl) hpast)]

/-- Two lists that differ in one place agree in all others. -/
theorem getElem?_append_cons_of_ne
    {α : Type} {before after : List α} (x y : α) {k : Nat}
    (hk : k ≠ before.length) :
    (before ++ x :: after)[k]? = (before ++ y :: after)[k]? := by
  rcases Nat.lt_or_gt_of_ne hk with hlt | hgt
  · rw [List.getElem?_append_left hlt, List.getElem?_append_left hlt]
  · obtain ⟨m, hm⟩ : ∃ m, k - before.length = m + 1 := ⟨k - before.length - 1, by omega⟩
    rw [List.getElem?_append_right (Nat.le_of_lt hgt),
      List.getElem?_append_right (Nat.le_of_lt hgt), hm, List.getElem?_cons_succ,
      List.getElem?_cons_succ]

/-- The operand of a jump target has no part in the note of another instruction, if no import from
a module and no definition of a function comes after it.  With room for both operands, notes are
given for both or for neither. -/
theorem annotate_isolated
    {pre post : List Instruction} {j : Instruction}
    (htarget : j.isJumpTarget = true)
    (hrules : ∀ i ∈ post, (ruleOf t i).any readsTargets = false)
    (arg : Option Nat) (value : OperandValue) (repr : String)
    {k : Nat}
    (hk : k ≠ pre.length) :
    (∀ notes notes', annotate? t (pre ++ j :: post) = some notes →
      annotate? t (pre ++ { j with arg := arg, value := value, repr := repr } :: post) =
        some notes' →
      notes'[k]? = notes[k]?) ∧
    (HasRoom t j → HasRoom t { j with arg := arg, value := value, repr := repr } →
      (annotate? t (pre ++ { j with arg := arg, value := value, repr := repr } :: post)).map
          (fun notes => notes[k]?) =
        (annotate? t (pre ++ j :: post)).map fun notes => notes[k]?) := by
  generalize hj' : ({ j with arg := arg, value := value, repr := repr } : Instruction) = j'
  have hmasked : ∀ note note' : Note, Masked ⟨j, note⟩ ⟨j', note'⟩ :=
    fun _ _ => Or.inr ⟨htarget, arg, value, repr, hj'.symm⟩
  have hpre : List.Forall₂ Masked (seen t [] pre) (seen t [] pre) :=
    List.forall₂_same.mpr fun p _ => Or.inl rfl
  have hpost : ∀ note note' : Note,
      annotateFrom? t (⟨j, note⟩ :: seen t [] pre) post =
        annotateFrom? t (⟨j', note'⟩ :: seen t [] pre) post :=
    fun note note' => annotateFrom?_masked hrules (List.Forall₂.cons (hmasked note note') hpre)
  constructor
  · intro notes notes' hnotes hnotes'
    obtain ⟨before, note, after, hbefore, _, hafter, rfl⟩ :=
      annotateFrom?_append_cons_eq_some_iff.mp hnotes
    obtain ⟨before', note', after', hbefore', _, hafter', rfl⟩ :=
      annotateFrom?_append_cons_eq_some_iff.mp hnotes'
    rw [hbefore, Option.some.injEq] at hbefore'
    rw [← hpost note note', hafter, Option.some.injEq] at hafter'
    subst hbefore' hafter'
    rw [← length_of_annotateFrom? hbefore] at hk
    exact getElem?_append_cons_of_ne _ _ hk
  · intro hroom hroom'
    rw [annotate?, annotate?, annotateFrom?_append, annotateFrom?_append, annotateFrom?_cons,
      annotateFrom?_cons, noteOf?_of_hasRoom _ hroom, noteOf?_of_hasRoom _ hroom',
      Option.bind_some, Option.bind_some,
      hpost (noteOf t (seen t [] pre) j) (noteOf t (seen t [] pre) j')]
    cases hbefore : annotateFrom? t [] pre with
    | none =>
        rfl
    | some before =>
        rw [← length_of_annotateFrom? hbefore] at hk
        simp only [Option.bind_some, Option.map_map, Function.comp_def,
          getElem?_append_cons_of_ne _ (noteOf t (seen t [] pre) j) hk]

end Pass

section Sample

/-- A jump target whose operand is the length of a list. -/
def listOf (length : Nat) (repr : String) : Instruction :=
  { offset := 4, opcode := 103, opname := "BUILD_LIST", arg := some length, value := .int length
    repr := repr, hasArg := true, isJumpTarget := true }

def namesBefore : List Instruction :=
  [loadOf 0 "a", loadOf 2 "b"]

/-- A name and the sum of what comes before it and the name. -/
def sumAfter : List Instruction :=
  [loadOf 6 "c", sumOf 8]

/-- The note of the list depends on its length; the note of the sum does not. -/
theorem annotate_isolated_sumAfter :
    (annotate? .sample (namesBefore ++ listOf 2 "2" :: sumAfter)).map (fun notes => notes[2]?) =
      some (some ⟨some "[a, b]", some 0, some "[a, b]"⟩) ∧
    (annotate? .sample (namesBefore ++ listOf 1 "1" :: sumAfter)).map (fun notes => notes[2]?) =
      some (some ⟨some "[b]", some 2, some "[b]"⟩) ∧
    (annotate? .sample (namesBefore ++ listOf 2 "2" :: sumAfter)).map (fun notes => notes[4]?) =
      some (some ⟨none, none, some "... + c"⟩) ∧
    (annotate? .sample (namesBefore ++ listOf 1 "1" :: sumAfter)).map (fun notes => notes[4]?) =
      some (some ⟨none, none, some "... + c"⟩) := by
  have hsum : (annotate? .sample (namesBefore ++ listOf 2 "2" :: sumAfter)).map
      (fun notes => notes[4]?) = some (some ⟨none, none, some "... + c"⟩) := by
    decide +kernel
  have hrules : ∀ i ∈ sumAfter, (ruleOf .sample i).any readsTargets = false := by
    decide +kernel
  have hfour : 4 ≠ namesBefore.length := by
    decide
  have hroom : ∀ i ∈ [listOf 1 "1", listOf 2 "2"], HasRoom .sample i :=
    forall_hasRoom_of_isSmall (by decide)
  refine ⟨by decide +kernel, by decide +kernel, hsum, ?_⟩
  rw [← hsum]
  have hisolated := annotate_isolated (j := listOf 2 "2") rfl hrules (some 1) (.int 1) "1" hfour
  exact hisolated.2 (hroom _ (by simp)) (hroom _ List.mem_cons_self)

/-- A list of more values than there is room for keeps the sum after it from its note, which it has
with a list of two. -/
theorem annotate_crowded_sumAfter :
    (annotate? .sample (namesBefore ++ listOf 2 "2" :: sumAfter)).map (fun notes => notes[4]?) =
      some (some ⟨none, none, some "... + c"⟩) ∧
    annotate? .sample
      (namesBefore ++ listOf 1152921504606846976 "1152921504606846976" :: sumAfter) = none := by
  constructor <;> decide +kernel

end Sample
end Fold
end Disassembler
