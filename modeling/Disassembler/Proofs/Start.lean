import Disassembler.Proofs.Parts

/-!
# Where folded ranges start

**Input.**  A table and instructions that nothing was folded into before.

**Results.**
* A fold starts at an instruction that was seen, or at the folded instruction (`fold_start`), and so
  does every note of the pass (`start_of_noteOf`).
* `takes_of_noteOf`: the noted start of a folded instruction leads to what was seen before its
  parts.
* `everywhere_seen`: what a note keeps of the notes before it holds all through the pass.
-/

namespace Disassembler
namespace Fold

section Starts

variable {t : Table} {past : Past} {i : Instruction} {start : Nat}

/-- An offset of an instruction that was seen. -/
def SeenAt (past : Past) (offset : Nat) : Prop :=
  ∃ p ∈ past, p.instruction.offset = offset

/-- A fold starts at the folded instruction or at one that was seen before it. -/
theorem fold_start
    {rule : FoldRule} {text : String}
    (h : fold t past i rule = .folded text start) :
    start = i.offset ∨ SeenAt past start := by
  obtain ⟨parts, ⟨⟨base, htakes⟩, rfl⟩, _⟩ := fold_gathers h
  by_cases hparts : parts = []
  · subst hparts
    exact Or.inl rfl
  · obtain ⟨above, q, hplace, hq⟩ := htakes.place hparts i
    refine Or.inr ⟨q, ?_, hq⟩
    rw [hplace]
    exact List.mem_append_right above List.mem_cons_self

theorem eq_of_seed
    (h : seed t i = some start) :
    start = i.offset := by
  unfold seed at h
  split at h
  · split at h
    · cases h
      rfl
    · cases h
  · cases h

theorem seed_cases
    (t : Table) (i : Instruction) :
    seed t i = none ∨ seed t i = some i.offset := by
  cases hseed : seed t i with
  | none =>
      exact Or.inl rfl
  | some start =>
      rw [eq_of_seed hseed]
      exact Or.inr rfl

/-- The range of a note starts at its instruction or at one that was seen before it. -/
theorem start_of_noteOf
    (hfresh : i.expression = none)
    (h : (noteOf t past i).start = some start) :
    start = i.offset ∨ SeenAt past start := by
  simp only [noteOf_eq, hfresh] at h
  split at h
  · split at h
    · cases h
      exact Or.inl rfl
    · exact Or.inl (eq_of_seed h)
  · split at h
    · rename_i hfold
      cases h
      exact fold_start hfold
    · exact Or.inl (eq_of_seed h)
    · exact Or.inl (eq_of_seed h)
    · exact Or.inl (eq_of_seed h)

end Starts

section Notes

variable {t : Table} {past : Past} {i : Instruction}

/-- The noted start leads to what was seen before the parts. -/
theorem origin_of_takes
    {parts : List Part} {base : Past} {p : Noted}
    (hdescending : Descending (p :: past))
    (htakes : Takes t past parts base)
    (hstart : p.note.start = some (startOfParts p.instruction parts)) :
    (origin p past).2 = base := by
  by_cases hparts : parts = []
  · subst hparts
    cases htakes
    rw [origin_of_place hdescending (List.nil_append _).symm hstart]
  · obtain ⟨above, q, hplace, hq⟩ := htakes.place hparts p.instruction
    have hwhole : p :: past = (p :: above) ++ q :: base := by
      rw [hplace, List.cons_append]
    rw [← hq] at hstart
    rw [origin_of_place hdescending hwhole hstart]

/-- A note without parts starts nowhere or at its own instruction. -/
theorem origin_of_own
    {p : Noted}
    (hdescending : Descending (p :: past))
    (hstart : p.note.start = none ∨ p.note.start = some p.instruction.offset) :
    origin p past = (p, past) := by
  rcases hstart with hnone | hown
  · simp [origin, hnone]
  · exact origin_of_place hdescending (List.nil_append _).symm hown

/-- The note of an instruction that nothing was folded into before: it begins with itself, or its
rule has put parts together that it begins with. -/
theorem takes_of_noteOf
    (hfresh : i.expression = none)
    (hdescending : Descending (⟨i, noteOf t past i⟩ :: past)) :
    (origin ⟨i, noteOf t past i⟩ past = (⟨i, noteOf t past i⟩, past) ∧
      ((noteOf t past i).expression = none ∨ (ruleOf t i = none ∧ isLoad t i = true))) ∨
    ∃ rule parts, ruleOf t i = some rule ∧
      (noteOf t past i).start = some (startOfParts i parts) ∧
      Takes t past parts (origin ⟨i, noteOf t past i⟩ past).2 ∧ Asked past i rule parts := by
  cases hrule : ruleOf t i with
  | none =>
      left
      cases hload : isLoad t i with
      | true =>
          have hnote : noteOf t past i = ⟨some i.repr, some i.offset, none⟩ := by
            simp [noteOf_eq, hfresh, hrule, hload]
          exact ⟨origin_of_own hdescending (Or.inr (by simp [hnote])), Or.inr ⟨rfl, rfl⟩⟩
      | false =>
          have hnote : noteOf t past i = ⟨none, seed t i, none⟩ := by
            simp [noteOf_eq, hfresh, hrule, hload]
          refine ⟨origin_of_own hdescending ?_, Or.inl (by simp [hnote])⟩
          simpa [hnote] using seed_cases t i
  | some rule =>
      cases hfold : fold t past i rule with
      | folded text start =>
          right
          have hnote : noteOf t past i = ⟨some text, some start, some text⟩ := by
            simp [noteOf_eq, hfresh, hrule, hfold]
          obtain ⟨parts, ⟨⟨base, htakes⟩, rfl⟩, hasked⟩ := fold_gathers hfold
          have hstart : (noteOf t past i).start = some (startOfParts i parts) := by
            rw [hnote]
          rw [← origin_of_takes hdescending htakes hstart] at htakes
          exact ⟨rule, parts, rfl, hstart, htakes, hasked⟩
      | degraded text =>
          left
          have hnote : noteOf t past i = ⟨none, seed t i, some text⟩ := by
            simp [noteOf_eq, hfresh, hrule, hfold]
          refine ⟨origin_of_own hdescending ?_, Or.inl (by simp [hnote])⟩
          simpa [hnote] using seed_cases t i
      | declined | overflow =>
          left
          have hnote : noteOf t past i = ⟨none, seed t i, none⟩ := by
            simp [noteOf_eq, hfresh, hrule, hfold]
          refine ⟨origin_of_own hdescending ?_, Or.inl (by simp [hnote])⟩
          simpa [hnote] using seed_cases t i

end Notes

section Pass

variable {t : Table} {is : List Instruction} {P : Noted → Past → Prop}

/-- What each note of a pass keeps, given that all notes before it do, holds of all notes. -/
theorem everywhere_seen
    (hstep : ∀ i past, ⟨i, noteOf t past i⟩ :: past <:+ seen t [] is →
      (∀ q rest, q :: rest <:+ past → P q rest) → P ⟨i, noteOf t past i⟩ past) :
    ∀ q rest, q :: rest <:+ seen t [] is → P q rest := by
  suffices hall : ∀ (past : Past) (more : List Instruction),
      seen t past more <:+ seen t [] is → (∀ q rest, q :: rest <:+ past → P q rest) →
      ∀ q rest, q :: rest <:+ seen t past more → P q rest by
    refine hall [] is List.suffix_rfl ?_
    intro q rest hsuffix
    exact absurd (List.suffix_nil.mp hsuffix) (List.cons_ne_nil q rest)
  intro past more
  induction more generalizing past with
  | nil =>
      intro _ hpast
      exact hpast
  | cons i more ih =>
      intro hwhole hpast
      rw [seen_cons] at hwhole ⊢
      have hplace : ⟨i, noteOf t past i⟩ :: past <:+ seen t [] is :=
        (suffix_seen t _ more).trans hwhole
      refine ih _ hwhole ?_
      intro q rest hsuffix
      rcases List.suffix_cons_iff.mp hsuffix with heq | hsuffix
      · rw [List.cons.injEq] at heq
        obtain ⟨rfl, rfl⟩ := heq
        exact hstep i rest hplace hpast
      · exact hpast q rest hsuffix

/-- What was seen carries the note that the instructions before it give. -/
theorem note_eq_noteOf :
    ∀ q rest, q :: rest <:+ seen t [] is → q.note = noteOf t rest q.instruction :=
  everywhere_seen fun _ _ _ _ => rfl

/-- An instruction with its note was seen by the pass. -/
theorem mem_seen_iff
    {i : Instruction} {note : Note} :
    ⟨i, note⟩ ∈ seen t [] is ↔ (i, note) ∈ is.zip (annotate t is) := by
  have hzip : ∀ past : Past, ∀ more : List Instruction,
      ⟨i, note⟩ ∈ seen t past more ↔
        (i, note) ∈ more.zip (annotateFrom t past more) ∨ ⟨i, note⟩ ∈ past := by
    intro past more
    induction more generalizing past with
    | nil =>
        simp
    | cons j more ih =>
        rw [seen_cons, ih]
        simp [annotateFrom, or_assoc, or_left_comm]
  rw [hzip]
  simp [annotate]

/-- If the pass gives notes, what it has seen is the instructions with them, the last one first. -/
theorem seen_eq_of_annotate?
    {notes : List Note}
    (h : annotate? t is = some notes) :
    seen t [] is = (List.zipWith Noted.mk is notes).reverse := by
  have hzip : ∀ past : Past, ∀ more : List Instruction,
      seen t past more = (List.zipWith Noted.mk more (annotateFrom t past more)).reverse ++ past := by
    intro past more
    induction more generalizing past with
    | nil =>
        rfl
    | cons i more ih =>
        rw [seen_cons, ih]
        simp [annotateFrom]
  rw [hzip, List.append_nil, eq_annotate h, annotate]

theorem mem_of_mem_seen
    {p : Noted}
    (h : p ∈ seen t [] is) :
    p.instruction ∈ is := by
  have hmap : p.instruction ∈ (seen t [] is).map Noted.instruction :=
    List.mem_map_of_mem h
  rw [map_instruction_seen] at hmap
  simpa using hmap

theorem exists_seen
    {i : Instruction}
    (h : i ∈ is) :
    ∃ p ∈ seen t [] is, p.instruction = i := by
  have hmap : i ∈ (seen t [] is).map Noted.instruction := by
    rw [map_instruction_seen]
    simpa using h
  obtain ⟨p, hp, rfl⟩ := List.mem_map.mp hmap
  exact ⟨p, hp, rfl⟩

/-- The instructions stand the other way round in what was seen of them. -/
theorem exists_of_suffix_seen
    {past : Past}
    (h : past <:+ seen t [] is) :
    ∃ after, is = (past.map Noted.instruction).reverse ++ after := by
  obtain ⟨front, hfront⟩ := h
  have hmap := map_instruction_seen t [] is
  rw [← hfront, List.map_nil, List.append_nil] at hmap
  refine ⟨(front.map Noted.instruction).reverse, ?_⟩
  rw [← List.reverse_reverse is, ← hmap]
  simp

/-- The origin of a note stands at its start. -/
theorem offset_origin_seen
    (hdescending : Descending (seen t [] is))
    (hfresh : ∀ i ∈ is, i.expression = none) :
    ∀ q rest, q :: rest <:+ seen t [] is → ∀ start, q.note.start = some start →
      (origin q rest).1.instruction.offset = start := by
  refine everywhere_seen ?_
  intro i past hplace _ start hstart
  have hmem : i ∈ is := mem_of_mem_seen (hplace.subset List.mem_cons_self)
  have hnext : Descending (⟨i, noteOf t past i⟩ :: past) := hdescending.sublist hplace.sublist
  rcases start_of_noteOf (hfresh i hmem) hstart with rfl | ⟨q, hq, rfl⟩
  · rw [origin_of_own hnext (Or.inr hstart)]
  · obtain ⟨above, before, hplace⟩ := List.append_of_mem hq
    have hwhole : ⟨i, noteOf t past i⟩ :: past =
        (⟨i, noteOf t past i⟩ :: above) ++ q :: before := by
      rw [hplace, List.cons_append]
    rw [origin_of_place hnext hwhole hstart]

end Pass
end Fold
end Disassembler
