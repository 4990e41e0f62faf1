import Disassembler.Disassembly.Listing
import Disassembler.Proofs.Simulation
import Disassembler.Proofs.Source

/-!
# Folding once more

An instruction that carries an expression keeps it.  So a second pass over instructions that the
notes of a first one were written into takes over every expression that was found, and finds no
other: the rest is folded from the same values as before.

**Input.**  Any table and instructions, which may carry expressions and starts of any kind.

**Results.**
* `Rewritten` relates an instruction to the same one in a second pass.  Folding cannot tell the two
  apart (`unseen_rewritten`, `exact_rewritten`).
* `noteOf?_again`: the second note of an instruction repeats its first one; only the text to be
  shown may be new, and that of an instruction without a rule, which is not shown.
* `repeated_annotateFrom?`: so do all notes of a pass.
* `applied_twice`: a second pass changes neither the instructions, nor what is noted about them, nor
  the extended listing.
-/

namespace Disassembler

/-- An instruction with what a note has found. -/
def Instruction.rewritten (i : Instruction) (note : Note) : Instruction :=
  { i with expression := note.expression, foldStart := note.start }

/-- An instruction without what was folded into it. -/
def Instruction.unfolded (i : Instruction) : Instruction :=
  { i with expression := none, foldStart := none }

/-- What is folded into an instruction. -/
def Instruction.finding (i : Instruction) : Option String × Option Nat :=
  (i.expression, i.foldStart)

/-- What a note says about the value of an instruction. -/
def Note.finding (note : Note) : Option String × Option Nat :=
  (note.expression, note.start)

namespace Fold

section Rewriting

/-- The same instruction with the same finding, after something was written into it. -/
def Rewritten (p q : Noted) : Prop :=
  (∃ note, q.instruction = p.instruction.rewritten note) ∧ q.note.finding = p.note.finding

theorem Rewritten.alike
    {p q : Noted}
    (h : Rewritten p q) :
    Alike p q ∧ p.instruction.isCache = q.instruction.isCache := by
  obtain ⟨⟨note, hq⟩, _⟩ := h
  rw [hq]
  exact ⟨by constructor <;> rw [hq] <;> rfl, rfl⟩

theorem Rewritten.sameContent
    {p q : Noted}
    (h : Rewritten p q) :
    SameContent p q := by
  obtain ⟨⟨note, hq⟩, hfinding⟩ := h
  have hexpression := congrArg Prod.fst hfinding
  exact ⟨by rw [hq]; rfl, by rw [hq]; rfl, by rw [hq]; rfl, hexpression.symm⟩

theorem Rewritten.start_eq
    {p q : Noted}
    (h : Rewritten p q) :
    p.note.start = q.note.start :=
  (congrArg Prod.snd h.2).symm

/-- Folding reads the notes on instructions, not what was written into them. -/
theorem unseen_rewritten :
    Unseen Rewritten := by
  constructor
  case alike =>
    exact fun h => h.alike.1
  case isCache =>
    exact fun h => h.alike.2
  case content =>
    exact fun h _ => h.sameContent
  case start =>
    exact fun h _ => h.start_eq

theorem exact_rewritten :
    Simulation.Exact (Pointwise Rewritten) :=
  unseen_rewritten.exact Rewritten.sameContent Rewritten.start_eq

variable (t : Table) {past past' : Past}

theorem fold_rewritten
    (hpast : List.Forall₂ Rewritten past past')
    (i : Instruction) (note : Note) (rule : FoldRule) :
    fold t past' (i.rewritten note) rule = fold t past i rule := by
  have hown : fold t past' (i.rewritten note) rule = fold t past' i rule := by
    cases rule <;> rfl
  rw [hown]
  exact (fold_eq unseen_rewritten.simulation t i rule (fun _ => exact_rewritten) hpast).symm

end Rewriting

section Passes

variable (t : Table)

/-- A second note repeats the first: it has the same finding, and the same text is to be shown if
the instruction has a rule. -/
structure Repeats (i : Instruction) (note again : Note) : Prop where
  finding : again.finding = note.finding
  display : ruleOf t i ≠ none → again.display = note.display

/-- The notes of a second pass repeat those of the first, one by one. -/
inductive Repeated : List Instruction → List Note → List Note → Prop
  | nil :
      Repeated [] [] []
  | cons {i : Instruction} {is : List Instruction} {note again : Note} {notes agains : List Note}
      (hfirst : Repeats t i note again)
      (hrest : Repeated is notes agains) :
      Repeated (i :: is) (note :: notes) (again :: agains)

variable {t} {past past' : Past} {i : Instruction} {note : Note}

/-- Where the first pass finds no expression, nothing was written into the instruction before. -/
theorem expression_of_noteOf?
    (h : noteOf? t past i = some note)
    (hnone : note.expression = none) :
    i.expression = none := by
  cases hexpression : i.expression with
  | none =>
      rfl
  | some text =>
      simp only [noteOf?, hexpression, Option.some.injEq] at h
      rw [← h] at hnone
      cases hnone

/-- The expression of an instruction with a rule is what is shown. -/
theorem display_of_noteOf?
    {text : String}
    (h : noteOf? t past i = some note)
    (hrule : ruleOf t i ≠ none)
    (hexpression : note.expression = some text) :
    note.display = some text := by
  unfold noteOf? at h
  split at h
  · cases h
    exact hexpression
  · split at h
    · rename_i hnone
      exact absurd hnone hrule
    · split at h
      · cases h
        exact hexpression
      · cases h
        cases hexpression
      · cases h
        cases hexpression
      · cases h

/-- Without an expression to take over, the second note is made as the first was. -/
theorem noteOf?_rewritten
    (hpast : List.Forall₂ Rewritten past past')
    (hnote : note.expression = none)
    (hexpression : i.expression = none) :
    noteOf? t past' (i.rewritten note) = noteOf? t past i := by
  have hwritten : (i.rewritten note).expression = none := hnote
  have hrule : ruleOf t (i.rewritten note) = ruleOf t i := rfl
  simp only [noteOf?, hwritten, hexpression, hrule, fold_rewritten t hpast]
  rfl

/-- An expression that an instruction carries is taken over. -/
theorem noteOf?_of_expression
    {text : String}
    (h : i.expression = some text) :
    noteOf? t past i = some ⟨some text, i.foldStart, some text⟩ := by
  simp only [noteOf?, h]

/-- The second note of an instruction repeats its first one. -/
theorem noteOf?_again
    (hpast : List.Forall₂ Rewritten past past')
    (h : noteOf? t past i = some note) :
    ∃ again, noteOf? t past' (i.rewritten note) = some again ∧ Repeats t i note again := by
  cases hfound : note.expression with
  | some text =>
      -- The second pass takes over what was found, without a look at the past.
      have hwritten : (i.rewritten note).expression = some text := hfound
      refine ⟨_, noteOf?_of_expression hwritten, ?_, ?_⟩
      · rw [Note.finding, Note.finding, hfound]
        rfl
      · intro hrule
        exact (display_of_noteOf? h hrule hfound).symm
  | none =>
      rw [noteOf?_rewritten hpast hfound (expression_of_noteOf? h hfound)]
      exact ⟨note, h, rfl, fun _ => rfl⟩

/-- The notes of a second pass repeat those of the first. -/
theorem repeated_annotateFrom?
    {is : List Instruction} {notes : List Note}
    (hpast : List.Forall₂ Rewritten past past')
    (h : annotateFrom? t past is = some notes) :
    ∃ agains, annotateFrom? t past' (applyNotes is notes) = some agains ∧
      Repeated t is notes agains := by
  induction is generalizing past past' notes with
  | nil =>
      cases h
      exact ⟨[], rfl, .nil⟩
  | cons i rest ih =>
      rw [annotateFrom?_cons, Option.bind_eq_some_iff] at h
      obtain ⟨note, hnote, hrest⟩ := h
      obtain ⟨more, hmore, rfl⟩ := Option.map_eq_some_iff.mp hrest
      obtain ⟨again, hagain, hrepeats⟩ := noteOf?_again hpast hnote
      have hnext : List.Forall₂ Rewritten (⟨i, note⟩ :: past) (⟨i.rewritten note, again⟩ :: past') :=
        List.Forall₂.cons ⟨⟨note, rfl⟩, hrepeats.finding⟩ hpast
      obtain ⟨agains, hagains, hrepeated⟩ := ih hnext hmore
      refine ⟨again :: agains, ?_, .cons hrepeats hrepeated⟩
      have hwhole : applyNotes (i :: rest) (note :: more) =
          i.rewritten note :: applyNotes rest more := rfl
      rw [hwhole, annotateFrom?_cons, hagain, Option.bind_some, hagains]
      rfl

end Passes
end Fold

section Writing

variable {t : Table} {is : List Instruction} {notes agains : List Note}

open Fold (Repeated)

theorem Fold.Repeated.map_finding
    (h : Repeated t is notes agains) :
    agains.map Note.finding = notes.map Note.finding := by
  induction h with
  | nil =>
      rfl
  | cons hfirst _ ih =>
      rw [List.map_cons, List.map_cons, hfirst.finding, ih]

/-- Notes that repeat those written into instructions change nothing more. -/
theorem Fold.Repeated.applyNotes_eq
    (h : Repeated t is notes agains) :
    applyNotes (applyNotes is notes) agains = applyNotes is notes := by
  induction h with
  | nil =>
      rfl
  | @cons i is note again notes agains hfirst _ ih =>
      have hfinding := Prod.mk.inj hfirst.finding
      simp only [applyNotes, List.zipWith_cons_cons] at ih ⊢
      rw [ih, hfinding.1, hfinding.2]

/-- Writing notes into instructions changes nothing but what is folded into them. -/
theorem Fold.Repeated.map_unfolded
    (h : Repeated t is notes agains) :
    (applyNotes is notes).map Instruction.unfolded = is.map Instruction.unfolded := by
  induction h with
  | nil =>
      rfl
  | cons _ _ ih =>
      simp only [applyNotes, List.zipWith_cons_cons, List.map_cons, List.cons.injEq] at ih ⊢
      exact ⟨rfl, ih⟩

/-- Written into instructions, the findings of notes are what is folded into these. -/
theorem Fold.Repeated.map_finding_applyNotes
    (h : Repeated t is notes agains) :
    (applyNotes is notes).map Instruction.finding = notes.map Note.finding := by
  induction h with
  | nil =>
      rfl
  | cons _ _ ih =>
      simp only [applyNotes, List.zipWith_cons_cons, List.map_cons, List.cons.injEq] at ih ⊢
      exact ⟨rfl, ih⟩

end Writing

namespace Listing

section Texts

variable {t : Table}

open Fold (Repeats Repeated)

/-- A repeated note is shown as the first one: without a rule none is. -/
theorem extendedText_of_repeats
    {i : Instruction} {note again : Note}
    (h : Repeats t i note again) :
    extendedText t i again = extendedText t i note := by
  by_cases hrule : Fold.ruleOf t i = none
  · have hnone : ∀ shown, extendedText t i shown = none := by
      intro shown
      unfold extendedText
      split
      · rename_i info _ hinfo
        have hfold : info.fold = none := by
          simpa only [Fold.ruleOf, hinfo, Option.bind_some] using hrule
        simp only [hfold, Option.isSome_none, Bool.false_eq_true, if_false]
      · rfl
    rw [hnone, hnone]
  · simp only [extendedText, h.display hrule]

/-- Repeated notes give the same lines as the first ones, also in disassemblies that differ where no
line looks. -/
theorem instructionLines_of_repeated
    {is : List Instruction} {notes agains : List Note}
    (h : Repeated t is notes agains)
    (d d' : Disassembly) (hd : line t .extended d' = line t .extended d) (isFirst : Bool) :
    instructionLines t .extended d' isFirst (applyNotes is notes) agains =
      instructionLines t .extended d isFirst (applyNotes is notes) notes := by
  induction h generalizing isFirst with
  | nil =>
      rfl
  | @cons i is note again notes agains hfirst _ ih =>
      have hshown : extendedText t (i.rewritten note) again =
          extendedText t (i.rewritten note) note :=
        extendedText_of_repeats ⟨hfirst.finding, hfirst.display⟩
      have hline : line t .extended d' (i.rewritten note) (some again) =
          line t .extended d (i.rewritten note) (some note) := by
        rw [hd]
        simp only [line, tail, Option.bind_some, hshown]
      have hlines := ih false
      simp only [applyNotes] at hlines
      simp only [applyNotes, List.zipWith_cons_cons, instructionLines, List.head?_cons,
        List.drop_one, List.tail_cons, hlines]
      exact congrArg _ (congrArg (· :: _) hline)

theorem lines_eq
    (style : Style) (d : Disassembly) :
    lines t style d = ownLines t style d ++ childLines t style d.children := by
  cases d
  rw [lines]

end Texts
end Listing

/-- The notes of a pass, written into the instructions, change nothing but what is folded into
these.  A second pass over them changes nothing more. -/
theorem applied_twice
    {t : Table} {is : List Instruction} {notes : List Note}
    (hnotes : annotate? t is = some notes) :
    (applyNotes is notes).map Instruction.unfolded = is.map Instruction.unfolded ∧
    (applyNotes is notes).map Instruction.finding = notes.map Note.finding ∧
    ∃ agains, annotate? t (applyNotes is notes) = some agains ∧
      applyNotes (applyNotes is notes) agains = applyNotes is notes ∧
      agains.map Note.finding = notes.map Note.finding ∧
      ∀ d : Disassembly,
        Listing.render t .extended
            { d with
              instructions := applyNotes (applyNotes is notes) agains
              notes := agains } =
          Listing.render t .extended
            { d with
              instructions := applyNotes is notes
              notes := notes } := by
  obtain ⟨agains, hagains, hrepeated⟩ := Fold.repeated_annotateFrom? List.Forall₂.nil hnotes
  have happlied := hrepeated.applyNotes_eq
  refine ⟨hrepeated.map_unfolded, hrepeated.map_finding_applyNotes, agains, hagains, happlied,
    hrepeated.map_finding, ?_⟩
  intro d
  rw [happlied, Listing.render, Listing.render, Listing.lines_eq, Listing.lines_eq,
    Listing.ownLines, Listing.ownLines]
  -- Notes are read in the lines of instructions only.
  have hlines := Listing.instructionLines_of_repeated hrepeated
    { d with instructions := applyNotes is notes, notes := notes }
    { d with instructions := applyNotes is notes, notes := agains }
    rfl true
  exact congrArg (fun ls => Text.unlines (ls ++ _ ++ _ ++ _)) hlines

/-- The sum of a name and of an instruction that carries a text of its own. -/
def carryingSum : List Instruction :=
  [Fold.loadOf 0 "a",
   { offset := 2, opcode := 9, opname := "NOP", expression := some "kept", foldStart := some 2 },
   Fold.sumOf 4]

/-- The name, the text that was there and the sum are written back.  A second pass finds the same;
only the name, which is shown as an operand, gets a text to be shown as well. -/
theorem applied_twice_carryingSum :
    ∃ notes agains, annotate? .sample carryingSum = some notes ∧
      (applyNotes carryingSum notes).map Instruction.finding =
        [(some "a", some 0), (some "kept", some 2), (some "a + kept", some 0)] ∧
      annotate? .sample (applyNotes carryingSum notes) = some agains ∧
      applyNotes (applyNotes carryingSum notes) agains = applyNotes carryingSum notes ∧
      notes.map Note.display = [none, some "kept", some "a + kept"] ∧
      agains.map Note.display = [some "a", some "kept", some "a + kept"] := by
  have hfirst : annotate? .sample carryingSum =
      some [⟨some "a", some 0, none⟩, ⟨some "kept", some 2, some "kept"⟩,
        ⟨some "a + kept", some 0, some "a + kept"⟩] := by
    decide +kernel
  obtain ⟨_, hfinding, agains, hagains, hagain, _⟩ := applied_twice hfirst
  have hsecond : (annotate? .sample (applyNotes carryingSum
      [⟨some "a", some 0, none⟩, ⟨some "kept", some 2, some "kept"⟩,
        ⟨some "a + kept", some 0, some "a + kept"⟩])).map (fun notes => notes.map Note.display) =
      some [some "a", some "kept", some "a + kept"] := by
    decide +kernel
  rw [hagains, Option.map_some, Option.some.injEq] at hsecond
  exact ⟨_, agains, hfirst, hfinding, hagains, hagain, rfl, hsecond⟩

end Disassembler
