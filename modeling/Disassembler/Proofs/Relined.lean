import Disassembler.Proofs.Nested
import Disassembler.Proofs.RepeatedStarts
import Disassembler.Proofs.Simulation
import Disassembler.Proofs.Steps

/-!
# Disassembling with other line starts

Where lines start is shown beside the instructions and used for nothing else.

**Input.**  Any table, options and code object, and any line starts.

**Results.**
* `decode_relined`: with other line starts a listing is the same but for the lines.
* `annotate?_relined`: the notes of instructions do not depend on the lines.
* `agree_disassembleAlone`, `agree_disassemble`: without starts that repeat a line a disassembly
  shows fewer lines, and is otherwise the same.
* `repeated_starts`: which lines it does not show.
-/

namespace Disassembler

section Outcomes

theorem agree_consResult
    {R : Disassembly → Disassembly → Prop} {x y : Except Failure Disassembly}
    {xs ys : Except Failure (List Disassembly)}
    (hfirst : Agree R x y)
    (hmore : Agree (List.Forall₂ R) xs ys) :
    Agree (List.Forall₂ R) (consResult x xs) (consResult y ys) := by
  cases hfirst with
  | error e =>
      cases hmore with
      | error e' =>
          cases e <;> cases e' <;> exact .error _
      | ok hmore =>
          cases e <;> exact .error _
  | ok hfirst =>
      cases hmore with
      | error e' =>
          cases e' <;> exact .error _
      | ok hmore =>
          exact .ok (List.Forall₂.cons hfirst hmore)

/-- Where all results agree, so do their sequences. -/
theorem agree_collect
    {R : Disassembly → Disassembly → Prop} {xs ys : List (Except Failure Disassembly)}
    (h : List.Forall₂ (Agree R) xs ys) :
    Agree (List.Forall₂ R) (collect xs) (collect ys) := by
  induction h with
  | nil =>
      exact .ok List.Forall₂.nil
  | cons hfirst _ ih =>
      exact agree_consResult hfirst ih

end Outcomes

section Instructions

/-- The instruction with the line that starts where it stands. Cache words start none. -/
def Instruction.relined (lines : Lines.StartMap) (i : Instruction) : Instruction :=
  if i.isCache then i else { i with startsLine := lines[i.offset]? }

theorem Instruction.exists_relined
    (lines : Lines.StartMap) (i : Instruction) :
    ∃ line, i.relined lines = { i with startsLine := line } := by
  unfold relined
  split
  · exact ⟨i.startsLine, rfl⟩
  · exact ⟨_, rfl⟩

/-- The same instruction, with no line where the other shows one, or with the same line. -/
structure Instruction.FewerLines (i j : Instruction) : Prop where
  same : j = { i with startsLine := j.startsLine }
  line : ∀ l, j.startsLine = some l → i.startsLine = some l

theorem Instruction.fewerLines_relined
    {lines fewer : Lines.StartMap}
    (h : ∀ o l : Nat, fewer[o]? = some l → lines[o]? = some l) (i : Instruction) :
    FewerLines (i.relined lines) (i.relined fewer) := by
  unfold relined
  split
  · exact ⟨rfl, fun _ hl => hl⟩
  · exact ⟨rfl, fun l hl => h i.offset l hl⟩

end Instructions

namespace Decode

section Lines

variable (t : Table) (env : Environment) (lines : Lines.StartMap)

/-- A step with other line starts is the same step, but for the line of its instruction. -/
theorem step_relined
    (carry : Carry) (c : Chunk) :
    step t { env with lineStarts := lines } carry c =
      { step t env carry c with
        instruction := (step t env carry c).instruction.relined lines } := by
  unfold step
  cases t.info c.opcode with
  | none =>
      rfl
  | some info =>
      simp only [knownStep]
      cases (operandOf t c carry).filter (· < UInt64.size) with
      | none =>
          rfl
      | some a =>
          have hresolve : resolve t { env with lineStarts := lines } info c.opcode a c.next =
              resolve t env info c.opcode a c.next := rfl
          simp only [hresolve]
          cases resolve t env info c.opcode a c.next <;> rfl

theorem cacheWords_relined
    (opcode offset : Nat) (bytes : List UInt8) :
    (cacheWords opcode offset bytes).map (Instruction.relined lines) =
      cacheWords opcode offset bytes := by
  fun_induction cacheWords opcode offset bytes with
  | case1 offset _ content rest ih =>
      rw [List.map_cons, ih]
      rfl
  | case2 =>
      rfl

theorem decodeChunks_relined
    (showCaches : Bool) (carry : Carry) (cs : List Chunk) :
    decodeChunks t { env with lineStarts := lines } showCaches carry cs =
      { decodeChunks t env showCaches carry cs with
        instructions := (decodeChunks t env showCaches carry cs).instructions.map
          (Instruction.relined lines) } := by
  induction cs generalizing carry with
  | nil =>
      rfl
  | cons c cs ih =>
      have hcaches : (listedCaches t showCaches c).map (Instruction.relined lines) =
          listedCaches t showCaches c := by
        unfold listedCaches
        split
        · exact cacheWords_relined lines _ _ _
        · rfl
      rw [decodeChunks_cons, decodeChunks_cons, step_relined]
      simp only [ih, List.map_cons, List.map_append, hcaches]

theorem mark_relined
    (offsets : List Nat) (i : Instruction) :
    mark offsets (i.relined lines) = (mark offsets i).relined lines := by
  cases hcache : i.isCache <;> simp [mark, Instruction.relined, hcache]

theorem jumpTarget_relined
    (i : Instruction) :
    (i.relined lines).jumpTarget = i.jumpTarget := by
  obtain ⟨line, hline⟩ := i.exists_relined lines
  rw [hline]
  rfl

/-- With other line starts a listing is the same but for the lines. -/
theorem decode_relined
    (showCaches : Bool) (code : List UInt8) :
    decode t { env with lineStarts := lines } showCaches code =
      { decode t env showCaches code with
        instructions := (decode t env showCaches code).instructions.map
          (Instruction.relined lines) } := by
  simp only [decode, decodeChunks_relined, markTargets_eq_map, List.map_map, targets,
    List.filterMap_map, Function.comp_def, jumpTarget_relined, mark_relined]

/-- Two listings that differ in the lines only are one listing, with the lines of either. -/
theorem exists_bare
    {env env' : Environment}
    (showCaches : Bool) (code : List UInt8)
    (h : env' = { env with lineStarts := env'.lineStarts }) :
    ∃ bare : Decoded,
      decode t env showCaches code =
        { bare with instructions := bare.instructions.map (Instruction.relined env.lineStarts) } ∧
      decode t env' showCaches code =
        { bare with
          instructions := bare.instructions.map (Instruction.relined env'.lineStarts) } := by
  refine ⟨decode t { env with lineStarts := ∅ } showCaches code, ?_, ?_⟩
  · exact decode_relined t { env with lineStarts := ∅ } env.lineStarts showCaches code
  · rw [h]
    exact decode_relined t { env with lineStarts := ∅ } env'.lineStarts showCaches code

end Lines
end Decode

namespace Fold

section Notes

variable (t : Table) (lines : Lines.StartMap)

def Noted.relined (p : Noted) : Noted :=
  ⟨p.instruction.relined lines, p.note⟩

theorem alike_relined
    (p : Noted) :
    Alike p (p.relined lines) ∧ SameContent p (p.relined lines) ∧
      (p.relined lines).instruction.isCache = p.instruction.isCache := by
  obtain ⟨line, hline⟩ := p.instruction.exists_relined lines
  unfold Noted.relined
  rw [hline]
  exact ⟨⟨rfl, rfl, rfl, rfl⟩, ⟨rfl, rfl, rfl, rfl⟩, rfl⟩

/-- Folding does not see the line starts. -/
theorem unseen_relined :
    Unseen fun p q => q = p.relined lines := by
  constructor
  case alike =>
    rintro p q rfl
    exact (alike_relined lines p).1
  case isCache =>
    rintro p q rfl
    exact (alike_relined lines p).2.2.symm
  case content =>
    rintro p q rfl _
    exact (alike_relined lines p).2.1
  case start =>
    rintro p q rfl _
    rfl

theorem exact_relined :
    Simulation.Exact (Pointwise fun p q => q = p.relined lines) := by
  refine (unseen_relined lines).exact ?_ ?_
  · rintro p q rfl
    exact (alike_relined lines p).2.1
  · rintro p q rfl
    rfl

theorem fold_startsLine
    (past : Past) (i : Instruction) (line : Option Nat) (rule : FoldRule) :
    fold t past { i with startsLine := line } rule = fold t past i rule := by
  cases rule <;> rfl

theorem noteOf?_relined
    (past : Past) (i : Instruction) :
    noteOf? t (past.map (Noted.relined lines)) (i.relined lines) = noteOf? t past i := by
  obtain ⟨line, hline⟩ := i.exists_relined lines
  rw [hline]
  have hfold : ∀ rule, fold t (past.map (Noted.relined lines)) { i with startsLine := line } rule =
      fold t past i rule := by
    intro rule
    rw [fold_startsLine]
    refine (fold_eq (unseen_relined lines).simulation t i rule (fun _ => exact_relined lines)
      ?_).symm
    rw [List.forall₂_map_right_iff, List.forall₂_same]
    exact fun p _ => rfl
  unfold noteOf?
  simp only [hfold]
  rfl

theorem annotateFrom?_relined
    (past : Past) (instructions : List Instruction) :
    annotateFrom? t (past.map (Noted.relined lines))
        (instructions.map (Instruction.relined lines)) =
      annotateFrom? t past instructions := by
  induction instructions generalizing past with
  | nil =>
      rfl
  | cons i rest ih =>
      rw [List.map_cons, annotateFrom?_cons, annotateFrom?_cons, noteOf?_relined]
      congr 1
      funext note
      rw [← ih (⟨i, note⟩ :: past)]
      rfl

end Notes
end Fold

/-- The notes of instructions do not depend on the lines. -/
theorem annotate?_relined
    (t : Table) (lines : Lines.StartMap) (instructions : List Instruction) :
    annotate? t (instructions.map (Instruction.relined lines)) = annotate? t instructions :=
  Fold.annotateFrom?_relined t lines [] instructions

theorem applyNotes_relined
    (lines : Lines.StartMap) (instructions : List Instruction) (notes : List Note) :
    applyNotes (instructions.map (Instruction.relined lines)) notes =
      (applyNotes instructions notes).map (Instruction.relined lines) := by
  rw [applyNotes, applyNotes, List.zipWith_map_left, List.map_zipWith]
  congr 1
  funext i note
  cases hcache : i.isCache <;> simp [Instruction.relined, hcache]

section Settings

open Lines

/-- The environments of a code object read in the two ways differ in the line starts only. -/
theorem agree_ofCode
    (c : CodeObject) (settings : Settings) :
    Agree
      (fun env env' =>
        env' = { env with lineStarts := env'.lineStarts } ∧
          env'.lineStarts.toList = dropRepeats none env.lineStarts.toList)
      (Environment.ofCode c settings true) (Environment.ofCode c settings false) := by
  rcases (agree_startMap c settings.lineTable).cases with
    ⟨e, hall, hfew⟩ | ⟨_, _, hall, hfew, hlines⟩
  · simp only [Environment.ofCode, hall, hfew]
    exact .error e
  · simp only [Environment.ofCode, hall, hfew]
    cases Environment.entriesOf c settings with
    | error e =>
        exact .error e
    | ok entries =>
        exact .ok ⟨rfl, hlines⟩

/-- The same disassembly, with the same lines at some instructions and none at others. -/
inductive Disassembly.FewerLines : Disassembly → Disassembly → Prop
  | mk {d e : Disassembly}
      (hsame : e = { d with instructions := e.instructions, children := e.children })
      (hinstructions : List.Forall₂ Instruction.FewerLines d.instructions e.instructions)
      (hchildren : List.Forall₂ FewerLines d.children e.children) :
      FewerLines d e

theorem Disassembly.FewerLines.with_children
    {d e : Disassembly} {ds es : List Disassembly}
    (h : FewerLines d e)
    (hchildren : List.Forall₂ FewerLines ds es) :
    FewerLines { d with children := ds } { e with children := es } := by
  obtain ⟨hsame, hinstructions, _⟩ := h
  refine ⟨?_, hinstructions, hchildren⟩
  rw [hsame]

theorem forall₂_relined
    {lines fewer : StartMap}
    (h : ∀ o l : Nat, fewer[o]? = some l → lines[o]? = some l) (instructions : List Instruction) :
    List.Forall₂ Instruction.FewerLines (instructions.map (Instruction.relined lines))
      (instructions.map (Instruction.relined fewer)) := by
  rw [List.forall₂_map_left_iff, List.forall₂_map_right_iff, List.forall₂_same]
  exact fun i _ => Instruction.fewerLines_relined h i

/-- One code object read in the two ways. -/
theorem agree_disassembleAlone
    (t : Table) (options : Options) (c : CodeObject) :
    Agree Disassembly.FewerLines (disassembleAlone t { options with dupLines := true } c)
      (disassembleAlone t { options with dupLines := false } c) := by
  rcases (agree_ofCode c t.settings).cases with
    ⟨e, hall, hfew⟩ | ⟨env, env', hall, hfew, hsame, hlines⟩
  · simp only [disassembleAlone, hall, hfew]
    exact .error _
  · have hfewer : ∀ o l : Nat, env'.lineStarts[o]? = some l → env.lineStarts[o]? = some l :=
      fun o l hl => getElem?_of_dropRepeats hlines hl
    have hentries : env'.exceptionEntries = env.exceptionEntries := by
      rw [hsame]
    obtain ⟨bare, hbare, hbare'⟩ := Decode.exists_bare t options.showCaches c.code hsame
    have hnotes : ∀ lines,
        notesFor t options (bare.instructions.map (Instruction.relined lines)) =
          notesFor t options bare.instructions := by
      intro lines
      rw [notesFor, notesFor, annotate?_relined]
    have hnotesFor : ∀ dupLines, notesFor t { options with dupLines := dupLines } =
        notesFor t options :=
      fun _ => rfl
    simp only [disassembleAlone, hall, hfew, hbare, hbare', hnotesFor, hnotes]
    cases notesFor t options bare.instructions with
    | none =>
        exact .error _
    | some notes =>
        refine .ok ⟨?_, ?_, List.Forall₂.nil⟩
        · simp only [hentries]
        · cases options.extended with
          | false =>
              exact forall₂_relined hfewer bare.instructions
          | true =>
              simp only [if_true, applyNotes_relined]
              exact forall₂_relined hfewer _

/-- Without starts that repeat a line, disassembling fails with the same error or gives the same
disassembly with fewer lines. -/
theorem agree_disassemble
    (t : Table) (options : Options) (c : CodeObject) :
    Agree Disassembly.FewerLines (disassemble t { options with dupLines := true } c)
      (disassemble t { options with dupLines := false } c) := by
  induction c using CodeObject.induction_nested with
  | h c ih =>
      have hnested : Agree (List.Forall₂ Disassembly.FewerLines)
          (collect (c.nested.map (disassemble t { options with dupLines := true })))
          (collect (c.nested.map (disassemble t { options with dupLines := false }))) := by
        refine agree_collect ?_
        rw [List.forall₂_map_left_iff, List.forall₂_map_right_iff, List.forall₂_same]
        exact ih
      rw [disassemble_eq, disassemble_eq]
      rcases (agree_disassembleAlone t options c).cases with
        ⟨e, hall, hfew⟩ | ⟨_, _, hall, hfew, halone⟩
      · rw [hall, hfew]
        exact .error e
      · rw [hall, hfew]
        rcases hnested.cases with ⟨e, hall', hfew'⟩ | ⟨_, _, hall', hfew', hchildren⟩
        · simp only [hall', hfew']
          exact .error e
        · simp only [hall', hfew']
          exact .ok (halone.with_children hchildren)

/-- Reading a line table without starts that repeat a line fails just as reading it with them does,
or gives those starts whose line is not that of the start just before.  Either way the starts stand
at ascending offsets, so that the map of them lists them all.  A disassembly is the same in both
ways but for the lines it shows, and what shows a line in both shows the same one. -/
theorem repeated_starts
    (c : CodeObject) :
    (∀ format : LineFormat,
      Agree (fun all few => few.toList = dropRepeats none all.toList)
        (startMap c format true) (startMap c format false) ∧
      ∀ dupLines list, starts c format dupLines = .ok list →
        list.Pairwise (fun s t => s.1 < t.1) ∧
        ∃ map, startMap c format dupLines = .ok map ∧ map.toList = list) ∧
    ∀ (t : Table) (options : Options),
      Agree Disassembly.FewerLines (disassemble t { options with dupLines := true } c)
        (disassemble t { options with dupLines := false } c) := by
  refine ⟨?_, fun t options => agree_disassemble t options c⟩
  intro format
  refine ⟨agree_startMap c format, ?_⟩
  intro dupLines list hstarts
  have hsorted := pairwise_startsOfTable hstarts
  refine ⟨hsorted, StartMap.ofStarts list, ?_, toList_ofStarts hsorted⟩
  rw [startMap, hstarts]
  rfl

/-- Three stretches of code, of which the first two are on one line. -/
def threeStretches : CodeObject where
  name := "sample"
  firstLine := 5
  code := [9, 0, 9, 0, 9, 0]
  lineTable := [2, 0, 2, 1]

/-- The start of the second stretch is a repeat. -/
theorem repeated_starts_threeStretches :
    (∃ all few : StartMap,
      startMap threeStretches .lnotab true = .ok all ∧ all.toList = [(0, 5), (2, 5), (4, 6)] ∧
      startMap threeStretches .lnotab false = .ok few ∧ few.toList = [(0, 5), (4, 6)]) ∧
    (disassemble .sample { dupLines := true } threeStretches).toOption.map
      (fun d => d.instructions.map Instruction.startsLine) =
      some [some 5, some 5, some 6] ∧
    Agree Disassembly.FewerLines (disassemble .sample { dupLines := true } threeStretches)
      (disassemble .sample { dupLines := false } threeStretches) := by
  obtain ⟨hlines, hdisassembled⟩ := repeated_starts threeStretches
  obtain ⟨_, hlisted⟩ := hlines .lnotab
  have hall : starts threeStretches .lnotab true = .ok [(0, 5), (2, 5), (4, 6)] := by
    decide
  have hfew : starts threeStretches .lnotab false = .ok [(0, 5), (4, 6)] := by
    decide
  obtain ⟨_, all, hread, hlist⟩ := hlisted true _ hall
  obtain ⟨_, few, hread', hlist'⟩ := hlisted false _ hfew
  exact ⟨⟨all, few, hread, hlist, hread', hlist'⟩, by decide +kernel,
    hdisassembled .sample {}⟩

end Settings
end Disassembler
