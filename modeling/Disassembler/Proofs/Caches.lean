import Disassembler.Disassembly.Basic
import Disassembler.Proofs.Derived
import Disassembler.Proofs.Room
import Disassembler.Proofs.Simulation
import Disassembler.Proofs.Start
import Disassembler.Proofs.Tiling
import Mathlib.Data.List.TakeWhile

/-!
# Cache words change nothing else

**Input.**  Any table and code object.

**Results.**
* `Anchored` is the invariant of the pass: what contributes to a value never begins with a cache
  word.  So folding cannot tell a past from the same past without its cache words
  (`simulation_solid`, `exact_solid`).
* `annotate?_plain`: without the notes of the cache words, the notes are those of the other
  instructions alone.
* `disassemble_dropCaches`: without its cache words, a disassembly with cache words is the one
  without them, through all nested code objects.
-/

namespace Disassembler
namespace Fold

section Solid

/-- The past without its cache words. -/
def solid (past : Past) : Past :=
  past.filter fun p => !p.instruction.isCache

/-- What contributes to the value of an instruction begins with no cache word, unless the
instruction is one itself. -/
def Anchored : Past → Prop
  | [] => True
  | p :: rest =>
      (p.instruction.isCache = false → (origin p rest).1.instruction.isCache = false) ∧
        Anchored rest

theorem solid_cons_of_isCache
    {p : Noted} (rest : Past)
    (h : p.instruction.isCache = true) :
    solid (p :: rest) = solid rest := by
  simp [solid, h]

theorem solid_cons_of_not_isCache
    {p : Noted} (rest : Past)
    (h : p.instruction.isCache = false) :
    solid (p :: rest) = p :: solid rest := by
  simp [solid, h]

theorem Anchored.suffix
    {past past' : Past}
    (h : Anchored past')
    (hsuffix : past <:+ past') :
    Anchored past := by
  induction past' with
  | nil =>
      rw [List.suffix_nil.mp hsuffix]
      exact trivial
  | cons p rest ih =>
      rcases List.suffix_cons_iff.mp hsuffix with rfl | hsuffix
      · exact h
      · exact ih h.2 hsuffix

theorem skipCaches_solid
    (past : Past) :
    skipCaches (solid past) = solid past := by
  cases hsolid : solid past with
  | nil =>
      rfl
  | cons p rest =>
      have hp : p ∈ solid past := by
        rw [hsolid]
        exact List.mem_cons_self
      have hcache : p.instruction.isCache = false := by
        simpa using (List.mem_filter.mp hp).2
      exact skipCaches_cons rest hcache

/-- Skipping the cache words at the end takes away no other instruction. -/
theorem solid_skipCaches
    (past : Past) :
    solid (skipCaches past) = solid past := by
  induction past with
  | nil =>
      rfl
  | cons p rest ih =>
      cases hcache : p.instruction.isCache with
      | true =>
          have hskip : skipCaches (p :: rest) = skipCaches rest := by
            simp [skipCaches, hcache]
          rw [hskip, ih, solid_cons_of_isCache rest hcache]
      | false =>
          rw [skipCaches_cons rest hcache]

theorem isCache_of_skipCaches
    {past rest : Past} {p : Noted}
    (h : skipCaches past = p :: rest) :
    p.instruction.isCache = false := by
  have hnot := List.head?_dropWhile_not (fun p : Noted => p.instruction.isCache) past
  rw [skipCaches] at h
  rw [h] at hnot
  simpa using hnot

/-- What an instruction that is no cache word is found by is found without the cache words too. -/
theorem dropWhile_solid
    {past before : Past} {q : Noted} {f : Noted → Bool}
    (h : past.dropWhile f = q :: before)
    (hq : q.instruction.isCache = false) :
    (solid past).dropWhile f = q :: solid before := by
  induction past with
  | nil =>
      cases h
  | cons p rest ih =>
      cases hf : f p with
      | true =>
          rw [List.dropWhile_cons_of_pos hf] at h
          cases hcache : p.instruction.isCache with
          | true =>
              rw [solid_cons_of_isCache rest hcache, ih h]
          | false =>
              rw [solid_cons_of_not_isCache rest hcache, List.dropWhile_cons_of_pos hf, ih h]
      | false =>
          rw [List.dropWhile_cons_of_neg (by simp [hf]), List.cons.injEq] at h
          obtain ⟨rfl, rfl⟩ := h
          rw [solid_cons_of_not_isCache rest hq, List.dropWhile_cons_of_neg (by simp [hf])]

/-- The first instruction that contributes to a value is found without the cache words too. -/
theorem origin_solid
    {p : Noted} {rest : Past}
    (hp : p.instruction.isCache = false)
    (h : Anchored (p :: rest)) :
    origin p (solid rest) = ((origin p rest).1, solid (origin p rest).2) := by
  have hfirst := h.1 hp
  cases hstart : p.note.start with
  | none =>
      simp only [origin, hstart]
  | some offset =>
      simp only [origin, hstart] at hfirst ⊢
      rw [← solid_cons_of_not_isCache rest hp]
      cases hdrop : (p :: rest).dropWhile fun q => q.instruction.offset != offset with
      | nil =>
          have hnone : (solid (p :: rest)).dropWhile
              (fun q => q.instruction.offset != offset) = [] := by
            rw [List.dropWhile_eq_nil_iff] at hdrop ⊢
            intro q hq
            exact hdrop q (List.mem_of_mem_filter hq)
          rw [hnone]
      | cons q before =>
          rw [hdrop] at hfirst
          rw [dropWhile_solid hdrop hfirst]

end Solid

section Simulating

/-- A past and the same past without its cache words. -/
def SolidPasts (past past' : Past) : Prop :=
  Anchored past ∧ past' = solid past

/-- A place in a past, and in the same past without its cache words. -/
def SolidPlaces (p : Noted) (rest : Past) (q : Noted) (rest' : Past) : Prop :=
  p.instruction.isCache = false ∧ Anchored (p :: rest) ∧ q = p ∧ rest' = solid rest

theorem Alike.refl
    (p : Noted) :
    Alike p p :=
  ⟨rfl, rfl, rfl, rfl⟩

theorem SameContent.refl
    (p : Noted) :
    SameContent p p :=
  ⟨rfl, rfl, rfl, rfl⟩

/-- What contributes to a value begins at a place of its own, also without the cache words. -/
theorem solidPlaces_origin
    {p q : Noted} {rest rest' : Past}
    (h : SolidPlaces p rest q rest') :
    SolidPlaces (origin p rest).1 (origin p rest).2 (origin q rest').1 (origin q rest').2 := by
  obtain ⟨hp, hanchored, rfl, rfl⟩ := h
  rw [origin_solid hp hanchored]
  exact ⟨hanchored.1 hp, hanchored.suffix (origin_suffix q rest), rfl, rfl⟩

/-- Folding cannot tell a past from the same past without its cache words. -/
theorem simulation_solid :
    Simulation SolidPasts SolidPlaces := by
  constructor
  case nil =>
    exact ⟨trivial, rfl⟩
  case top =>
    rintro a b ⟨hanchored, rfl⟩
    rw [skipCaches_solid, ← solid_skipCaches]
    have hsuffix := skipCaches_suffix a
    cases hskip : skipCaches a with
    | nil =>
        left
        exact ⟨rfl, rfl⟩
    | cons p rest =>
        right
        rw [hskip] at hsuffix
        have hp := isCache_of_skipCaches hskip
        exact ⟨p, rest, p, solid rest, rfl, solid_cons_of_not_isCache rest hp, hp,
          hanchored.suffix hsuffix, rfl, rfl⟩
  case whole =>
    rintro p rest q rest' ⟨hp, hanchored, rfl, rfl⟩
    exact ⟨hanchored, (solid_cons_of_not_isCache rest hp).symm⟩
  case rest =>
    rintro p rest q rest' ⟨_, hanchored, rfl, rfl⟩
    exact ⟨hanchored.2, rfl⟩
  case alike =>
    rintro p rest q rest' ⟨_, _, rfl, rfl⟩
    exact Alike.refl q
  case content =>
    rintro p rest q rest' ⟨_, _, rfl, rfl⟩ _
    exact SameContent.refl q
  case first =>
    rintro p rest q rest' h _
    obtain ⟨_, _, heq, _⟩ := solidPlaces_origin h
    rw [heq]
    exact Alike.refl _
  case before =>
    rintro p rest q rest' h _
    obtain ⟨_, hanchored, _, heq⟩ := solidPlaces_origin h
    exact ⟨hanchored.2, heq⟩

/-- What contributes to a value lies before it, or only the instruction itself does; this does not
depend on the cache words. -/
theorem length_origin_solid
    {p : Noted} {rest : Past}
    (hfirst : (origin p rest).1.instruction.isCache = false) :
    (origin p rest).2.length < rest.length ↔
      (solid (origin p rest).2).length < (solid rest).length := by
  obtain ⟨above, hplace⟩ := origin_suffix p rest
  generalize (origin p rest).1 = q at hfirst hplace
  generalize (origin p rest).2 = before at hplace ⊢
  cases above with
  | nil =>
      rw [List.nil_append, List.cons.injEq] at hplace
      obtain ⟨rfl, rfl⟩ := hplace
      simp
  | cons r above =>
      rw [List.cons_append, List.cons.injEq] at hplace
      obtain ⟨rfl, rfl⟩ := hplace
      have hsolid : solid (above ++ q :: before) = solid above ++ q :: solid before := by
        rw [← solid_cons_of_not_isCache before hfirst]
        exact List.filter_append ..
      rw [hsolid]
      simp only [List.length_append, List.length_cons]
      omega

/-- Without the cache words all places hold the same. -/
theorem exact_solid :
    Simulation.Exact SolidPlaces := by
  constructor
  case content =>
    rintro p rest q rest' ⟨_, _, rfl, rfl⟩
    exact SameContent.refl q
  case origin =>
    intro p rest q rest' h
    exact solidPlaces_origin h
  case shorter =>
    rintro p rest q rest' ⟨hp, hanchored, rfl, rfl⟩
    rw [origin_solid hp hanchored]
    exact length_origin_solid (hanchored.1 hp)

end Simulating

section Pass

variable {t : Table} {past : Past}

/-- The note of an instruction does not depend on the cache words before it. -/
theorem noteOf?_solid
    (hanchored : Anchored past) (i : Instruction) :
    noteOf? t (solid past) i = noteOf? t past i := by
  have hfold : ∀ rule, fold t past i rule = fold t (solid past) i rule := by
    intro rule
    exact fold_eq simulation_solid t i rule (fun _ => exact_solid) ⟨hanchored, rfl⟩
  simp only [noteOf?, hfold]

theorem noteOf_solid
    (hanchored : Anchored past) (i : Instruction) :
    noteOf t (solid past) i = noteOf t past i := by
  rw [noteOf, noteOf, noteOf?_solid hanchored]

/-- The invariant is kept by one more instruction. -/
theorem anchored_cons
    {i : Instruction}
    (hanchored : Anchored past)
    (hdescending : Descending (⟨i, noteOf t past i⟩ :: past))
    (hfresh : i.expression = none) :
    Anchored (⟨i, noteOf t past i⟩ :: past) := by
  refine ⟨?_, hanchored⟩
  intro hcache
  cases hstart : (noteOf t past i).start with
  | none =>
      simpa only [origin, hstart] using hcache
  | some start =>
      -- Without the cache words the note is the same, so it starts at an instruction that is none.
      have hseen := hstart
      rw [← noteOf_solid hanchored] at hseen
      rcases start_of_noteOf hfresh hseen with rfl | ⟨q, hq, rfl⟩
      · rw [origin_of_place hdescending (List.nil_append _).symm hstart]
        exact hcache
      · obtain ⟨hmem, hqcache⟩ := List.mem_filter.mp hq
        obtain ⟨above, before, hplace⟩ := List.append_of_mem hmem
        have hwhole : ⟨i, noteOf t past i⟩ :: past =
            (⟨i, noteOf t past i⟩ :: above) ++ q :: before := by
          rw [hplace, List.cons_append]
        rw [origin_of_place hdescending hwhole hstart]
        simpa using hqcache

end Pass
end Fold

section Notes

open Decode (plain plain_cons_of_isCache plain_cons_of_not_isCache)

/-- The notes of the instructions that are no cache words. -/
def plainNotes (instructions : List Instruction) (notes : List Note) : List Note :=
  ((instructions.zip notes).filter fun p => !p.1.isCache).map Prod.snd

theorem plainNotes_nil
    (instructions : List Instruction) :
    plainNotes instructions [] = [] := by
  simp [plainNotes]

theorem plainNotes_cons_of_isCache
    {i : Instruction} (rest : List Instruction) (note : Note) (notes : List Note)
    (h : i.isCache = true) :
    plainNotes (i :: rest) (note :: notes) = plainNotes rest notes := by
  simp [plainNotes, h]

theorem plainNotes_cons_of_not_isCache
    {i : Instruction} (rest : List Instruction) (note : Note) (notes : List Note)
    (h : i.isCache = false) :
    plainNotes (i :: rest) (note :: notes) = note :: plainNotes rest notes := by
  simp [plainNotes, h]

/-- The pass over instructions without their cache words gives the notes without theirs. -/
theorem Fold.annotateFrom?_plain
    {t : Table} {past : Fold.Past} {instructions : List Instruction}
    (hanchored : Fold.Anchored past)
    (hdescending : Fold.Descending (Fold.seen t past instructions))
    (hfresh : ∀ i ∈ instructions, i.expression = none)
    (hroom : ∀ i ∈ instructions, i.isCache = true → HasRoom t i) :
    (annotateFrom? t past instructions).map (plainNotes instructions) =
      annotateFrom? t (solid past) (plain instructions) := by
  induction instructions generalizing past with
  | nil =>
      rfl
  | cons i rest ih =>
      have hnext : Fold.Descending (⟨i, noteOf t past i⟩ :: past) :=
        List.Pairwise.sublist (suffix_seen t _ rest).sublist hdescending
      have hrest := ih (anchored_cons hanchored hnext (hfresh i List.mem_cons_self)) hdescending
        (fun j hj => hfresh j (List.mem_cons_of_mem i hj))
        (fun j hj => hroom j (List.mem_cons_of_mem i hj))
      cases hcache : i.isCache with
      | true =>
          rw [solid_cons_of_isCache past hcache] at hrest
          rw [plain_cons_of_isCache rest hcache, ← hrest, annotateFrom?_cons,
            noteOf?_of_hasRoom past (hroom i List.mem_cons_self hcache)]
          simp only [Option.bind_some, Option.map_map, Function.comp_def,
            plainNotes_cons_of_isCache rest _ _ hcache]
      | false =>
          rw [solid_cons_of_not_isCache past hcache] at hrest
          rw [plain_cons_of_not_isCache rest hcache, annotateFrom?_cons, annotateFrom?_cons,
            noteOf?_solid hanchored]
          cases hnote : noteOf? t past i with
          | none =>
              rfl
          | some note =>
              rw [noteOf_eq_of_some hnote] at hrest
              simp only [Option.bind_some, ← hrest, Option.map_map, Function.comp_def,
                plainNotes_cons_of_not_isCache rest _ _ hcache]

/-- Without the notes of the cache words, the notes of instructions in order of their offsets are
those of the other instructions alone. -/
theorem annotate?_plain
    {t : Table} {instructions : List Instruction}
    (hascending : instructions.Pairwise fun i j => i.offset < j.offset)
    (hfresh : ∀ i ∈ instructions, i.expression = none)
    (hroom : ∀ i ∈ instructions, i.isCache = true → Fold.HasRoom t i) :
    (annotate? t instructions).map (plainNotes instructions) = annotate? t (plain instructions) :=
  Fold.annotateFrom?_plain trivial (Fold.descending_seen t hascending) hfresh hroom

theorem applyNotes_cons
    (i : Instruction) (rest : List Instruction) (note : Note) (notes : List Note) :
    applyNotes (i :: rest) (note :: notes) =
      { i with expression := note.expression, foldStart := note.start } ::
        applyNotes rest notes := by
  rfl

/-- Writing notes into instructions does not make cache words of them. -/
theorem plain_applyNotes
    (instructions : List Instruction) (notes : List Note) :
    plain (applyNotes instructions notes) =
      applyNotes (plain instructions) (plainNotes instructions notes) := by
  induction instructions generalizing notes with
  | nil =>
      rfl
  | cons i rest ih =>
      cases notes with
      | nil =>
          simp [applyNotes, plainNotes_nil, plain]
      | cons note notes =>
          cases hcache : i.isCache with
          | true =>
              rw [plainNotes_cons_of_isCache rest _ _ hcache, plain_cons_of_isCache rest hcache,
                ← ih]
              exact plain_cons_of_isCache _ hcache
          | false =>
              rw [plainNotes_cons_of_not_isCache rest _ _ hcache,
                plain_cons_of_not_isCache rest hcache, applyNotes_cons, applyNotes_cons, ← ih]
              exact plain_cons_of_not_isCache _ hcache

theorem plainNotes_applyNotes
    (instructions : List Instruction) (notes : List Note) :
    plainNotes (applyNotes instructions notes) notes = plainNotes instructions notes := by
  induction instructions generalizing notes with
  | nil =>
      rfl
  | cons i rest ih =>
      cases notes with
      | nil =>
          rw [plainNotes_nil, plainNotes_nil]
      | cons note notes =>
          cases hcache : i.isCache with
          | true =>
              rw [plainNotes_cons_of_isCache rest _ _ hcache, ← ih]
              exact plainNotes_cons_of_isCache _ _ _ hcache
          | false =>
              rw [plainNotes_cons_of_not_isCache rest _ _ hcache, ← ih]
              exact plainNotes_cons_of_not_isCache _ _ _ hcache

end Notes

namespace Decode

section Listings

variable (t : Table) (env : Environment)

/-- Cache words add no jump targets. -/
theorem targets_decodeChunks
    (showCaches : Bool) (carry : Carry) (cs : List Chunk) :
    targets env (decodeChunks t env showCaches carry cs).instructions =
      targets env (decodeChunks t env false carry cs).instructions := by
  unfold targets
  congr 1
  induction cs generalizing carry with
  | nil =>
      rfl
  | cons c cs ih =>
      have hcaches : (listedCaches t showCaches c).filterMap Instruction.jumpTarget = [] := by
        rw [List.filterMap_eq_nil_iff]
        intro i hi
        exact (listedCaches_frame t showCaches c i hi).2.1
      rw [decodeChunks_cons, decodeChunks_cons, List.filterMap_cons, List.filterMap_cons,
        List.filterMap_append, hcaches, ih]
      rfl

/-- Without its cache words, a listing of bytecode is the one that never had them. -/
theorem plain_decode
    (showCaches : Bool) (code : List UInt8) :
    plain (decode t env showCaches code).instructions =
      (decode t env false code).instructions := by
  simp only [decode]
  rw [plain_markTargets, plain_decodeChunks, targets_decodeChunks]

theorem faults_decode
    (showCaches : Bool) (code : List UInt8) :
    (decode t env showCaches code).faults = (decode t env false code).faults := by
  simp only [decode]
  rw [faults_decodeChunks]

theorem extent_pos
    (code : List UInt8) (p : Nat × Bool) :
    0 < extent t code p := by
  unfold extent widthAt
  split
  · omega
  · split
    · omega
    · split <;> omega

/-- Instructions and cache words stand in order of their offsets. -/
theorem decode_ascending
    (code : List UInt8) :
    (decode t env true code).instructions.Pairwise fun i j => i.offset < j.offset := by
  -- The bytes are covered in order, and each instruction covers the one it starts at.
  have hrange : (List.range (stopAt code (chunks t 0 code).2)).Pairwise (· < ·) :=
    List.pairwise_lt_range
  rw [← covered_decode t env code, List.pairwise_flatMap] at hrange
  refine hrange.2.imp ?_
  intro i j hlt
  have hstart : ∀ i : Instruction, i.offset ∈ bytesAt t code (place i) := by
    intro i
    have hpos := extent_pos t code (place i)
    exact List.mem_range'_1.mpr ⟨Nat.le_refl _, Nat.lt_add_of_pos_right hpos⟩
  exact hlt _ (hstart i) _ (hstart j)

/-- Instructions stand in order of their offsets, with cache words listed or not. -/
theorem pairwise_decode
    (showCaches : Bool) (code : List UInt8) :
    (decode t env showCaches code).instructions.Pairwise fun i j => i.offset < j.offset := by
  have hascending := decode_ascending t env code
  cases showCaches with
  | true =>
      exact hascending
  | false =>
      rw [← plain_decode t env true code]
      exact hascending.filter _

theorem expression_decodeChunks
    (showCaches : Bool) (carry : Carry) (cs : List Chunk) :
    ∀ i ∈ (decodeChunks t env showCaches carry cs).instructions, i.expression = none := by
  induction cs generalizing carry with
  | nil =>
      intro i hi
      cases hi
  | cons c cs ih =>
      intro i hi
      rw [decodeChunks_cons, List.mem_cons, List.mem_append] at hi
      rcases hi with rfl | hi | hi
      · exact (step_frame t env carry c).2.2.2.1
      · exact (listedCaches_frame t showCaches c i hi).2.2
      · exact ih _ i hi

/-- Nothing is folded while bytecode is decoded. -/
theorem expression_decode
    (showCaches : Bool) (code : List UInt8) :
    ∀ i ∈ (decode t env showCaches code).instructions, i.expression = none := by
  intro i hi
  have hmap := map_markTargets Instruction.expression (fun _ _ => rfl)
    (targets env (decodeChunks t env showCaches {} (chunks t 0 code).1).instructions)
    (decodeChunks t env showCaches {} (chunks t 0 code).1).instructions
  have hmem : i.expression ∈ (decodeChunks t env showCaches {} (chunks t 0 code).1).instructions.map
      Instruction.expression := by
    rw [← hmap]
    exact List.mem_map.mpr ⟨i, hi, rfl⟩
  obtain ⟨j, hj, heq⟩ := List.mem_map.mp hmem
  rw [← heq]
  exact expression_decodeChunks t env showCaches {} _ j hj

/-- A listed cache word is one of those of a chunk. -/
theorem exists_listedCaches
    {showCaches : Bool} {code : List UInt8} {i : Instruction}
    (h : i ∈ (decode t env showCaches code).instructions)
    (hcache : i.isCache = true) :
    ∃ c, i ∈ listedCaches t showCaches c := by
  have hchunks : ∀ (carry : Carry) (cs : List Chunk),
      i ∈ (decodeChunks t env showCaches carry cs).instructions →
        ∃ c, i ∈ listedCaches t showCaches c := by
    intro carry cs hi
    induction cs generalizing carry with
    | nil =>
        cases hi
    | cons c cs ih =>
        rw [decodeChunks_cons, List.mem_cons, List.mem_append] at hi
        rcases hi with rfl | hi | hi
        · rw [(step_frame t env carry c).2.2.1] at hcache
          cases hcache
        · exact ⟨c, hi⟩
        · exact ih _ hi
  simp only [decode, markTargets, List.mem_map] at h
  obtain ⟨j, hj, rfl⟩ := h
  split at hcache
  · rename_i hmark
    rw [if_pos hmark] at hchunks ⊢
    exact hchunks _ _ hj
  · rename_i hmark
    exact absurd hcache hmark

/-- A cache word holds one byte, so that there is always room for what it counts. -/
theorem hasRoom_of_isCache
    {showCaches : Bool} {code : List UInt8} {i : Instruction}
    (h : i ∈ (decode t env showCaches code).instructions)
    (hcache : i.isCache = true) :
    Fold.HasRoom t i := by
  obtain ⟨c, hi⟩ := exists_listedCaches t env h hcache
  refine Fold.hasRoom_of_arg_le ?_
  intro n hn
  have hbyte := arg_of_mem_listedCaches t showCaches c i hi n hn
  unfold Fold.capacity
  omega

end Listings
end Decode

section Disassemblies

mutual

/-- The disassembly without its cache words and their notes, and so for all nested ones. -/
def dropCaches : Disassembly → Disassembly
  | ⟨name, table, code, instructions, faults, notes, exceptionEntries, children⟩ =>
    ⟨name, table, code, Decode.plain instructions, faults, plainNotes instructions notes,
      exceptionEntries, dropCachesAll children⟩

def dropCachesAll : List Disassembly → List Disassembly
  | [] => []
  | d :: rest => dropCaches d :: dropCachesAll rest

end

variable (t : Table) (options : Options)

/-- The disassembly of one code object without cache words is the one with them, less these. -/
theorem disassembleAlone_dropCaches
    (c : CodeObject) :
    disassembleAlone t { options with showCaches := false } c =
      (disassembleAlone t { options with showCaches := true } c).map dropCaches := by
  unfold disassembleAlone
  cases Environment.ofCode c t.settings options.dupLines with
  | error e =>
      rfl
  | ok env =>
      have hplain := Decode.plain_decode t env true c.code
      have hfaults := Decode.faults_decode t env true c.code
      have hnotes := annotate?_plain (Decode.decode_ascending t env c.code)
        (Decode.expression_decode t env true c.code)
        (fun i hi hcache => Decode.hasRoom_of_isCache t env hi hcache)
      rw [hplain] at hnotes
      cases hextended : options.extended with
      | true =>
          simp only [notesFor, if_true, ← hnotes]
          cases annotate? t (decode t env true c.code).instructions with
          | none =>
              rfl
          | some notes =>
              simp only [Option.map_some, Except.map, dropCaches, plain_applyNotes,
                plainNotes_applyNotes, hplain, hfaults, dropCachesAll]
      | false =>
          simp only [notesFor, Except.map, dropCaches, if_false, Bool.false_eq_true, plainNotes_nil,
            hplain, hfaults, dropCachesAll]

theorem dropCaches_withChildren
    (d : Disassembly) (children : List Disassembly) :
    dropCaches { d with children := children } =
      { dropCaches d with children := dropCachesAll children } := by
  cases d
  simp only [dropCaches]

theorem consResult_dropCaches
    (first : Except Failure Disassembly) (rest : Except Failure (List Disassembly)) :
    (consResult first rest).map dropCachesAll =
      consResult (first.map dropCaches) (rest.map dropCachesAll) := by
  rcases first with (_ | _) | _ <;> rcases rest with (_ | _) | _ <;> rfl

/-- Without its cache words, a disassembly with cache words is the one without them. -/
theorem disassemble_dropCaches
    (c : CodeObject) :
    (disassemble t { options with showCaches := true } c).map dropCaches =
      disassemble t { options with showCaches := false } c := by
  -- The recursion is that of `disassemble`, through the constants and back.
  refine disassemble.induct t { options with showCaches := true }
    (fun c => (disassemble t { options with showCaches := true } c).map dropCaches =
      disassemble t { options with showCaches := false } c)
    (fun consts =>
      (disassembleNested t { options with showCaches := true } consts).map dropCachesAll =
        disassembleNested t { options with showCaches := false } consts)
    ?aloneFails ?nestedFail ?both ?nil ?code ?noCode c
  case aloneFails =>
    intro name argcount firstLine code consts names varnames cellvars freevars lines table e halone
    rw [disassemble, disassemble, disassembleAlone_dropCaches t options, halone]
    rfl
  case nestedFail =>
    intro name argcount firstLine code consts names varnames cellvars freevars lines table d halone
      e hnested ih
    rw [hnested] at ih
    rw [disassemble, disassemble, disassembleAlone_dropCaches t options, halone, hnested, ← ih]
    rfl
  case both =>
    intro name argcount firstLine code consts names varnames cellvars freevars lines table d halone
      children hnested ih
    rw [hnested] at ih
    rw [disassemble, disassemble, disassembleAlone_dropCaches t options, halone, hnested, ← ih]
    exact congrArg Except.ok (dropCaches_withChildren d children)
  case nil =>
    rfl
  case code =>
    intro c rest ih ihrest
    rw [disassembleNested, disassembleNested, consResult_dropCaches, ih, ihrest]
  case noCode =>
    intro k rest hcode ih
    rw [disassembleNested.eq_3 _ _ k rest hcode, disassembleNested.eq_3 _ _ k rest hcode]
    exact ih

/-- Attributes with a cache word each, in a code object and in one among its constants. -/
def cachedFamily : CodeObject where
  name := "outer"
  code := [101, 0, 106, 1, 0, 0, 106, 2, 0, 0, 83, 0]
  names := ["a", "b", "c"]
  consts := [.code { name := "inner", code := [101, 0, 106, 1, 0, 0], names := ["d", "e"] }]

/-- The offsets and the expressions of the attributes, with the cache words and without them. -/
theorem disassemble_dropCaches_cachedFamily :
    ∃ d, disassemble .sample { showCaches := true, extended := true } cachedFamily = .ok d ∧
      d.walk.map (fun e => (e.instructions.map Instruction.offset, e.notes.map Note.expression)) =
        [([0, 2, 4, 6, 8, 10],
            [some "a", some "a.b", none, some "a.b.c", none, some "return a.b.c"]),
          ([0, 2, 4], [some "d", some "d.e", none])] ∧
      disassemble .sample { extended := true } cachedFamily = .ok (dropCaches d) ∧
      (dropCaches d).walk.map
          (fun e => (e.instructions.map Instruction.offset, e.notes.map Note.expression)) =
        [([0, 2, 6, 10], [some "a", some "a.b", some "a.b.c", some "return a.b.c"]),
          ([0, 2], [some "d", some "d.e"])] := by
  have hdropped := disassemble_dropCaches .sample { extended := true } cachedFamily
  have hshown : (disassemble .sample { showCaches := true, extended := true }
      cachedFamily).toOption.map (fun d => d.walk.map fun e =>
        (e.instructions.map Instruction.offset, e.notes.map Note.expression)) =
      some [([0, 2, 4, 6, 8, 10],
          [some "a", some "a.b", none, some "a.b.c", none, some "return a.b.c"]),
        ([0, 2, 4], [some "d", some "d.e", none])] := by
    decide +kernel
  have hplain : (disassemble .sample { extended := true } cachedFamily).toOption.map
      (fun d => d.walk.map fun e =>
        (e.instructions.map Instruction.offset, e.notes.map Note.expression)) =
      some [([0, 2, 6, 10], [some "a", some "a.b", some "a.b.c", some "return a.b.c"]),
        ([0, 2], [some "d", some "d.e"])] := by
    decide +kernel
  cases hd : disassemble .sample { showCaches := true, extended := true } cachedFamily with
  | error failure =>
      rw [hd] at hshown
      cases hshown
  | ok d =>
      rw [hd] at hshown hdropped
      rw [← hdropped] at hplain ⊢
      exact ⟨d, rfl, Option.some.inj hshown, rfl, Option.some.inj hplain⟩

end Disassemblies
end Disassembler
