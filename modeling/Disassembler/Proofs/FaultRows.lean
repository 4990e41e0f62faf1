import Disassembler.Proofs.Faults
import Disassembler.Proofs.Nested
import Disassembler.Proofs.Reapplied
import Mathlib.Data.List.Sort

/-!
# Faults in a listing

A listing shows what is wrong at an offset on the line of the instruction there, or on a line of its
own after the last instruction.  This module names the lines of a listing, so that it can be said
what each of them shows.

**Input.**  A disassembly that holds what was decoded, with expressions or without.

**Results.**
* `Row` is a line of a listing by what it shows, and `ownLines_eq` says that the listing of a
  disassembly consists of the texts of its rows.
* `Shown d rows`: the rows show the instructions and the faults, each once and at its place, with
  the bytes up to the next instruction.
* `lines_eq_walk`: the whole listing is that of the disassembly followed by those of all nested
  ones.
* `faults_shown`: decoding records each fault once, and a listing shows it once.
-/

namespace Disassembler

namespace Text

section Trimming

/-- Nothing is removed from a text that ends with characters that are not blank. -/
theorem trimRight_append
    (s : String) {r : String}
    (hne : r.toList ≠ [])
    (hr : ∀ c ∈ r.toList, isBlank c = false) :
    trimRight (s ++ r) = s ++ r := by
  have hlast : isBlank (r.toList.getLast hne) = false := hr _ (List.getLast_mem hne)
  rw [← String.toList_inj, trimRight, String.toList_ofList, String.toList_append,
    ← List.dropLast_append_getLast hne]
  simp [dropBlankRight, hlast]

theorem trimRight_append_space
    (s : String) :
    trimRight (s ++ " ") = trimRight s := by
  have hspace : isBlank ' ' = true := by decide
  simp [trimRight, dropBlankRight, hspace]

theorem isBlank_of_mem_encodeChars
    {bytes : List UInt8} {c : Char}
    (h : c ∈ Hex.encodeChars bytes) :
    isBlank c = false := by
  have hdigit : ∀ n < 16, isBlank (Hex.digit n) = false := by
    decide
  induction bytes with
  | nil =>
      cases h
  | cons b rest ih =>
      have hb : b.toNat < 256 := b.toNat_lt
      simp only [Hex.encodeChars, List.mem_cons] at h
      rcases h with rfl | rfl | h
      · exact hdigit _ (by omega)
      · exact hdigit _ (by omega)
      · exact ih h

end Trimming
end Text

namespace Listing

section Rows

/-- A fault with the bytes that are shown for it. -/
structure Mention where
  fault : Fault
  bytes : List UInt8

/-- What is said about a fault; without bytes nothing follows the message. -/
def Mention.text (m : Mention) : String :=
  "<malformed: " ++ m.fault.problem.message ++ ">"
    ++ if m.bytes = [] then "" else " " ++ Text.Hex.encode m.bytes

/-- A line of a listing by what it shows. -/
inductive Row where
  | gap
  | instruction (i : Instruction) (note : Option Note) (mention : Option Mention)
  | extra (mention : Mention)
  | heading
  | handler (e : ExceptionEntry)

namespace Row

/-- The instruction that a row shows. -/
def instruction? : Row → Option Instruction
  | .instruction i _ _ => some i
  | _ => none

/-- The fault that a row shows, with its bytes. -/
def mention? : Row → Option Mention
  | .instruction _ _ mention => mention
  | .extra mention => some mention
  | _ => none

/-- The row shows a fault alone. -/
def isExtra : Row → Bool
  | .extra _ => true
  | _ => false

end Row

/-- The columns of an instruction up to its fault. -/
def columns (t : Table) (style : Style) (i : Instruction) (note : Option Note) : String :=
  margin i.startsLine i.isJumpTarget i.offset ++ Text.padRight 20 i.opname
    ++ (i.arg.map fun arg => " " ++ Text.padLeft 5 (Text.decimal arg)).getD ""
    ++ tail t style i note

/-- The line of a row.  What is said about a fault stands at its end in full. -/
def Row.text (t : Table) (style : Style) : Row → String
  | .gap => ""
  | .instruction i note none => Text.trimRight (columns t style i note)
  | .instruction i note (some mention) => columns t style i note ++ "  " ++ mention.text
  | .extra mention => margin none false mention.fault.offset ++ mention.text
  | .heading => "ExceptionTable:"
  | .handler e => "  " ++ e.text

/-- The offset of the first instruction after another offset, or the end of the bytecode. -/
def nextStart (d : Disassembly) (offset : Nat) : Nat :=
  ((d.instructions.map (·.offset)).find? (offset < ·)).getD d.code.length

/-- A fault with the bytes up to the next instruction. -/
def mention (d : Disassembly) (f : Fault) : Mention :=
  ⟨f, (d.code.take (nextStart d f.offset)).drop f.offset⟩

/-- The rows of instructions with their notes. -/
def instructionRows (d : Disassembly) (isFirst : Bool) :
    List Instruction → List Note → List Row
  | [], _ => []
  | i :: rest, notes =>
    (if !isFirst && i.startsLine.isSome then [.gap] else [])
      ++ .instruction i notes.head? ((d.faultAt i.offset).map (mention d))
        :: instructionRows d false rest (notes.drop 1)

/-- The rows of faults where no instruction starts. -/
def extraRows (d : Disassembly) : List Row :=
  (looseFaults d).map fun f => .extra (mention d f)

/-- The rows of the exception handlers, if there are any. -/
def handlerRows (entries : List ExceptionEntry) : List Row :=
  if entries.isEmpty then [] else .heading :: entries.map .handler

/-- The rows of a disassembly without nested ones. -/
def rows (d : Disassembly) : List Row :=
  instructionRows d true d.instructions d.notes ++ (extraRows d ++ handlerRows d.exceptionEntries)

end Rows

section Texts

variable (t : Table) (style : Style) (d : Disassembly)

/-- A line with a fault at its end loses no more than the space before missing bytes. -/
theorem trimRight_faultText
    (s : String) (f : Fault) :
    Text.trimRight (s ++ faultText d f) = s ++ (mention d f).text := by
  have hfault : faultText d f = "<malformed: " ++ f.problem.message ++ "> "
      ++ Text.Hex.encode (mention d f).bytes := rfl
  have hmention : (mention d f).text = "<malformed: " ++ f.problem.message ++ ">"
      ++ if (mention d f).bytes = [] then "" else " " ++ Text.Hex.encode (mention d f).bytes := rfl
  rw [hfault, hmention]
  generalize (mention d f).bytes = bytes
  have hspace : "> " = ">" ++ " " := rfl
  simp only [hspace, ← String.append_assoc]
  cases bytes with
  | nil =>
      have hempty : Text.Hex.encode [] = "" := rfl
      have hmark : Text.isBlank '>' = false := by decide
      rw [hempty, String.append_empty, Text.trimRight_append_space, if_pos rfl,
        String.append_empty]
      exact Text.trimRight_append _ (by simp) (by simp [hmark])
  | cons b rest =>
      rw [if_neg (List.cons_ne_nil b rest), ← String.append_assoc]
      have htext : (Text.Hex.encode (b :: rest)).toList = Text.Hex.encodeChars (b :: rest) :=
        String.toList_ofList
      refine Text.trimRight_append _ ?_ ?_
      · rw [htext]
        exact List.cons_ne_nil _ _
      · rw [htext]
        exact fun c hc => Text.isBlank_of_mem_encodeChars hc

/-- The line of an instruction has its columns, and what is wrong with it at the end. -/
theorem line_eq_columns
    (i : Instruction) (note : Option Note) :
    line t style d i note =
      Text.trimRight (columns t style i note ++
        ((d.faultAt i.offset).map fun f => "  " ++ faultText d f).getD "") := by
  cases harg : i.arg <;> cases hfault : d.faultAt i.offset <;>
    simp only [line, columns, harg, hfault, Option.map_none, Option.map_some, Option.getD_none,
      Option.getD_some]

theorem line_eq
    (i : Instruction) (note : Option Note) :
    line t style d i note =
      Row.text t style (.instruction i note ((d.faultAt i.offset).map (mention d))) := by
  rw [line_eq_columns]
  cases d.faultAt i.offset with
  | none =>
      rw [Option.map_none, Option.getD_none, String.append_empty]
      rfl
  | some f =>
      rw [Option.map_some, Option.getD_some, ← String.append_assoc, trimRight_faultText]
      rfl

theorem instructionLines_eq
    (isFirst : Bool) (is : List Instruction) (notes : List Note) :
    instructionLines t style d isFirst is notes =
      (instructionRows d isFirst is notes).map (Row.text t style) := by
  induction is generalizing isFirst notes with
  | nil =>
      rfl
  | cons i rest ih =>
      rw [instructionLines, instructionRows, List.map_append, List.map_cons, ih, line_eq]
      congr 1
      split <;> rfl

/-- A listing consists of the texts of its rows. -/
theorem ownLines_eq :
    ownLines t style d = (rows d).map (Row.text t style) := by
  have hextra : (looseFaults d).map
        (fun f => Text.trimRight (margin none false f.offset ++ faultText d f)) =
      (extraRows d).map (Row.text t style) := by
    rw [extraRows, List.map_map]
    exact List.map_congr_left fun f _ => trimRight_faultText d _ f
  have hhandlers : exceptionLines d.exceptionEntries =
      (handlerRows d.exceptionEntries).map (Row.text t style) := by
    unfold exceptionLines handlerRows
    split
    · rfl
    · rw [List.map_cons, List.map_map]
      rfl
  rw [ownLines, rows, List.map_append, List.map_append, instructionLines_eq, hextra, hhandlers,
    List.append_assoc]

end Texts

section Facts

open Decode (FaultsApart Ascending NotTruncated)

/-- What a listing relies on: instructions and faults in order, within the bytecode. -/
structure Orderly (d : Disassembly) : Prop where
  ascending : d.instructions.Pairwise fun i j => i.offset < j.offset
  instructions : ∀ i ∈ d.instructions, i.offset ≤ d.code.length
  faults : ∀ f ∈ d.faults, f.offset ≤ d.code.length
  apart : FaultsApart ⟨d.instructions, d.faults⟩

variable {d : Disassembly} {f : Fault} {i : Instruction}

theorem Orderly.faultAt_eq_some_iff
    (h : Orderly d) {offset : Nat} :
    d.faultAt offset = some f ↔ f ∈ d.faults ∧ f.offset = offset :=
  Decode.find?_eq_some_iff_of_ascending h.apart.ascending

theorem mem_looseFaults_iff :
    f ∈ looseFaults d ↔ f ∈ d.faults ∧ ∀ i ∈ d.instructions, i.offset ≠ f.offset := by
  simp [looseFaults]

/-- A fault without an instruction is a truncation, and comes last. -/
theorem Orderly.of_mem_looseFaults
    (h : Orderly d)
    (hf : f ∈ looseFaults d) :
    d.faults.getLast? = some f ∧ ∀ i ∈ d.instructions, i.offset < f.offset := by
  obtain ⟨hmem, hloose⟩ := mem_looseFaults_iff.mp hf
  by_cases hproblem : NotTruncated f.problem
  · obtain ⟨i, hi, _, hoffset⟩ := h.apart.other f hmem hproblem
    exact absurd hoffset (hloose i hi)
  · simp only [NotTruncated, ne_eq, not_forall, not_not] at hproblem
    obtain ⟨needed, remaining, hproblem⟩ := hproblem
    exact h.apart.truncated f hmem needed remaining hproblem

/-- There is one fault without an instruction at most. -/
theorem Orderly.length_looseFaults
    (h : Orderly d) :
    (looseFaults d).length ≤ 1 := by
  have hascending : Ascending (looseFaults d) := h.apart.ascending.filter _
  match hloose : looseFaults d with
  | [] | [_] =>
      simp
  | f :: g :: rest =>
      rw [hloose] at hascending
      have hlt := (List.pairwise_cons.mp hascending).1 g List.mem_cons_self
      have hf := (h.of_mem_looseFaults (f := f) (by simp [hloose])).1
      have hg := (h.of_mem_looseFaults (f := g) (by simp [hloose])).1
      rw [hf, Option.some.injEq] at hg
      rw [hg] at hlt
      exact absurd hlt (Nat.lt_irrefl _)

/-- The faults at instructions and those without one, in this order, are all faults. -/
theorem Orderly.faults_eq
    (h : Orderly d) :
    (d.instructions.filterMap fun i => d.faultAt i.offset) ++ looseFaults d = d.faults := by
  have hirrefl : Std.Irrefl fun f g : Fault => f.offset < g.offset :=
    ⟨fun f => Nat.lt_irrefl f.offset⟩
  have hantisymm : Std.Antisymm fun f g : Fault => f.offset < g.offset :=
    ⟨fun f g hfg hgf => absurd hfg (Nat.lt_asymm hgf)⟩
  -- Both sides ascend, so they are equal if they have the same members.
  refine List.Pairwise.eq_of_mem_iff ?_ h.apart.ascending ?_
  · refine List.pairwise_append.mpr ⟨?_, h.apart.ascending.filter _, ?_⟩
    · refine h.ascending.filterMap _ ?_
      intro i j hij f hf g hg
      rw [(h.faultAt_eq_some_iff.mp hf).2, (h.faultAt_eq_some_iff.mp hg).2]
      exact hij
    · intro f hf g hg
      obtain ⟨i, hi, hfi⟩ := List.mem_filterMap.mp hf
      rw [(h.faultAt_eq_some_iff.mp hfi).2]
      exact (h.of_mem_looseFaults hg).2 i hi
  · intro f
    rw [List.mem_append, List.mem_filterMap, mem_looseFaults_iff]
    constructor
    · rintro (⟨i, _, hf⟩ | ⟨hf, _⟩)
      · exact (h.faultAt_eq_some_iff.mp hf).1
      · exact hf
    · intro hf
      by_cases hat : ∃ i ∈ d.instructions, i.offset = f.offset
      · obtain ⟨i, hi, hoffset⟩ := hat
        exact Or.inl ⟨i, hi, h.faultAt_eq_some_iff.mpr ⟨hf, hoffset.symm⟩⟩
      · exact Or.inr ⟨hf, fun i hi hoffset => hat ⟨i, hi, hoffset⟩⟩

/-- The instruction at the offset of a fault is no cache word. -/
theorem Orderly.isCache_of_faultAt
    (h : Orderly d)
    (hi : i ∈ d.instructions)
    (hf : d.faultAt i.offset = some f) :
    i.isCache = false := by
  obtain ⟨hmem, hoffset⟩ := h.faultAt_eq_some_iff.mp hf
  have hproblem : NotTruncated f.problem := by
    intro needed remaining hproblem
    have hlt := (h.apart.truncated f hmem needed remaining hproblem).2 i hi
    omega
  obtain ⟨j, hj, hplain, hsame⟩ := h.apart.other f hmem hproblem
  have hoffsets : (d.instructions.map Instruction.offset).Nodup :=
    List.pairwise_map.mpr (h.ascending.imp Nat.ne_of_lt)
  rwa [← List.inj_on_of_nodup_map hoffsets hj hi (hsame.trans hoffset)]

end Facts

section Bytes

variable {d : Disassembly}

/-- The bytes of a mention go from its offset to the next instruction, or to the end of the bytecode
where there is none. -/
structure Reaches (d : Disassembly) (m : Mention) (stop : Nat) : Prop where
  next : (∃ i ∈ d.instructions, i.offset = stop ∧ m.fault.offset < stop) ∨
    stop = d.code.length ∧ ∀ i ∈ d.instructions, i.offset ≤ m.fault.offset
  first : ∀ i ∈ d.instructions, m.fault.offset < i.offset → stop ≤ i.offset
  inside : m.fault.offset ≤ stop ∧ stop ≤ d.code.length
  bytes : m.bytes = (d.code.drop m.fault.offset).take (stop - m.fault.offset)

theorem Orderly.reaches
    (h : Orderly d) {f : Fault}
    (hf : f ∈ d.faults) :
    Reaches d (mention d f) (nextStart d f.offset) := by
  have hbytes : (mention d f).bytes =
      (d.code.drop f.offset).take (nextStart d f.offset - f.offset) :=
    List.drop_take
  have hoffsets : (d.instructions.map (·.offset)).Pairwise (· < ·) :=
    List.pairwise_map.mpr h.ascending
  cases hfind : (d.instructions.map (·.offset)).find? (f.offset < ·) with
  | none =>
      have hnext : nextStart d f.offset = d.code.length := by
        rw [nextStart, hfind, Option.getD_none]
      have hall : ∀ i ∈ d.instructions, i.offset ≤ f.offset := by
        simpa using hfind
      refine ⟨Or.inr ⟨hnext, hall⟩, ?_, ⟨hnext ▸ h.faults f hf, hnext.le⟩, hbytes⟩
      intro i hi hlt
      exact absurd (hall i hi) (Nat.not_le.mpr hlt)
  | some stop =>
      have hnext : nextStart d f.offset = stop := by
        rw [nextStart, hfind, Option.getD_some]
      obtain ⟨i, hi, hstop⟩ := List.mem_map.mp (List.mem_of_find?_eq_some hfind)
      obtain ⟨hlt, before, after, hsplit, hbefore⟩ := List.find?_eq_some_iff_append.mp hfind
      rw [decide_eq_true_eq] at hlt
      rw [hsplit, List.pairwise_append, List.pairwise_cons] at hoffsets
      rw [hnext] at hbytes ⊢
      refine ⟨Or.inl ⟨i, hi, hstop, hlt⟩, ?_, ⟨hlt.le, hstop ▸ h.instructions i hi⟩, hbytes⟩
      intro j hj hjlt
      have hmem : j.offset ∈ before ++ stop :: after := hsplit ▸ List.mem_map_of_mem hj
      rcases List.mem_append.mp hmem with hj | hj
      · have hnot := hbefore _ hj
        simp only [Bool.not_eq_true', decide_eq_false_iff_not] at hnot
        exact absurd hjlt hnot
      · rcases List.mem_cons.mp hj with heq | hj
        · exact heq.ge
        · exact (hoffsets.2.1.1 _ hj).le

end Bytes

section Showing

/-- The rows of a listing show the instructions and the faults of a disassembly. -/
structure Shown (d : Disassembly) (rows : List Row) : Prop where
  -- Every instruction has one row.
  instructions : rows.filterMap Row.instruction? = d.instructions
  -- Every fault has one row.
  faults : (rows.filterMap Row.mention?).map Mention.fault = d.faults
  -- On the row of an instruction stands a fault at its offset.
  own : ∀ i note m, Row.instruction i note (some m) ∈ rows →
    m.fault.offset = i.offset ∧ i.isCache = false
  -- There is one other row with a fault at most,
  extra : (rows.filter Row.isExtra).length ≤ 1
  -- which comes after all instructions.
  last : ∃ above below, rows = above ++ below ∧ (∀ r ∈ above, r.isExtra = false) ∧
    ∀ r ∈ below, r.instruction? = none
  -- The bytes of a fault are those up to the next instruction.
  bytes : ∀ m ∈ rows.filterMap Row.mention?, ∃ stop, Reaches d m stop

variable (d : Disassembly)

/-- What is read off the rows of instructions, where neither gaps nor notes matter. -/
theorem filterMap_instructionRows
    {α : Type} {g : Row → Option α} {k : Instruction → Option Mention → Option α}
    (hgap : g .gap = none)
    (hk : ∀ i note m, g (.instruction i note m) = k i m)
    (isFirst : Bool) (is : List Instruction) (notes : List Note) :
    (instructionRows d isFirst is notes).filterMap g =
      is.filterMap fun i => k i ((d.faultAt i.offset).map (mention d)) := by
  induction is generalizing isFirst notes with
  | nil =>
      rfl
  | cons i rest ih =>
      have hgaps :
          (if !isFirst && i.startsLine.isSome then [Row.gap] else []).filterMap g = [] := by
        split <;> simp [hgap]
      rw [instructionRows, List.filterMap_append, hgaps, List.nil_append, List.filterMap_cons,
        List.filterMap_cons, hk, ih]

theorem of_mem_instructionRows
    {isFirst : Bool} {is : List Instruction} {notes : List Note} {r : Row}
    (h : r ∈ instructionRows d isFirst is notes) :
    r = .gap ∨ ∃ i ∈ is, ∃ note,
      r = .instruction i note ((d.faultAt i.offset).map (mention d)) := by
  induction is generalizing isFirst notes with
  | nil =>
      cases h
  | cons i rest ih =>
      rw [instructionRows, List.mem_append, List.mem_cons] at h
      rcases h with h | rfl | h
      · split at h
        · exact Or.inl (List.mem_singleton.mp h)
        · cases h
      · exact Or.inr ⟨i, List.mem_cons_self, _, rfl⟩
      · rcases ih h with hgap | ⟨j, hj, hrow⟩
        · exact Or.inl hgap
        · exact Or.inr ⟨j, List.mem_cons_of_mem i hj, hrow⟩

/-- The rows of exception handlers show neither instructions nor faults. -/
theorem of_mem_handlerRows
    {entries : List ExceptionEntry} {r : Row}
    (h : r ∈ handlerRows entries) :
    r.instruction? = none ∧ r.mention? = none ∧ r.isExtra = false := by
  unfold handlerRows at h
  split at h
  · cases h
  · rcases List.mem_cons.mp h with rfl | h
    · exact ⟨rfl, rfl, rfl⟩
    · obtain ⟨e, _, rfl⟩ := List.mem_map.mp h
      exact ⟨rfl, rfl, rfl⟩

theorem isExtra_of_mem_instructionRows
    {isFirst : Bool} {is : List Instruction} {notes : List Note} {r : Row}
    (h : r ∈ instructionRows d isFirst is notes) :
    r.isExtra = false := by
  rcases of_mem_instructionRows d h with rfl | ⟨i, _, note, rfl⟩ <;> rfl

/-- After the instructions no more of them are shown. -/
theorem instruction_of_mem_closing
    {r : Row}
    (h : r ∈ extraRows d ++ handlerRows d.exceptionEntries) :
    r.instruction? = none := by
  rcases List.mem_append.mp h with h | h
  · obtain ⟨f, _, rfl⟩ := List.mem_map.mp h
    rfl
  · exact (of_mem_handlerRows h).1

theorem filter_isExtra_rows :
    (rows d).filter Row.isExtra = extraRows d := by
  have hinstructions : (instructionRows d true d.instructions d.notes).filter Row.isExtra = [] :=
    List.filter_eq_nil_iff.mpr fun r hr => by simp [isExtra_of_mem_instructionRows d hr]
  have hextra : (extraRows d).filter Row.isExtra = extraRows d := by
    refine List.filter_eq_self.mpr ?_
    intro r hr
    obtain ⟨f, _, rfl⟩ := List.mem_map.mp hr
    rfl
  have hhandlers : (handlerRows d.exceptionEntries).filter Row.isExtra = [] :=
    List.filter_eq_nil_iff.mpr fun r hr => by simp [(of_mem_handlerRows hr).2.2]
  rw [rows, List.filter_append, List.filter_append, hinstructions, hextra, hhandlers,
    List.nil_append, List.append_nil]

theorem filterMap_instruction_rows :
    (rows d).filterMap Row.instruction? = d.instructions := by
  have hclosing : (extraRows d ++ handlerRows d.exceptionEntries).filterMap Row.instruction? = [] :=
    List.filterMap_eq_nil_iff.mpr fun r hr => instruction_of_mem_closing d hr
  rw [rows, List.filterMap_append, hclosing, List.append_nil,
    filterMap_instructionRows d (k := fun i _ => some i) rfl fun _ _ _ => rfl]
  exact List.filterMap_some

variable {d}

/-- The rows show every fault, with its bytes. -/
theorem Orderly.filterMap_mention_rows
    (h : Orderly d) :
    (rows d).filterMap Row.mention? = d.faults.map (mention d) := by
  have hextra : (extraRows d).filterMap Row.mention? = (looseFaults d).map (mention d) := by
    rw [extraRows, List.filterMap_map]
    exact congrFun List.filterMap_eq_map (looseFaults d)
  have hhandlers : (handlerRows d.exceptionEntries).filterMap Row.mention? = [] :=
    List.filterMap_eq_nil_iff.mpr fun r hr => (of_mem_handlerRows hr).2.1
  rw [rows, List.filterMap_append, List.filterMap_append, hextra, hhandlers, List.append_nil,
    filterMap_instructionRows d (k := fun _ m => m) rfl fun _ _ _ => rfl, ← h.faults_eq,
    List.map_append, List.map_filterMap]

/-- The rows of a disassembly in order show what they should. -/
theorem Orderly.shown
    (h : Orderly d) :
    Shown d (rows d) := by
  have hmentions := h.filterMap_mention_rows
  constructor
  case instructions =>
    exact filterMap_instruction_rows d
  case faults =>
    rw [hmentions, List.map_map]
    exact List.map_id d.faults
  case own =>
    intro i note m hrow
    rcases List.mem_append.mp hrow with hrow | hrow
    · rcases of_mem_instructionRows d hrow with heq | ⟨j, hj, note', heq⟩
      · cases heq
      · obtain ⟨rfl, _, hm⟩ := Row.instruction.inj heq
        obtain ⟨f, hf, rfl⟩ := Option.map_eq_some_iff.mp hm.symm
        exact ⟨(h.faultAt_eq_some_iff.mp hf).2, h.isCache_of_faultAt hj hf⟩
    · cases instruction_of_mem_closing d hrow
  case extra =>
    rw [filter_isExtra_rows, extraRows, List.length_map]
    exact h.length_looseFaults
  case last =>
    exact ⟨instructionRows d true d.instructions d.notes, _, rfl,
      fun r hr => isExtra_of_mem_instructionRows d hr,
      fun r hr => instruction_of_mem_closing d hr⟩
  case bytes =>
    intro m hm
    rw [hmentions] at hm
    obtain ⟨f, hf, rfl⟩ := List.mem_map.mp hm
    exact ⟨_, h.reaches hf⟩

end Showing

section Decoding

open Decode (Decoded FaultsApart PlainExtensions place)

/-- A disassembly holds what was decoded, whatever was folded into the instructions. -/
structure Holds (d : Disassembly) (code : List UInt8) (decoded : Decoded) : Prop where
  code : d.code = code
  faults : d.faults = decoded.faults
  instructions :
    d.instructions.map Instruction.unfolded = decoded.instructions.map Instruction.unfolded

variable {d : Disassembly} {code : List UInt8} {decoded : Decoded}

theorem Holds.map_place
    (h : Holds d code decoded) :
    d.instructions.map place = decoded.instructions.map place := by
  have hplaces := congrArg (List.map place) h.instructions
  rw [List.map_map, List.map_map] at hplaces
  exact hplaces

theorem Holds.exists_decoded
    (h : Holds d code decoded) {i : Instruction}
    (hi : i ∈ d.instructions) :
    ∃ j ∈ decoded.instructions, j.offset = i.offset ∧ j.isCache = i.isCache := by
  have hmem : place i ∈ decoded.instructions.map place := h.map_place ▸ List.mem_map_of_mem hi
  obtain ⟨j, hj, heq⟩ := List.mem_map.mp hmem
  exact ⟨j, hj, Prod.mk.inj heq⟩

theorem Holds.exists_held
    (h : Holds d code decoded) {i : Instruction}
    (hi : i ∈ decoded.instructions) :
    ∃ j ∈ d.instructions, j.offset = i.offset ∧ j.isCache = i.isCache := by
  have hmem : place i ∈ d.instructions.map place := h.map_place ▸ List.mem_map_of_mem hi
  obtain ⟨j, hj, heq⟩ := List.mem_map.mp hmem
  exact ⟨j, hj, Prod.mk.inj heq⟩

/-- Where the instructions stand is all that matters to where the faults stand. -/
theorem Holds.faultsApart
    (h : Holds d code decoded)
    (hapart : FaultsApart decoded) :
    FaultsApart ⟨d.instructions, d.faults⟩ := by
  constructor
  case ascending =>
    exact h.faults ▸ hapart.ascending
  case truncated =>
    intro f hf needed remaining hproblem
    obtain ⟨hlast, hafter⟩ := hapart.truncated f (h.faults ▸ hf) needed remaining hproblem
    refine ⟨h.faults ▸ hlast, ?_⟩
    intro i hi
    obtain ⟨j, hj, hoffset, _⟩ := h.exists_decoded hi
    exact hoffset ▸ hafter j hj
  case other =>
    intro f hf hproblem
    obtain ⟨i, hi, hplain, hoffset⟩ := hapart.other f (h.faults ▸ hf) hproblem
    obtain ⟨j, hj, hsame, hcache⟩ := h.exists_held hi
    exact ⟨j, hj, hcache.trans hplain, hsame.trans hoffset⟩

variable {t : Table} {env : Environment} {showCaches : Bool}

/-- What was decoded stands in order. -/
theorem Holds.orderly
    (h : Holds d code (decode t env showCaches code))
    (hextensions : PlainExtensions t) :
    Orderly d := by
  have hapart := Decode.faultsApart_decode t env showCaches code hextensions
  have hstop := (Decode.cut_chunks t code).stopAt_bounds.2
  have hinside : ∀ i ∈ d.instructions, i.offset ≤ d.code.length := by
    intro i hi
    obtain ⟨j, hj, hoffset, _⟩ := h.exists_decoded hi
    have hlt := Decode.offset_lt_stopAt t env showCaches code hj
    rw [h.code, ← hoffset]
    omega
  refine ⟨?_, hinside, ?_, h.faultsApart hapart⟩
  · have hoffsets := congrArg (List.map Prod.fst) h.map_place
    rw [List.map_map, List.map_map] at hoffsets
    have hpairwise := List.pairwise_map.mpr (Decode.pairwise_decode t env showCaches code)
    exact List.pairwise_map.mp (hoffsets ▸ hpairwise)
  · intro f hf
    rw [h.code]
    exact Decode.fault_le_length t env showCaches code (h.faults ▸ hf)

/-- A disassembly holds what was decoded of its code object. -/
theorem holds_of_aloneIs
    {options : Options} {c : CodeObject}
    (h : AloneIs t options d c) :
    ∃ env, Holds d c.code (decode t env options.showCaches c.code) := by
  obtain ⟨env, _, _, hfaults, hlisted⟩ := h.decoded
  refine ⟨env, h.code, hfaults, ?_⟩
  split at hlisted
  · obtain ⟨_, _, hrepeated⟩ := Fold.repeated_annotateFrom? List.Forall₂.nil hlisted.1
    rw [hlisted.2]
    exact hrepeated.map_unfolded
  · rw [hlisted.2]

end Decoding

section Nesting

variable (t : Table) (style : Style)

/-- The lines of a nested disassembly after its heading, without those nested in it. -/
def nestedLines (d : Disassembly) : List String :=
  "" :: ("Disassembly of <code object " ++ d.name ++ ">:") :: (rows d).map (Row.text t style)

theorem childLines_eq_walkAll :
    ∀ ds : List Disassembly,
      childLines t style ds = (Disassembly.walkAll ds).flatMap (nestedLines t style)
  | [] => rfl
  | ⟨name, table, code, instructions, faults, notes, exceptionEntries, children⟩ :: rest => by
      rw [childLines, Disassembly.walkAll, Disassembly.walk, lines, childLines_eq_walkAll children,
        childLines_eq_walkAll rest, ownLines_eq]
      simp [nestedLines]

/-- The whole listing is that of the disassembly, followed by those of all nested ones, each before
those inside it. -/
theorem lines_eq_walk
    (d : Disassembly) :
    lines t style d =
      (rows d).map (Row.text t style) ++ d.walk.tail.flatMap (nestedLines t style) := by
  cases d
  rw [lines, Disassembly.walk, ownLines_eq, childLines_eq_walkAll, List.tail_cons]

/-- Every disassembly of a walk holds what was decoded of a code object. -/
theorem holds_of_mem_walk
    {t : Table} {options : Options} {c : CodeObject} {d e : Disassembly}
    (h : disassemble t options c = .ok d)
    (he : e ∈ d.walk) :
    ∃ env code, Holds e code (decode t env options.showCaches code) := by
  have hall : List.Forall₂ (fun e k =>
      (∃ env code, Holds e code (decode t env options.showCaches code)) ∧ AloneIs t options e k)
      d.walk c.preorder := by
    refine (walk_of_disassemble h).imp ?_
    intro e k halone
    obtain ⟨env, hheld⟩ := holds_of_aloneIs halone
    exact ⟨⟨env, k.code, hheld⟩, halone⟩
  exact ((List.forall₂_and_left _ _).mp hall).1 e he

end Nesting

/-- Decoding records each fault once, and a listing shows it once: at its instruction, or on one
line after all of them, with the bytes up to the next instruction. -/
theorem faults_shown
    {b : Table.Builder}
    (hreach : Table.Reachable b) (hfrozen : b.frozen = true)
    (hclasses : ∀ x, b.table.opcodeOf "EXTENDED_ARG" = some x →
      ∀ c ∈ OpClass.operand, b.table.is x c = false)
    (style : Style) :
    (∀ env showCaches code,
      Decode.FaultsApart (decode b.table env showCaches code) ∧
      (∀ f ∈ (decode b.table env showCaches code).faults,
        (decode b.table env showCaches code).faultAt f.offset = some f) ∧
      ∀ d, Holds d code (decode b.table env showCaches code) →
        ownLines b.table style d = (rows d).map (Row.text b.table style) ∧ Shown d (rows d)) ∧
    ∀ options c d, disassemble b.table options c = .ok d →
      render b.table style d =
        Text.unlines ((rows d).map (Row.text b.table style) ++
          d.walk.tail.flatMap (nestedLines b.table style)) ∧
      ∀ e ∈ d.walk, Shown e (rows e) := by
  have hextensions := Decode.plainExtensions_of_operandClasses hreach hfrozen hclasses
  refine ⟨?_, ?_⟩
  · intro env showCaches code
    have hapart := Decode.faultsApart_decode b.table env showCaches code hextensions
    refine ⟨hapart, ?_, ?_⟩
    · intro f hf
      exact (Decode.find?_eq_some_iff_of_ascending hapart.ascending).mpr ⟨hf, rfl⟩
    · intro d hd
      exact ⟨ownLines_eq b.table style d, (hd.orderly hextensions).shown⟩
  · intro options c d hd
    refine ⟨by rw [render, lines_eq_walk], ?_⟩
    intro e he
    obtain ⟨env, code, hheld⟩ := holds_of_mem_walk hd he
    exact (hheld.orderly hextensions).shown

section Sample

/-- An opcode that is not defined, a jump before the first byte, and a jump without its cache
word. -/
def brokenCode : List UInt8 :=
  [1, 0, 140, 9, 0, 0, 9, 0, 140, 0, 7]

/-- The disassembly of the sample alone, with cache words. -/
def brokenListing : Disassembly where
  name := "broken"
  table := Table.sampleFrozen.table.key
  code := brokenCode
  instructions := (decode Table.sampleFrozen.table {} true brokenCode).instructions
  faults := (decode Table.sampleFrozen.table {} true brokenCode).faults
  notes := []
  exceptionEntries := []
  children := []

/-- Two of the three faults stand at instructions, up to the cache word in the second case; the
third one comes after all of them. -/
theorem faults_shown_brokenCode :
    Holds brokenListing brokenCode (decode Table.sampleFrozen.table {} true brokenCode) ∧
    brokenListing.faults =
      [⟨0, .unknownOpcode 1⟩, ⟨2, .jumpOutOfRange⟩, ⟨10, .truncated 2 1⟩] ∧
    (rows brokenListing).map (fun r => (r.isExtra, r.mention?.map Mention.bytes)) =
      [(false, some [1, 0]), (false, some [140, 9]), (false, none), (false, none), (false, none),
        (true, some [7])] ∧
    ownLines Table.sampleFrozen.table .basic brokenListing =
      (rows brokenListing).map (Row.text Table.sampleFrozen.table .basic) ∧
    Shown brokenListing (rows brokenListing) := by
  have hopcode : Table.sampleFrozen.table.opcodeOf "EXTENDED_ARG" = some 144 := by
    decide
  have hclasses : ∀ x, Table.sampleFrozen.table.opcodeOf "EXTENDED_ARG" = some x →
      ∀ c ∈ OpClass.operand, Table.sampleFrozen.table.is x c = false := by
    rw [hopcode]
    rintro x ⟨⟩
    decide
  have hholds : Holds brokenListing brokenCode
      (decode Table.sampleFrozen.table {} true brokenCode) := ⟨rfl, rfl, rfl⟩
  have hshown := (faults_shown Table.reachable_sampleFrozen Table.frozen_sampleFrozen hclasses
    .basic).1 {} true brokenCode
  exact ⟨hholds, by decide +kernel, by decide +kernel, hshown.2.2 brokenListing hholds⟩

end Sample

end Listing
end Disassembler
