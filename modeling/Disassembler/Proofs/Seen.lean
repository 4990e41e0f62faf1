import Disassembler.Fold.Annotate

/-!
# The pass of folding

Folding goes through the instructions once and keeps what it has seen.  This module names the past
after a list of instructions and the values that lie on the stack at its end.

**Results.**
* `noteOf` and `annotate` give a note to every instruction, also where there is no room for its
  operands.  They are what the pass gives, if it gives notes (`eq_annotate`).
* `seen` is the past after some more instructions; it holds their notes (`map_note_seen`).
* `Holds t past vs base` says that the past ends with the values `vs`, the top one first, and that
  `base` is what was seen before all that contributes to them.  Then the operands that a rule asks
  for are exactly these values (`operandsFrom_of_holds`).
-/

namespace Disassembler
namespace Fold

section Pass

/-- The note of an instruction that comes after the past.  One that there is no room for the
operands of gets none of its own, as if its rule did not apply. -/
def noteOf (t : Table) (past : Past) (i : Instruction) : Note :=
  (noteOf? t past i).getD ⟨none, seed t i, none⟩

theorem noteOf_eq
    (t : Table) (past : Past) (i : Instruction) :
    noteOf t past i =
      match i.expression with
      | some text => ⟨some text, i.foldStart, some text⟩
      | none =>
        match ruleOf t i with
        | none => if isLoad t i then ⟨some i.repr, some i.offset, none⟩ else ⟨none, seed t i, none⟩
        | some rule =>
          match fold t past i rule with
          | .folded text start => ⟨some text, some start, some text⟩
          | .degraded text => ⟨none, seed t i, some text⟩
          | .declined | .overflow => ⟨none, seed t i, none⟩ := by
  unfold noteOf noteOf?
  cases i.expression with
  | some text =>
      rfl
  | none =>
      cases ruleOf t i with
      | none =>
          rfl
      | some rule =>
          dsimp only
          cases fold t past i rule <;> rfl

/-- The notes of instructions that come after the past. -/
def annotateFrom (t : Table) (past : Past) : List Instruction → List Note
  | [] => []
  | i :: rest =>
    noteOf t past i :: annotateFrom t (⟨i, noteOf t past i⟩ :: past) rest

/-- The notes of instructions. -/
def annotate (t : Table) (is : List Instruction) : List Note :=
  annotateFrom t [] is

theorem noteOf_eq_of_some
    {t : Table} {past : Past} {i : Instruction} {note : Note}
    (h : noteOf? t past i = some note) :
    noteOf t past i = note := by
  rw [noteOf, h, Option.getD_some]

/-- The first note is seen by the pass over the instructions after it. -/
theorem annotateFrom?_cons
    (t : Table) (past : Past) (i : Instruction) (rest : List Instruction) :
    annotateFrom? t past (i :: rest) =
      (noteOf? t past i).bind fun note =>
        (annotateFrom? t (⟨i, note⟩ :: past) rest).map (note :: ·) := by
  simp [annotateFrom?, Option.map_eq_bind, Function.comp_def]

theorem eq_annotateFrom
    {t : Table} {past : Past} {is : List Instruction} {notes : List Note}
    (h : annotateFrom? t past is = some notes) :
    notes = annotateFrom t past is := by
  induction is generalizing past notes with
  | nil =>
      cases h
      rfl
  | cons i rest ih =>
      rw [annotateFrom?_cons, Option.bind_eq_some_iff] at h
      obtain ⟨note, hnote, hrest⟩ := h
      obtain ⟨more, hmore, rfl⟩ := Option.map_eq_some_iff.mp hrest
      rw [annotateFrom, noteOf_eq_of_some hnote, ← ih hmore]

/-- If the pass gives notes, they are the notes of the instructions. -/
theorem eq_annotate
    {t : Table} {is : List Instruction} {notes : List Note}
    (h : annotate? t is = some notes) :
    notes = annotate t is :=
  eq_annotateFrom h

/-- The past after some more instructions. -/
def seen (t : Table) (past : Past) : List Instruction → Past
  | [] => past
  | i :: rest => seen t (⟨i, noteOf t past i⟩ :: past) rest

@[simp] theorem seen_nil
    (t : Table) (past : Past) :
    seen t past [] = past := by
  rfl

@[simp] theorem seen_cons
    (t : Table) (past : Past) (i : Instruction) (rest : List Instruction) :
    seen t past (i :: rest) =
      seen t (⟨i, noteOf t past i⟩ :: past) rest := by
  rfl

/-- The second of two lists is seen after the first. -/
@[simp] theorem seen_append
    (t : Table) (past : Past) (xs ys : List Instruction) :
    seen t past (xs ++ ys) = seen t (seen t past xs) ys := by
  induction xs generalizing past with
  | nil =>
      rfl
  | cons i xs ih =>
      exact ih _

/-- The second of two lists gets the notes that it gets after what is seen of the first. -/
theorem annotateFrom?_append
    (t : Table) (past : Past) (xs ys : List Instruction) :
    annotateFrom? t past (xs ++ ys) =
      (annotateFrom? t past xs).bind fun notes =>
        (annotateFrom? t (seen t past xs) ys).map (notes ++ ·) := by
  induction xs generalizing past with
  | nil =>
      simp [annotateFrom?]
  | cons i xs ih =>
      rw [List.cons_append, annotateFrom?_cons, annotateFrom?_cons, seen_cons]
      cases hnote : noteOf? t past i with
      | none =>
          rfl
      | some note =>
          rw [noteOf_eq_of_some hnote, Option.bind_some, Option.bind_some, ih]
          cases annotateFrom? t (⟨i, note⟩ :: past) xs with
          | none =>
              rfl
          | some notes =>
              simp [Option.map_map, Function.comp_def]

/-- A pass that gives notes gives one for every instruction. -/
theorem length_of_annotateFrom?
    {t : Table} {past : Past} {is : List Instruction} {notes : List Note}
    (h : annotateFrom? t past is = some notes) :
    notes.length = is.length := by
  induction is generalizing past notes with
  | nil =>
      cases h
      rfl
  | cons i rest ih =>
      rw [annotateFrom?_cons, Option.bind_eq_some_iff] at h
      obtain ⟨note, _, hrest⟩ := h
      obtain ⟨more, hmore, rfl⟩ := Option.map_eq_some_iff.mp hrest
      rw [List.length_cons, List.length_cons, ih hmore]

/-- The notes of the instructions around one, and its own, are what the pass gives there. -/
theorem annotateFrom?_append_cons_eq_some_iff
    {t : Table} {past : Past} {pre post : List Instruction} {j : Instruction}
    {notes : List Note} :
    annotateFrom? t past (pre ++ j :: post) = some notes ↔
      ∃ before note after, annotateFrom? t past pre = some before ∧
        noteOf? t (seen t past pre) j = some note ∧
        annotateFrom? t (⟨j, note⟩ :: seen t past pre) post = some after ∧
        before ++ note :: after = notes := by
  rw [annotateFrom?_append, Option.bind_eq_some_iff]
  simp only [annotateFrom?_cons, Option.map_eq_some_iff, Option.bind_eq_some_iff]
  constructor
  · rintro ⟨before, hbefore, _, ⟨note, hnote, after, hafter, rfl⟩, rfl⟩
    exact ⟨before, note, after, hbefore, hnote, hafter, rfl⟩
  · rintro ⟨before, note, after, hbefore, hnote, hafter, rfl⟩
    exact ⟨before, hbefore, _, ⟨note, hnote, after, hafter, rfl⟩, rfl⟩

theorem map_instruction_seen
    (t : Table) (past : Past) (is : List Instruction) :
    (seen t past is).map Noted.instruction =
      is.reverse ++ past.map Noted.instruction := by
  induction is generalizing past with
  | nil =>
      rfl
  | cons i rest ih =>
      rw [seen_cons, ih]
      simp

/-- What is seen carries the notes of the pass, the last one first. -/
theorem map_note_seen
    (t : Table) (past : Past) (is : List Instruction) :
    (seen t past is).map Noted.note =
      (annotateFrom t past is).reverse ++ past.map Noted.note := by
  induction is generalizing past with
  | nil =>
      rfl
  | cons i rest ih =>
      rw [seen_cons, ih]
      simp [annotateFrom]

theorem suffix_seen
    (t : Table) (past : Past) (is : List Instruction) :
    past <:+ seen t past is := by
  induction is generalizing past with
  | nil =>
      exact List.suffix_rfl
  | cons i rest ih =>
      exact (List.suffix_cons _ past).trans (ih _)

/-- The last note of a pass is the note of what was seen last. -/
theorem getLast?_annotate
    {t : Table} {is : List Instruction} {p : Noted} {rest : Past}
    (h : seen t [] is = p :: rest) :
    (annotate t is).getLast? = some p.note := by
  have hmap := map_note_seen t [] is
  rw [h] at hmap
  simp only [List.map_cons, List.map_nil, List.append_nil] at hmap
  rw [annotate, ← List.head?_reverse, ← hmap]
  rfl

end Pass

section Values

theorem source_of_valueAt
    {t : Table} {p : Noted} {rest : Past} {v : Value}
    (h : valueAt t p rest = .ok v) :
    v.source = p := by
  unfold valueAt at h
  split at h
  · cases h
  · split at h
    · cases h
      rfl
    · split at h
      · cases h
        rfl
      · cases h

/-- The place of the first instruction that contributes to a value is a place in the past. -/
theorem origin_suffix
    (p : Noted) (rest : Past) :
    (origin p rest).1 :: (origin p rest).2 <:+ p :: rest := by
  unfold origin
  split
  · exact List.suffix_rfl
  · split
    · exact List.suffix_rfl
    · rename_i hdrop
      rw [← hdrop]
      exact List.dropWhile_suffix _

/-- What was seen last lies at the highest offset. -/
def Descending (past : Past) : Prop :=
  past.Pairwise fun p q => q.instruction.offset < p.instruction.offset

/-- What was seen of instructions in order of their offsets has descending offsets. -/
theorem descending_seen
    (t : Table) {is : List Instruction}
    (h : is.Pairwise fun i j => i.offset < j.offset) :
    Descending (seen t [] is) := by
  have hmap := map_instruction_seen t [] is
  rw [List.map_nil, List.append_nil] at hmap
  have hreverse : is.reverse.Pairwise fun i j => j.offset < i.offset :=
    List.pairwise_reverse.mpr h
  rw [← hmap] at hreverse
  exact List.pairwise_map.mp hreverse

/-- The instruction at the noted start is the one place with its offset. -/
theorem origin_of_place
    {p q : Noted} {rest above before : Past}
    (hdescending : Descending (p :: rest))
    (hplace : p :: rest = above ++ q :: before)
    (hstart : p.note.start = some q.instruction.offset) :
    origin p rest = (q, before) := by
  have habove : ∀ r ∈ above, (r.instruction.offset != q.instruction.offset) = true := by
    intro r hr
    rw [hplace] at hdescending
    have hlt := (List.pairwise_append.mp hdescending).2.2 r hr q List.mem_cons_self
    exact bne_iff_ne.mpr (Nat.ne_of_gt hlt)
  unfold origin
  rw [hstart, hplace]
  simp [List.dropWhile_append_of_pos habove]

/-- What was seen before a value lies below the first instruction that contributes to it. -/
theorem suffix_of_valueAt
    {t : Table} {p : Noted} {rest : Past} {v : Value}
    (h : valueAt t p rest = .ok v) :
    v.first :: v.before <:+ p :: rest := by
  unfold valueAt at h
  split at h
  · cases h
  · split at h
    · cases h
      exact origin_suffix p rest
    · split at h
      · cases h
        exact List.suffix_rfl
      · cases h

theorem skipCaches_suffix
    (past : Past) :
    skipCaches past <:+ past :=
  List.dropWhile_suffix _

theorem suffix_of_skipCaches
    {past rest : Past} {p : Noted}
    (h : skipCaches past = p :: rest) :
    p :: rest <:+ past := by
  rw [← h]
  exact skipCaches_suffix past

theorem skipCaches_cons
    {p : Noted} (rest : Past)
    (h : p.instruction.isCache = false) :
    skipCaches (p :: rest) = p :: rest := by
  simp [skipCaches, h]

/-- The past ends with values, the top one first, that lie above a base. -/
inductive Holds (t : Table) : Past → List Value → Past → Prop
  | nil (past : Past) :
      Holds t past [] past
  | cons {p : Noted} {rest : Past} {v : Value} {vs : List Value} {base : Past}
      (hcache : p.instruction.isCache = false)
      (hvalue : valueAt t p rest = .ok v)
      (hrest : Holds t v.before vs base) :
      Holds t (p :: rest) (v :: vs) base

theorem Holds.eq_of_nil
    {t : Table} {past base : Past}
    (h : Holds t past [] base) :
    past = base := by
  cases h
  rfl

theorem Holds.append
    {t : Table} {past mid base : Past} {vs ws : List Value}
    (h : Holds t past vs mid)
    (hmid : Holds t mid ws base) :
    Holds t past (vs ++ ws) base := by
  induction h with
  | nil =>
      exact hmid
  | cons hcache hvalue _ ih =>
      exact Holds.cons hcache hvalue (ih hmid)

theorem Holds.split
    {t : Table} {past base : Past} {vs ws : List Value}
    (h : Holds t past (vs ++ ws) base) :
    ∃ mid, Holds t past vs mid ∧ Holds t mid ws base := by
  induction vs generalizing past with
  | nil =>
      exact ⟨past, Holds.nil past, h⟩
  | cons v vs ih =>
      cases h with
      | cons hcache hvalue hrest =>
          obtain ⟨mid, hvs, hws⟩ := ih hrest
          exact ⟨mid, Holds.cons hcache hvalue hvs, hws⟩

/-- The base of some values is the end of the past that they were found in. -/
theorem Holds.suffix
    {t : Table} {past base : Past} {vs : List Value}
    (h : Holds t past vs base) :
    base <:+ past := by
  induction h with
  | nil past =>
      exact List.suffix_rfl
  | cons hcache hvalue _ ih =>
      exact ih.trans ((List.suffix_cons _ _).trans (suffix_of_valueAt hvalue))

/-- The base of some values lies below the first instruction that contributes to the lowest. -/
theorem Holds.place
    {t : Table} {past base : Past} {vs : List Value} {v : Value}
    (h : Holds t past (vs ++ [v]) base) :
    ∃ above, past = above ++ v.first :: base := by
  obtain ⟨mid, hvs, hv⟩ := h.split
  cases hv with
  | cons hcache hvalue hrest =>
      obtain ⟨front, hfront⟩ := hvs.suffix
      obtain ⟨above, hplace⟩ := suffix_of_valueAt hvalue
      refine ⟨front ++ above, ?_⟩
      rw [← hfront, ← hplace, hrest.eq_of_nil, List.append_assoc]

/-- The operands that are asked for are the values that the past ends with. -/
theorem operandsFrom_of_holds
    {t : Table} {past base : Past} {vs : List Value}
    (h : Holds t past vs base) :
    operandsFrom t past vs.length = ⟨vs, none, base⟩ := by
  induction h with
  | nil =>
      rfl
  | cons hcache hvalue _ ih =>
      simp [operandsFrom, skipCaches_cons _ hcache, hvalue, ih]

end Values
end Fold
end Disassembler
