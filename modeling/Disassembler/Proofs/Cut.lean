import Disassembler.Decode.Basic
import Mathlib.Data.List.Chain

/-!
# Where bytecode is cut

**Results.**
* `widthAt` and `cachesAt` are the number of bytes of the instruction at an offset, and of the cache
  words after it.
* `Cut t code o cs stop` says how the bytecode from `o` on falls into the chunks `cs`, and with what
  fault, if any, this ends early.  Cutting does just this (`cut_chunks`).
* Hence each chunk starts where the one before it ends (`Cut.follows`), and cutting ends at the end
  of the bytecode or at the first place that does not fit (`Cut.ends`).
-/

namespace Disassembler
namespace Decode

section Layout

variable (t : Table) (code : List UInt8)

/-- The opcode at an offset. -/
def opcodeAt (o : Nat) : Nat :=
  (code.getD o 0).toNat

/-- The number of bytes of the instruction at an offset. -/
def widthAt (o : Nat) : Nat :=
  if t.settings.wordcode then 2
  else if t.hasArgument (opcodeAt code o) then 3
  else 1

/-- The number of bytes of the cache words after the instruction at an offset. -/
def cachesAt (o : Nat) : Nat :=
  if t.settings.wordcode then
    match t.info (opcodeAt code o) with
    | some info => 2 * info.cacheEntries
    | none => 0
  else 0

/-- The offset after the instruction at an offset and its cache words. -/
def after (o : Nat) : Nat :=
  o + widthAt t code o + cachesAt t code o

/-- A chunk holds the instruction at an offset. -/
structure IsChunk (o : Nat) (c : Chunk) : Prop where
  offset : c.offset = o
  opcode : c.opcode = opcodeAt code o
  width : c.width = widthAt t code o
  raw : c.raw = littleEndian ((code.drop (o + 1)).take (widthAt t code o - 1))

/-- The bytecode from an offset on falls into chunks, up to its end or to a fault. -/
inductive Cut : Nat → List Chunk → Option Fault → Prop
  | done :
      Cut code.length [] none
  | short {o : Nat}
      (hinside : o < code.length)
      (hshort : code.length < o + widthAt t code o) :
      Cut o [] (some ⟨o, .truncated (widthAt t code o) (code.length - o)⟩)
  | shortCaches {o : Nat} {c : Chunk}
      (hinside : o < code.length)
      (hfits : o + widthAt t code o ≤ code.length)
      (hshort : code.length < after t code o)
      (hchunk : IsChunk t code o c)
      (hcaches : c.caches = []) :
      Cut o [c] (some ⟨o + widthAt t code o,
        .truncated (cachesAt t code o) (code.length - (o + widthAt t code o))⟩)
  | next {o : Nat} {c : Chunk} {cs : List Chunk} {stop : Option Fault}
      (hinside : o < code.length)
      (hfits : after t code o ≤ code.length)
      (hchunk : IsChunk t code o c)
      (hcaches : c.caches = (code.drop (o + widthAt t code o)).take (cachesAt t code o))
      (hrest : Cut (after t code o) cs stop) :
      Cut o (c :: cs) stop

end Layout

section Cutting

variable {t : Table} {code : List UInt8}

theorem split_of_drop
    {o : Nat} {b : UInt8} {rest : List UInt8}
    (h : b :: rest = code.drop o) :
    o < code.length ∧ opcodeAt code o = b.toNat ∧ rest = code.drop (o + 1) ∧
      1 + rest.length = code.length - o := by
  have hlength := congrArg List.length h
  rw [List.length_drop, List.length_cons] at hlength
  have hinside : o < code.length := by
    omega
  rw [List.drop_eq_getElem_cons hinside, List.cons.injEq] at h
  refine ⟨hinside, ?_, h.2, by omega⟩
  simp [opcodeAt, List.getD, hinside, h.1]

theorem widthAt_eq_operandBytes
    (t : Table) (code : List UInt8) (o : Nat) :
    widthAt t code o = 1 + operandBytes t (opcodeAt code o) := by
  unfold widthAt operandBytes
  split
  · rfl
  · split <;> rfl

theorem cachesAt_eq_cacheBytes
    (t : Table) (code : List UInt8) (o : Nat) :
    cachesAt t code o = cacheBytes t (opcodeAt code o) := by
  rfl

/-- The chunk that is made of the bytes at an offset holds the instruction there. -/
theorem isChunk_of_drop
    {o : Nat} {b : UInt8} {rest : List UInt8}
    (h : b :: rest = code.drop o)
    (caches : List UInt8) :
    IsChunk t code o ⟨o, b.toNat, littleEndian (rest.take (operandBytes t b.toNat)),
      1 + operandBytes t b.toNat, caches⟩ := by
  obtain ⟨_, hopcode, hrest, _⟩ := split_of_drop h
  have hwidth := widthAt_eq_operandBytes t code o
  rw [hopcode] at hwidth
  refine ⟨rfl, hopcode.symm, hwidth.symm, ?_⟩
  rw [hwidth, ← hrest, Nat.add_sub_cancel_left]

theorem cut_chunks_from
    (offset : Nat) (bytes : List UInt8)
    (hbytes : bytes = code.drop offset)
    (hbound : offset ≤ code.length) :
    Cut t code offset (chunks t offset bytes).1 (chunks t offset bytes).2 := by
  -- Each branch of the cutting is a constructor of `Cut`; what is left is where its bytes lie.
  fun_induction chunks t offset bytes with
  | case1 offset =>
      have hend : offset = code.length := by
        have hle := List.drop_eq_nil_iff.mp hbytes.symm
        omega
      subst hend
      exact Cut.done
  | case2 offset b rest opcode operand width hshort =>
      obtain ⟨hinside, hopcode, hrest, hleft⟩ := split_of_drop hbytes
      have hwidth : widthAt t code offset = width := by
        rw [widthAt_eq_operandBytes, hopcode]
      have hcut := Cut.short (t := t) hinside (by omega)
      rw [hwidth, ← hleft] at hcut
      exact hcut
  | case3 offset b rest opcode operand caches width hfits raw tail hshort =>
      obtain ⟨hinside, hopcode, hrest, hleft⟩ := split_of_drop hbytes
      have hwidth : widthAt t code offset = width := by
        rw [widthAt_eq_operandBytes, hopcode]
      have hcaches : cachesAt t code offset = caches := by
        rw [cachesAt_eq_cacheBytes, hopcode]
      have htail : tail.length = code.length - (offset + width) := by
        simp only [tail, List.length_drop]
        omega
      have hcut := Cut.shortCaches hinside (by omega) (by unfold after; omega)
        (isChunk_of_drop (t := t) hbytes []) rfl
      rw [hwidth, hcaches, ← htail] at hcut
      exact hcut
  | case4 offset b rest opcode operand caches width hfits raw tail hfitsCaches more ih =>
      obtain ⟨hinside, hopcode, hrest, hleft⟩ := split_of_drop hbytes
      have hwidth : widthAt t code offset = width := by
        rw [widthAt_eq_operandBytes, hopcode]
      have hcaches : cachesAt t code offset = caches := by
        rw [cachesAt_eq_cacheBytes, hopcode]
      have htail : tail = code.drop (offset + width) := by
        simp only [tail, hrest, List.drop_drop]
        congr 1
        omega
      have hafter : after t code offset = offset + width + caches := by
        rw [after, hwidth, hcaches]
      have hlength : tail.length = code.length - (offset + width) := by
        rw [htail, List.length_drop]
      have hrestCut : Cut t code (after t code offset) more.1 more.2 := by
        rw [hafter]
        exact ih (by rw [htail, List.drop_drop]) (by omega)
      refine Cut.next hinside (by omega) (isChunk_of_drop hbytes _) ?_ hrestCut
      rw [hwidth, hcaches, ← htail]

/-- Cutting bytecode. -/
theorem cut_chunks
    (t : Table) (code : List UInt8) :
    Cut t code 0 (chunks t 0 code).1 (chunks t 0 code).2 :=
  cut_chunks_from 0 code rfl (Nat.zero_le _)

end Cutting

section Places

variable {t : Table} {code : List UInt8} {o : Nat} {cs : List Chunk} {stop : Option Fault}

theorem Cut.head
    (h : Cut t code o cs stop) {c : Chunk}
    (hc : cs.head? = some c) :
    c.offset = o := by
  cases h with
  | done =>
      cases hc
  | short =>
      cases hc
  | shortCaches _ _ _ hchunk =>
      cases hc
      exact hchunk.offset
  | next _ _ hchunk =>
      cases hc
      exact hchunk.offset

/-- Each chunk holds the instruction at its offset, which lies within the bytecode. -/
theorem Cut.isChunk
    (h : Cut t code o cs stop) :
    ∀ c ∈ cs, IsChunk t code c.offset c ∧ c.offset < code.length ∧
      c.offset + widthAt t code c.offset ≤ code.length := by
  induction h with
  | done =>
      simp
  | short =>
      simp
  | shortCaches hinside hfits _ hchunk =>
      intro c hc
      rw [List.mem_singleton] at hc
      subst hc
      rw [hchunk.offset]
      exact ⟨hchunk, hinside, hfits⟩
  | next hinside hfits hchunk _ _ ih =>
      intro c hc
      rcases List.mem_cons.mp hc with rfl | hc
      · rw [hchunk.offset]
        exact ⟨hchunk, hinside, by unfold after at hfits; omega⟩
      · exact ih c hc

/-- Each chunk starts where the one before it ends. -/
theorem Cut.follows
    (h : Cut t code o cs stop) :
    (cs.map Chunk.offset).IsChain fun a b => b = after t code a := by
  induction h with
  | done =>
      exact List.IsChain.nil
  | short =>
      exact List.IsChain.nil
  | shortCaches =>
      exact List.IsChain.singleton _
  | next _ _ hchunk _ hrest ih =>
      rw [List.map_cons, List.isChain_cons]
      refine ⟨?_, ih⟩
      intro b hb
      rw [List.head?_map, Option.mem_def, Option.map_eq_some_iff] at hb
      obtain ⟨c, hc, rfl⟩ := hb
      rw [hrest.head hc, hchunk.offset]

/-- All chunks but the last are followed by their cache words. -/
theorem Cut.fits
    (h : Cut t code o cs stop) :
    ∀ a ∈ (cs.map Chunk.offset).dropLast, after t code a ≤ code.length := by
  induction h with
  | done =>
      simp
  | short =>
      simp
  | shortCaches =>
      simp
  | @next o c cs stop _ hfits hchunk _ _ ih =>
      intro a ha
      cases cs with
      | nil =>
          simp at ha
      | cons d ds =>
          rw [List.map_cons, List.map_cons, List.dropLast_cons_cons] at ha
          rcases List.mem_cons.mp ha with rfl | ha
          · rw [hchunk.offset]
            exact hfits
          · exact ih a ha

end Places

section Ending

variable (t : Table) (code : List UInt8)

/-- The offset after the last of some instructions and its cache words, or where they were to start
if there are none. -/
def nextFrom (o : Nat) (starts : List Nat) : Nat :=
  (starts.getLast?.map (after t code)).getD o

/-- How instructions that start at some offsets end: at the end of the bytecode, before an
instruction that does not fit, or after one whose cache words do not fit. -/
inductive Ends (o : Nat) (starts : List Nat) : Option Fault → Prop
  | complete
      (hend : nextFrom t code o starts = code.length) :
      Ends o starts none
  | short
      (hinside : nextFrom t code o starts < code.length)
      (hshort : code.length <
        nextFrom t code o starts + widthAt t code (nextFrom t code o starts)) :
      Ends o starts (some ⟨nextFrom t code o starts,
        .truncated (widthAt t code (nextFrom t code o starts))
          (code.length - nextFrom t code o starts)⟩)
  | shortCaches {a : Nat}
      (hlast : starts.getLast? = some a)
      (hfits : a + widthAt t code a ≤ code.length)
      (hshort : code.length < after t code a) :
      Ends o starts (some ⟨a + widthAt t code a,
        .truncated (cachesAt t code a) (code.length - (a + widthAt t code a))⟩)

variable {t code} {o : Nat} {starts : List Nat} {stop : Option Fault}

theorem nextFrom_cons :
    nextFrom t code o (o :: starts) = nextFrom t code (after t code o) starts := by
  rw [nextFrom, nextFrom, List.getLast?_cons]
  cases starts.getLast? <;> rfl

theorem Ends.cons
    (h : Ends t code (after t code o) starts stop) :
    Ends t code o (o :: starts) stop := by
  cases h with
  | complete hend =>
      exact Ends.complete (nextFrom_cons.trans hend)
  | short hinside hshort =>
      rw [← nextFrom_cons] at hinside hshort ⊢
      exact Ends.short hinside hshort
  | shortCaches hlast hfits hshort =>
      refine Ends.shortCaches ?_ hfits hshort
      rw [List.getLast?_cons, hlast]
      rfl

/-- Cutting ends at the end of the bytecode or at the first place that does not fit. -/
theorem Cut.ends
    {cs : List Chunk}
    (h : Cut t code o cs stop) :
    Ends t code o (cs.map Chunk.offset) stop := by
  induction h with
  | done =>
      exact Ends.complete rfl
  | short hinside hshort =>
      exact Ends.short hinside hshort
  | shortCaches _ hfits hshort hchunk =>
      rw [List.map_singleton, hchunk.offset]
      exact Ends.shortCaches rfl hfits hshort
  | next _ _ hchunk _ _ ih =>
      rw [List.map_cons, hchunk.offset]
      exact ih.cons

end Ending
end Decode
end Disassembler
