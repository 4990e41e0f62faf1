import Disassembler.Error
import Mathlib.Data.Nat.Digits.Lemmas

/-!
# Bytes that spell a value

A reader is handed bytes and the position where they stand.

**Input.**  Readers that fail with an error at a position.

**Results.**
* `Spells` says that bytes are read as a value wherever they stand and whatever follows them, and
  that a cut inside them is noticed where they end.
* `Spells.nil`, `Spells.cons`, `Spells.bind`: spellings are put together as readers are.
* `Steady` says that a reader finds a spelling or fails, and that it does not matter where.
* `sextets`, `chain`: the groups of six bits of a number, and their bytes.
-/

namespace Disassembler

section Readers

variable {ρ σ : Type} {fail : Nat → Error}

/-- Wherever they stand, the bytes are read as the result and what follows them is left; where they
are cut, reading fails at the cut. -/
structure Spells (fail : Nat → Error) (read : Nat → List UInt8 → Except Error ρ)
    (bytes : List UInt8) (result : Nat → List UInt8 → ρ) : Prop where
  whole : ∀ position rest,
    read position (bytes ++ rest) = .ok (result (position + bytes.length) rest)
  cut : ∀ position part, part <+: bytes → part ≠ bytes →
    read position part = .error (fail (position + part.length))

theorem Spells.nil
    (result : Nat → List UInt8 → ρ) :
    Spells fail (fun position bytes => .ok (result position bytes)) [] result where
  whole := by
    intro position rest
    rfl
  cut := by
    intro position part hpart hne
    exact absurd (List.prefix_nil.mp hpart) hne

/-- A byte is read, and what follows it by another reader. -/
theorem Spells.cons
    {read next : Nat → List UInt8 → Except Error ρ} {b : UInt8} {bytes : List UInt8}
    {result : Nat → List UInt8 → ρ}
    (hbyte : ∀ position rest, read position (b :: rest) = next (position + 1) rest)
    (hend : ∀ position, read position [] = .error (fail position))
    (hnext : Spells fail next bytes result) :
    Spells fail read (b :: bytes) result where
  whole := by
    intro position rest
    rw [List.cons_append, hbyte, hnext.whole, List.length_cons]
    congr 2
    omega
  cut := by
    intro position part hpart hne
    cases part with
    | nil =>
        exact hend position
    | cons b' part =>
        obtain ⟨rfl, htail⟩ := List.cons_prefix_cons.mp hpart
        rw [hbyte, hnext.cut _ _ htail (fun heq => hne (by rw [heq])), List.length_cons]
        congr 2
        omega

/-- A part of two texts ends within the first or goes on into the second. -/
theorem prefix_append_cases
    {part first second : List UInt8}
    (h : part <+: first ++ second) :
    (part <+: first ∧ part ≠ first) ∨ ∃ more, part = first ++ more ∧ more <+: second := by
  rcases List.prefix_or_prefix_of_prefix h (List.prefix_append first second) with hpart | hpart
  · by_cases heq : part = first
    · exact Or.inr ⟨[], by rw [heq, List.append_nil], List.nil_prefix⟩
    · exact Or.inl ⟨hpart, heq⟩
  · obtain ⟨more, rfl⟩ := hpart
    exact Or.inr ⟨more, rfl, (List.prefix_append_right_inj first).mp h⟩

/-- What one reader has read is handed to the next, which may still know where the first began. -/
theorem Spells.bindFrom
    {read : Nat → List UInt8 → Except Error ρ} {next : Nat → ρ → Except Error σ}
    {first second : List UInt8} {a : Nat → List UInt8 → ρ} {b : Nat → List UInt8 → σ}
    (hfirst : Spells fail read first a)
    (hsecond : ∀ start,
      Spells fail (fun position bytes => next start (a position bytes)) second b) :
    Spells fail (fun position bytes => read position bytes >>= next position) (first ++ second)
      b where
  whole := by
    intro position rest
    rw [List.append_assoc, hfirst.whole]
    refine ((hsecond position).whole _ rest).trans ?_
    rw [List.length_append, Nat.add_assoc]
  cut := by
    intro position part hpart hne
    rcases prefix_append_cases hpart with ⟨hpart, hshort⟩ | ⟨more, rfl, hmore⟩
    · rw [hfirst.cut position part hpart hshort]
      rfl
    · rw [hfirst.whole]
      refine ((hsecond position).cut _ more hmore (fun heq => hne (by rw [heq]))).trans ?_
      rw [List.length_append, Nat.add_assoc]

theorem Spells.bind
    {read : Nat → List UInt8 → Except Error ρ} {next : ρ → Except Error σ}
    {first second : List UInt8} {a : Nat → List UInt8 → ρ} {b : Nat → List UInt8 → σ}
    (hfirst : Spells fail read first a)
    (hsecond : Spells fail (fun position bytes => next (a position bytes)) second b) :
    Spells fail (fun position bytes => read position bytes >>= next) (first ++ second) b :=
  hfirst.bindFrom fun _ => hsecond

/-- What was read is turned into something else. -/
theorem Spells.map
    {read : Nat → List UInt8 → Except Error ρ} {read' : Nat → List UInt8 → Except Error σ}
    {bytes : List UInt8} {a : Nat → List UInt8 → ρ} {f : ρ → σ}
    (h : Spells fail read bytes a)
    (hread : ∀ position bytes, read' position bytes = (read position bytes).map f) :
    Spells fail read' bytes fun position rest => f (a position rest) where
  whole := by
    intro position rest
    rw [hread, h.whole]
    rfl
  cut := by
    intro position part hpart hne
    rw [hread, h.cut position part hpart hne]
    rfl

/-- The bytes begin with a spelling, or reading fails at a fixed distance from where they stand. -/
def Steady {α : Type} (fail : Nat → Error) (read : Nat → List UInt8 → Except Error ρ)
    (result : α → Nat → List UInt8 → ρ) (bytes : List UInt8) : Prop :=
  (∃ used rest a, bytes = used ++ rest ∧ Spells fail read used (result a)) ∨
    ∃ distance, ∀ position, read position bytes = .error (fail (position + distance))

section Steadiness

variable {α : Type} {read next : Nat → List UInt8 → Except Error ρ} {b : UInt8}
  {bytes : List UInt8} {result : α → Nat → List UInt8 → ρ}

theorem Steady.pure
    (a : α) (bytes : List UInt8) :
    Steady fail (fun position bytes => .ok (result a position bytes)) result bytes :=
  Or.inl ⟨[], bytes, a, rfl, Spells.nil _⟩

theorem Steady.of_fails
    (h : ∀ position, read position bytes = .error (fail position)) :
    Steady fail read result bytes :=
  Or.inr ⟨0, h⟩

theorem Steady.cons
    (hbyte : ∀ position rest, read position (b :: rest) = next (position + 1) rest)
    (hend : ∀ position, read position [] = .error (fail position))
    (hnext : Steady fail next result bytes) :
    Steady fail read result (b :: bytes) := by
  rcases hnext with ⟨used, rest, a, rfl, hused⟩ | ⟨distance, hfail⟩
  · exact Or.inl ⟨b :: used, rest, a, rfl, Spells.cons hbyte hend hused⟩
  · refine Or.inr ⟨1 + distance, fun position => ?_⟩
    rw [hbyte, hfail, Nat.add_assoc]

end Steadiness

end Readers

section Sextets

/-- The groups of six bits of a number, the low ones first: as few as there can be, but one. -/
def sextets (n : Nat) : List Nat :=
  if n = 0 then [0] else Nat.digits 64 n

theorem sextets_ne_nil
    (n : Nat) :
    sextets n ≠ [] := by
  unfold sextets
  split
  · simp
  · rename_i hn
    exact Nat.digits_ne_nil_iff_ne_zero.mpr hn

theorem lt_of_mem_sextets
    {n g : Nat}
    (h : g ∈ sextets n) :
    g < 64 := by
  unfold sextets at h
  split at h
  · rw [List.mem_singleton] at h
    omega
  · exact Nat.digits_lt_base (by decide) h

theorem ofDigits_sextets
    (n : Nat) :
    Nat.ofDigits 64 (sextets n) = n := by
  unfold sextets
  split
  · rename_i hn
    rw [hn]
    rfl
  · exact Nat.ofDigits_digits 64 n

theorem length_sextets_le
    {n k : Nat}
    (h : n < 64 ^ (k + 1)) :
    (sextets n).length ≤ k + 1 := by
  unfold sextets
  split
  · simp
  · exact (Nat.digits_length_le_iff (by decide) n).mpr h

/-- The byte of a group: the bit above the group says that another one follows. -/
def link (mark : Nat) (more : Bool) (g : Nat) : UInt8 :=
  UInt8.ofNat (mark + more.toNat * 64 + g)

theorem toNat_link
    {mark g : Nat} (more : Bool)
    (hmark : mark ≤ 128)
    (hg : g < 64) :
    (link mark more g).toNat = mark + more.toNat * 64 + g := by
  have hmore := Bool.toNat_le more
  refine UInt8.toNat_ofNat_of_lt ?_
  change _ < 256
  omega

/-- One byte a group, with a mark on the first. -/
def chain (mark : Nat) : List Nat → List UInt8
  | [] => []
  | [g] => [link mark false g]
  | g :: h :: rest => link mark true g :: chain 0 (h :: rest)

end Sextets
end Disassembler
