import Disassembler.Proofs.LineStarts
import Mathlib.Data.List.DropRight

/-!
# The line of every address, from ranges

In the newer encoding an entry gives a range if it has bytes, has a line and moves to another line.
Any other entry with bytes belongs, as far as starts go, to the last range before it.

**Input.**  Any pairs, and starts that may repeat a line or not.

**Results.**
* `shown_startsAfter_cons`: a range decides for the addresses from it on, whether it notes a start
  or not.
* `shown_linetableFrom`: an address shows the line of the last range that the entries up to its own
  give.
* `linetableRanges_lines`: which line this is, and when it is the line of the entry itself.
* `linetableRanges_firstEntry`: it is not always.
-/

namespace Disassembler
namespace Lines

section Ranges

variable {dupLines : Bool} {last : Option Nat} {ranges : List LineRange}

theorem exists_range_of_startsAfter
    {s : Nat × Nat}
    (h : s ∈ startsAfter dupLines last ranges) :
    ∃ r ∈ ranges, r.start = s.1 := by
  induction ranges generalizing last with
  | nil =>
      cases h
  | cons r rest ih =>
      rw [startsAfter] at h
      split at h
      · obtain ⟨q, hq, hstart⟩ := ih h
        exact ⟨q, List.mem_cons_of_mem r hq, hstart⟩
      · split at h
        · rcases List.mem_cons.mp h with rfl | h
          · exact ⟨r, List.mem_cons_self, rfl⟩
          · obtain ⟨q, hq, hstart⟩ := ih h
            exact ⟨q, List.mem_cons_of_mem r hq, hstart⟩
        · obtain ⟨q, hq, hstart⟩ := ih h
          exact ⟨q, List.mem_cons_of_mem r hq, hstart⟩

/-- From a range on its line holds: either it notes a start, or the line is the last one already. -/
theorem shown_startsAfter_cons
    {r : LineRange} {l a : Nat}
    (hline : r.line = some l)
    (hle : r.start ≤ a) :
    shown (last.map Nat.cast) (startsAfter dupLines last (r :: ranges)) a =
      shown (some l) (startsAfter dupLines (some l) ranges) a := by
  rw [startsAfter, hline]
  dsimp only
  by_cases hnew : (dupLines || last != some l) = true
  · rw [if_pos hnew]
    exact shown_cons hle
  · rw [if_neg hnew]
    have hlast : last = some l := by
      simp only [Bool.or_eq_true, bne_iff_ne, ne_eq, not_or, not_not] at hnew
      exact hnew.2
    rw [hlast]
    rfl

end Ranges

section Entries

/-- The line increment of an entry, which is nothing for one without a line. -/
def lineChange (d : UInt8) : Int :=
  if d = 128 then 0 else signedByte d

/-- The line increments of entries, added up. -/
def totalChange (entries : List (UInt8 × UInt8)) : Int :=
  (entries.map fun p => lineChange p.2).sum

/-- An entry has bytes, has a line and moves to another line. -/
def givesRange (p : UInt8 × UInt8) : Bool :=
  p.1 != 0 && p.2 != 0 && p.2 != 128

/-- The entries up to the last one that gives a range. -/
def throughRange (entries : List (UInt8 × UInt8)) : List (UInt8 × UInt8) :=
  entries.rdropWhile fun p => !givesRange p

/-- The line of the last range that entries give, or else the line before. -/
def noticed (line : Int) (before : Option Int) : List (UInt8 × UInt8) → Option Int
  | [] => before
  | p :: rest =>
      noticed (line + lineChange p.2)
        (if givesRange p then some (line + lineChange p.2) else before) rest

theorem noticed_concat
    (line : Int) (before : Option Int) (entries : List (UInt8 × UInt8)) (p : UInt8 × UInt8) :
    noticed line before (entries ++ [p]) =
      if givesRange p then some (line + totalChange (entries ++ [p]))
      else noticed line before entries := by
  induction entries generalizing line before with
  | nil =>
      simp [noticed, totalChange]
  | cons q rest ih =>
      rw [List.cons_append, noticed, ih, noticed]
      simp [totalChange, add_assoc]

/-- The line of the last range is the first line and the increments up to that range. -/
theorem noticed_eq
    (line : Int) (entries : List (UInt8 × UInt8)) :
    noticed line none entries =
      if throughRange entries = [] then none
      else some (line + totalChange (throughRange entries)) := by
  induction entries using List.reverseRecOn with
  | nil =>
      rfl
  | append_singleton rest p ih =>
      rw [noticed_concat, throughRange, List.rdropWhile_concat]
      by_cases hp : givesRange p = true
      · simp [hp]
      · rw [Bool.not_eq_true] at hp
        simp only [hp, Bool.not_false, if_true, Bool.false_eq_true, if_false]
        exact ih

end Entries

section Reading

variable {position addr : Nat} {line : Int} {b d : UInt8} {rest : List (UInt8 × UInt8)}
  {ranges : List LineRange}

/-- Every entry moves the address and the line on; one that gives a range notes it. -/
theorem linetableFrom_cons_eq_ok_iff :
    linetableFrom position addr line ((b, d) :: rest) = .ok ranges ↔
      if givesRange (b, d) then
        ∃ (l : Nat) (more : List LineRange),
          Fits (line + lineChange d) ∧ (l : Int) = line + lineChange d ∧
          linetableFrom (position + 2) (addr + b.toNat) (line + lineChange d) rest = .ok more ∧
          ranges = ⟨addr, addr + b.toNat, some l⟩ :: more
      else
        linetableFrom (position + 2) (addr + b.toNat) (line + lineChange d) rest = .ok ranges := by
  rw [linetableFrom]
  by_cases hkeep : d = 0 ∨ d = 128
  · -- The line stays as it is.
    have hgives : givesRange (b, d) = false := by
      rcases hkeep with rfl | rfl <;> simp [givesRange]
    have hchange : lineChange d = 0 := by
      rcases hkeep with rfl | rfl <;> rfl
    simp [hkeep, hgives, hchange]
  · obtain ⟨hzero, hnone⟩ := not_or.mp hkeep
    have hchange : lineChange d = signedByte d := if_neg hnone
    by_cases hb : b = 0
    · simp [hzero, hnone, hb, givesRange, hchange]
    · have hgives : givesRange (b, d) = true := by
        simp [givesRange, hb, hzero, hnone]
      simp only [if_neg hkeep, if_neg hb, hgives, if_true, hchange]
      cases htoLine : toLine (position + 1) (line + signedByte d) with
      | error e =>
          have hbad : ∀ l : Nat,
              ¬ (Fits (line + signedByte d) ∧ (l : Int) = line + signedByte d) := by
            intro l hl
            rw [toLine_eq_ok_iff.mpr hl] at htoLine
            cases htoLine
          constructor
          · intro h
            cases h
          · rintro ⟨l, more, hfits, hl, _⟩
            exact absurd ⟨hfits, hl⟩ (hbad l)
      | ok l =>
          obtain ⟨hfits, hl⟩ := toLine_eq_ok_iff.mp htoLine
          cases linetableFrom (position + 2) (addr + b.toNat) (line + signedByte d) rest with
          | error e =>
              simp
          | ok more =>
              dsimp only
              constructor
              · intro h
                cases h
                exact ⟨l, more, hfits, hl, rfl, rfl⟩
              · rintro ⟨l', more', _, hl', hmore, rfl⟩
                cases hmore
                have heq : l = l' := by
                  omega
                rw [heq]

theorem le_start_of_linetableFrom
    {pairs : List (UInt8 × UInt8)}
    (h : linetableFrom position addr line pairs = .ok ranges) :
    ∀ r ∈ ranges, addr ≤ r.start := by
  induction pairs generalizing position addr line ranges with
  | nil =>
      cases h
      simp
  | cons p rest ih =>
      obtain ⟨b, d⟩ := p
      rw [linetableFrom_cons_eq_ok_iff] at h
      split at h
      · obtain ⟨l, more, _, _, hmore, rfl⟩ := h
        intro r hr
        rcases List.mem_cons.mp hr with rfl | hr
        · exact Nat.le_refl addr
        · exact Nat.le_of_add_right_le (ih hmore r hr)
      · intro r hr
        exact Nat.le_of_add_right_le (ih h r hr)

theorem le_of_mem_startsAfter
    {pairs : List (UInt8 × UInt8)} {dupLines : Bool} {last : Option Nat} {s : Nat × Nat}
    (h : linetableFrom position addr line pairs = .ok ranges)
    (hs : s ∈ startsAfter dupLines last ranges) :
    addr ≤ s.1 := by
  obtain ⟨r, hr, hstart⟩ := exists_range_of_startsAfter hs
  rw [← hstart]
  exact le_start_of_linetableFrom h r hr

/-- An address shows the line of the last range that the entries up to its own give. -/
theorem shown_linetableFrom
    (dupLines : Bool) (last : Option Nat) {pairs : List (UInt8 × UInt8)} {i a : Nat}
    (h : linetableFrom position addr line pairs = .ok ranges)
    (hfrom : addressAfter pairs i ≤ a)
    (hto : a < addressAfter pairs (i + 1)) :
    shown (last.map Nat.cast) (startsAfter dupLines last ranges) (addr + a) =
      noticed line (last.map Nat.cast) (pairs.take (i + 1)) := by
  induction pairs generalizing position addr line ranges last i a with
  | nil =>
      simp [addressAfter] at hto
  | cons p rest ih =>
      obtain ⟨b, d⟩ := p
      rw [addressAfter_cons] at hto
      rw [List.take_succ_cons, noticed]
      -- What the rest notes, whatever line held before it.
      have hrest : ∀ (before : Option Nat) (more : List LineRange),
          linetableFrom (position + 2) (addr + b.toNat) (line + lineChange d) rest = .ok more →
          shown (before.map Nat.cast) (startsAfter dupLines before more) (addr + a) =
            noticed (line + lineChange d) (before.map Nat.cast) (rest.take i) := by
        intro before more hmore
        cases i with
        | zero =>
            refine shown_of_forall_lt fun s hs => ?_
            have hle := le_of_mem_startsAfter hmore hs
            simp [addressAfter] at hto
            omega
        | succ i =>
            rw [addressAfter_cons] at hfrom
            dsimp only at hfrom hto
            have hshift : addr + a = addr + b.toNat + (a - b.toNat) := by
              omega
            rw [hshift]
            exact ih before hmore (by omega) (by omega)
      rw [linetableFrom_cons_eq_ok_iff] at h
      split at h
      · rename_i hgives
        obtain ⟨l, more, _, hl, hmore, rfl⟩ := h
        have hnext := hrest (some l) more hmore
        rw [Option.map_some, hl] at hnext
        rw [shown_startsAfter_cons rfl (Nat.le_add_right addr a), if_pos hgives, hl]
        exact hnext
      · rename_i hgives
        rw [if_neg hgives]
        exact hrest last ranges h

theorem totalChange_cons
    (p : UInt8 × UInt8) (entries : List (UInt8 × UInt8)) :
    totalChange (p :: entries) = lineChange p.2 + totalChange entries := by
  simp [totalChange]

/-- Reading goes through exactly when the line of every range fits. -/
theorem exists_linetableFrom_iff
    {pairs : List (UInt8 × UInt8)} :
    (∃ ranges, linetableFrom position addr line pairs = .ok ranges) ↔
      ∀ n p, pairs[n]? = some p → givesRange p = true →
        Fits (line + totalChange (pairs.take (n + 1))) := by
  induction pairs generalizing position addr line with
  | nil =>
      simp [linetableFrom]
  | cons q rest ih =>
      obtain ⟨b, d⟩ := q
      have hsplit :
          (∀ n p, ((b, d) :: rest)[n]? = some p → givesRange p = true →
            Fits (line + totalChange (((b, d) :: rest).take (n + 1)))) ↔
          (givesRange (b, d) = true → Fits (line + lineChange d)) ∧
          ∀ n p, rest[n]? = some p → givesRange p = true →
            Fits (line + lineChange d + totalChange (rest.take (n + 1))) := by
        simp only [List.take_succ_cons, totalChange_cons, add_assoc]
        constructor
        · intro h
          exact ⟨fun hgives => by simpa [totalChange] using h 0 (b, d) rfl hgives,
            fun n p hp hgives => h (n + 1) p hp hgives⟩
        · rintro ⟨hfirst, hrest⟩ n p hp hgives
          cases n with
          | zero =>
              cases hp
              simpa [totalChange] using hfirst hgives
          | succ n =>
              exact hrest n p hp hgives
      rw [hsplit, ← @ih (position + 2) (addr + b.toNat)]
      simp only [linetableFrom_cons_eq_ok_iff]
      by_cases hgives : givesRange (b, d) = true
      · simp only [hgives, if_true, true_implies]
        constructor
        · rintro ⟨ranges, l, more, hfits, _, hmore, _⟩
          exact ⟨hfits, more, hmore⟩
        · rintro ⟨hfits, more, hmore⟩
          exact ⟨_, (line + lineChange d).toNat, more, hfits, Int.toNat_of_nonneg hfits.1, hmore,
            rfl⟩
      · simp [hgives]

/-- Reading the newer encoding succeeds exactly when the line of every range fits thirty-two bits.
An address within an entry then shows the line of the last range up to that entry, which is the
first line and the increments up to the range; it shows none if there is no such range.  So it shows
the line of its own entry exactly when there is such a range and the increments after it add up to
nothing. -/
theorem linetableRanges_lines
    (dupLines : Bool) (first : Nat) (pairs : List (UInt8 × UInt8)) :
    ((∃ ranges, linetableRanges first (pairBytes pairs) = .ok ranges) ↔
      ∀ n p, pairs[n]? = some p → givesRange p = true →
        Fits (first + totalChange (pairs.take (n + 1)))) ∧
    ∀ ranges, linetableRanges first (pairBytes pairs) = .ok ranges →
      ∀ i a, addressAfter pairs i ≤ a → a < addressAfter pairs (i + 1) →
        (throughRange (pairs.take (i + 1)) = [] →
          lastStart (startsOfRanges dupLines ranges) a = none) ∧
        (throughRange (pairs.take (i + 1)) ≠ [] →
          ∃ s, lastStart (startsOfRanges dupLines ranges) a = some s ∧
            (s.2 : Int) = first + totalChange (throughRange (pairs.take (i + 1)))) ∧
        ((∃ s, lastStart (startsOfRanges dupLines ranges) a = some s ∧
            (s.2 : Int) = first + totalChange (pairs.take (i + 1))) ↔
          throughRange (pairs.take (i + 1)) ≠ [] ∧
            totalChange (pairs.take (i + 1)) =
              totalChange (throughRange (pairs.take (i + 1)))) := by
  simp only [linetableRanges, readPairs_pairBytes]
  refine ⟨exists_linetableFrom_iff, ?_⟩
  intro ranges hranges i a hfrom hto
  have hshown := shown_linetableFrom dupLines none hranges hfrom hto
  rw [Nat.zero_add, Option.map_none, noticed_eq] at hshown
  by_cases hnone : throughRange (pairs.take (i + 1)) = []
  · rw [if_pos hnone] at hshown
    have hlast : lastStart (startsOfRanges dupLines ranges) a = none := by
      unfold shown at hshown
      split at hshown
      · cases hshown
      · assumption
    simp [hnone, hlast]
  · rw [if_neg hnone] at hshown
    obtain ⟨s, hs, hline⟩ := lastStart_of_shown hshown
    have hlast : lastStart (startsOfRanges dupLines ranges) a = some s := hs
    refine ⟨fun h => absurd h hnone, fun _ => ⟨s, hlast, hline⟩, ?_⟩
    rw [hlast]
    constructor
    · rintro ⟨q, hq, hown⟩
      cases hq
      exact ⟨hnone, by omega⟩
    · rintro ⟨_, hsame⟩
      exact ⟨s, rfl, by omega⟩

/-- An entry with bytes and a line need not show its line: where the first entry stays on the first
line, nothing is noted for it. -/
theorem linetableRanges_firstEntry :
    ¬ ∀ (dupLines : Bool) (first : Nat) (pairs : List (UInt8 × UInt8)) (ranges : List LineRange),
      linetableRanges first (pairBytes pairs) = .ok ranges →
      ∀ i p a, pairs[i]? = some p → p.1 ≠ 0 → p.2 ≠ 128 →
        addressAfter pairs i ≤ a → a < addressAfter pairs (i + 1) →
        ∃ s, lastStart (startsOfRanges dupLines ranges) a = some s ∧
          (s.2 : Int) = first + totalChange (pairs.take (i + 1)) := by
  intro h
  obtain ⟨s, hs, _⟩ := h false 1 [(6, 0)] [] rfl 0 (6, 0) 0 rfl (by decide) (by decide)
    (by decide) (by decide)
  cases hs

/-- A long range, a gap, and a last entry that stays on a line which an entry without bytes has
moved to. -/
def sampleEntries : List (UInt8 × UInt8) :=
  [(6, 1), (44, 1), (254, 5), (46, 0), (10, 128), (16, 1), (0, 127), (4, 0)]

/-- The second part of the long range shows the line of its entry; the last entry does not. -/
theorem linetableRanges_lines_sampleEntries :
    ∃ ranges, linetableRanges 1 (pairBytes sampleEntries) = .ok ranges ∧
      (∃ s, lastStart (startsOfRanges false ranges) 349 = some s ∧
        (s.2 : Int) = 1 + totalChange (sampleEntries.take 4)) ∧
      ¬ ∃ s, lastStart (startsOfRanges false ranges) 378 = some s ∧
        (s.2 : Int) = 1 + totalChange (sampleEntries.take 8) := by
  have hlines := linetableRanges_lines false 1 sampleEntries
  have hranges : linetableRanges 1 (pairBytes sampleEntries) = .ok [⟨0, 6, some 2⟩, ⟨6, 50, some 3⟩,
      ⟨50, 304, some 8⟩, ⟨360, 376, some 9⟩] := by
    decide
  refine ⟨_, hranges, ?_, ?_⟩
  · exact (hlines.2 _ hranges 3 349 (by decide) (by decide)).2.2.mpr ⟨by decide, by decide⟩
  · intro hown
    have hsame := (hlines.2 _ hranges 7 378 (by decide) (by decide)).2.2.mp hown
    exact absurd hsame (by decide)

end Reading
end Lines
end Disassembler
