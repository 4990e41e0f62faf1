import Disassembler.Proofs.LineRanges
import Disassembler.Proofs.LocationRanges
import Mathlib.Data.List.Sort

/-!
# Starts that repeat a line

A line table is read in one of two ways: every entry with a line gives a start, or only one whose
line is another than that of the start before.

**Input.**  Any line table in any of the four encodings.

**Results.**
* `lnotabFrom_dropRepeats`, `startsAfter_dropRepeats`: from a common last line on, the second way
  reads what the first one reads, without the repeats.
* `startsOfTable_dropRepeats`: hence so it is in every encoding, errors included.
* `pairwise_startsOfTable`: starts stand at ascending offsets.
* `toList_ofStarts`: the map of such starts lists them all.
-/

namespace Disassembler

/-- Both fail with the same error, or both succeed with related results. -/
inductive Agree {ε α β : Type} (R : α → β → Prop) : Except ε α → Except ε β → Prop
  | error (e : ε) :
      Agree R (.error e) (.error e)
  | ok {a : α} {b : β}
      (h : R a b) :
      Agree R (.ok a) (.ok b)

theorem Agree.cases
    {ε α β : Type} {R : α → β → Prop} {x : Except ε α} {y : Except ε β}
    (h : Agree R x y) :
    (∃ e, x = .error e ∧ y = .error e) ∨ ∃ a b, x = .ok a ∧ y = .ok b ∧ R a b := by
  cases h with
  | error e =>
      exact Or.inl ⟨e, rfl, rfl⟩
  | ok h =>
      exact Or.inr ⟨_, _, rfl, rfl, h⟩

namespace Lines

section Dropping

/-- The starts without those whose line is that of the start just before them. -/
def dropRepeats (before : Option Nat) : List (Nat × Nat) → List (Nat × Nat)
  | [] => []
  | s :: rest => (if before = some s.2 then [] else [s]) ++ dropRepeats (some s.2) rest

theorem dropRepeats_sublist
    (before : Option Nat) (starts : List (Nat × Nat)) :
    (dropRepeats before starts).Sublist starts := by
  induction starts generalizing before with
  | nil =>
      exact List.Sublist.slnil
  | cons s rest ih =>
      rw [dropRepeats]
      split
      · exact (ih (some s.2)).cons s
      · exact (ih (some s.2)).cons_cons s

end Dropping

section Pairs

variable {position : Nat} {line : Int} {last : Option Nat}

/-- Where the line does not fit, a start is due either way: the line before did fit. -/
theorem startAt_of_error
    {e : Error}
    (dupLines : Bool) (addr : Nat)
    (hlast : ∀ l ∈ last, Fits l)
    (h : toLine position line = .error e) :
    startAt dupLines (last.map Nat.cast) position addr line = .error e := by
  have hdue : last.map Nat.cast ≠ some line := by
    intro hsame
    obtain ⟨l, hl, rfl⟩ := Option.map_eq_some_iff.mp hsame
    rw [toLine_eq_ok_iff.mpr ⟨hlast l hl, rfl⟩] at h
    cases h
  have hcond : (dupLines || last.map Nat.cast != some line) = true := by
    simp [hdue]
  rw [startAt, if_pos hcond, h]

theorem startAt_of_ok
    {l : Nat}
    (dupLines : Bool) (addr : Nat)
    (h : toLine position line = .ok l) :
    startAt dupLines (last.map Nat.cast) position addr line =
      .ok (if dupLines || last != some l then some (addr, l) else none) := by
  obtain ⟨_, rfl⟩ := toLine_eq_ok_iff.mp h
  have hsame : (last.map Nat.cast != some (l : Int)) = (last != some l) := by
    cases last with
    | none =>
        rfl
    | some k =>
        simp [bne, Option.some_beq_some]
  rw [startAt, hsame, h]
  split <;> rfl

/-- From a last line on, what is read without repeats is what is read with them, less the repeats.
After each start the line of the last one is the same in both readings. -/
theorem lnotabFrom_dropRepeats
    (signed : Bool) (position addr : Nat) (line : Int) (last : Option Nat)
    (pairs : List (UInt8 × UInt8))
    (hlast : ∀ l ∈ last, Fits l) :
    lnotabFrom signed false position addr line (last.map Nat.cast) pairs =
      dropRepeats last <$> lnotabFrom signed true position addr line (last.map Nat.cast) pairs := by
  induction pairs generalizing position addr line last with
  | nil =>
      rw [lnotabFrom_nil, lnotabFrom_nil]
      cases htoLine : toLine position line with
      | error e =>
          rw [startAt_of_error _ _ hlast htoLine, startAt_of_error _ _ hlast htoLine]
          rfl
      | ok l =>
          rw [startAt_of_ok _ _ htoLine, startAt_of_ok _ _ htoLine]
          by_cases hsame : last = some l <;> simp [hsame, dropRepeats]
  | cons p rest ih =>
      obtain ⟨b, d⟩ := p
      by_cases hb : b = 0
      · subst hb
        rw [lnotabFrom_cons_zero, lnotabFrom_cons_zero]
        exact ih _ _ _ last hlast
      · rw [lnotabFrom_cons hb, lnotabFrom_cons hb]
        cases htoLine : toLine position line with
        | error e =>
            rw [startAt_of_error _ _ hlast htoLine, startAt_of_error _ _ hlast htoLine]
            rfl
        | ok l =>
            obtain ⟨hfits, rfl⟩ := toLine_eq_ok_iff.mp htoLine
            have hmore := ih (position + 2) (addr + b.toNat) (l + lineDelta signed d) (some l)
              (by simpa using hfits)
            rw [Option.map_some] at hmore
            rw [startAt_of_ok _ _ htoLine, startAt_of_ok _ _ htoLine]
            dsimp only [Except.bind]
            rw [hmore]
            cases lnotabFrom signed true (position + 2) (addr + b.toNat) (l + lineDelta signed d)
              (some (l : Int)) rest with
            | error e =>
                rfl
            | ok more =>
                by_cases hsame : last = some l <;> simp [hsame, dropRepeats]

end Pairs

section Ranges

variable {last : Option Nat} {ranges : List LineRange}

theorem startsAfter_dropRepeats
    (last : Option Nat) (ranges : List LineRange) :
    startsAfter false last ranges = dropRepeats last (startsAfter true last ranges) := by
  induction ranges generalizing last with
  | nil =>
      rfl
  | cons r rest ih =>
      rw [startsAfter, startsAfter]
      cases r.line with
      | none =>
          exact ih last
      | some line =>
          by_cases hsame : last = some line <;> simp [hsame, dropRepeats, ih]

theorem startsAfter_sublist
    (dupLines : Bool) (last : Option Nat) (ranges : List LineRange) :
    ((startsAfter dupLines last ranges).map Prod.fst).Sublist (ranges.map LineRange.start) := by
  induction ranges generalizing last with
  | nil =>
      exact List.Sublist.slnil
  | cons r rest ih =>
      rw [startsAfter, List.map_cons]
      split
      · exact (ih last).cons _
      · split
        · exact (ih _).cons_cons _
        · exact (ih last).cons _

/-- Starts of ascending ranges ascend. -/
theorem pairwise_startsOfRanges
    (dupLines : Bool)
    (h : ranges.Pairwise fun r s => r.start < s.start) :
    (startsOfRanges dupLines ranges).Pairwise fun s t => s.1 < t.1 := by
  have hsorted : (ranges.map LineRange.start).Pairwise (· < ·) := List.pairwise_map.mpr h
  exact List.pairwise_map.mp (hsorted.sublist (startsAfter_sublist dupLines none ranges))

theorem pairwise_linetableFrom
    {position addr : Nat} {line : Int} {pairs : List (UInt8 × UInt8)}
    (h : linetableFrom position addr line pairs = .ok ranges) :
    ranges.Pairwise fun r s => r.start < s.start := by
  induction pairs generalizing position addr line ranges with
  | nil =>
      cases h
      exact List.Pairwise.nil
  | cons p rest ih =>
      obtain ⟨b, d⟩ := p
      rw [linetableFrom_cons_eq_ok_iff] at h
      split at h
      · rename_i hgives
        obtain ⟨l, more, _, _, hmore, rfl⟩ := h
        have hb : b ≠ 0 := by
          rintro rfl
          simp [givesRange] at hgives
        refine List.pairwise_cons.mpr ⟨?_, ih hmore⟩
        intro r hr
        have hle := le_start_of_linetableFrom hmore r hr
        have hpos := toNat_pos hb
        dsimp only
        omega
      · exact ih h

end Ranges

section Encodings

variable {format : LineFormat} {dupLines : Bool} {starts : List (Nat × Nat)}

/-- In every encoding, reading without repeats gives the same error, or the same starts less the
repeats. -/
theorem startsOfTable_dropRepeats
    (format : LineFormat) (first : Nat) (bytes : List UInt8) :
    startsOfTable format false first bytes =
      dropRepeats none <$> startsOfTable format true first bytes := by
  have hpairs : ∀ signed, lnotabStarts signed false first bytes =
      dropRepeats none <$> lnotabStarts signed true first bytes := by
    intro signed
    unfold lnotabStarts
    cases readPairs bytes with
    | error e =>
        rfl
    | ok pairs =>
        exact lnotabFrom_dropRepeats signed 0 0 first none pairs (by simp)
  have hranges : ∀ read : Except Error (List LineRange),
      startsOfRanges false <$> read = dropRepeats none <$> startsOfRanges true <$> read := by
    intro read
    cases read with
    | error e =>
        rfl
    | ok ranges =>
        exact congrArg Except.ok (startsAfter_dropRepeats none ranges)
  cases format with
  | lnotab =>
      exact hpairs false
  | lnotabSigned =>
      exact hpairs true
  | linetable =>
      exact hranges _
  | locations =>
      exact hranges _

theorem exists_of_map_eq_ok
    {α β : Type} {f : α → β} {read : Except Error α} {b : β}
    (h : f <$> read = .ok b) :
    ∃ a, read = .ok a ∧ f a = b := by
  cases read with
  | error e =>
      cases h
  | ok a =>
      exact ⟨a, rfl, Except.ok.inj h⟩

/-- In every encoding, starts stand at ascending offsets. -/
theorem pairwise_startsOfTable
    {first : Nat} {bytes : List UInt8}
    (h : startsOfTable format dupLines first bytes = .ok starts) :
    starts.Pairwise fun s t => s.1 < t.1 := by
  have hpairs : ∀ signed, lnotabStarts signed dupLines first bytes = .ok starts →
      starts.Pairwise fun s t => s.1 < t.1 := by
    intro signed h
    unfold lnotabStarts at h
    split at h
    · cases h
    · exact (follows_lnotabFrom h).ascending
  cases format with
  | lnotab =>
      exact hpairs false h
  | lnotabSigned =>
      exact hpairs true h
  | linetable =>
      obtain ⟨ranges, hread, rfl⟩ := exists_of_map_eq_ok h
      unfold linetableRanges at hread
      split at hread
      · cases hread
      · exact pairwise_startsOfRanges dupLines (pairwise_linetableFrom hread)
  | locations =>
      obtain ⟨ranges, hread, rfl⟩ := exists_of_map_eq_ok h
      obtain ⟨stop, hcovers⟩ := covers_locationRanges hread
      exact pairwise_startsOfRanges dupLines hcovers.pairwise_start

end Encodings

section Maps

variable {starts : List (Nat × Nat)}

theorem getElem?_foldl_insertIfNew
    (m : StartMap) (starts : List (Nat × Nat)) (o : Nat) :
    (starts.foldl (fun m s => m.insertIfNew s.1 s.2) m)[o]? = (m[o]?).or (starts.lookup o) := by
  induction starts generalizing m with
  | nil =>
      simp
  | cons s rest ih =>
      rw [List.foldl_cons, ih, Std.ExtTreeMap.getElem?_insertIfNew, List.lookup_cons]
      by_cases ho : s.1 = o
      · subst ho
        by_cases hm : s.1 ∈ m <;> simp [hm]
      · have hne : (o == s.1) = false := beq_false_of_ne (Ne.symm ho)
        simp [ho, hne]

/-- The first start at an offset is the one that is looked up. -/
theorem getElem?_ofStarts
    (starts : List (Nat × Nat)) (o : Nat) :
    (StartMap.ofStarts starts)[o]? = starts.lookup o := by
  rw [StartMap.ofStarts, getElem?_foldl_insertIfNew]
  simp

theorem getElem?_ofStarts_eq_some_iff
    (h : starts.Pairwise fun s t => s.1 < t.1) {o l : Nat} :
    (StartMap.ofStarts starts)[o]? = some l ↔ (o, l) ∈ starts := by
  rw [getElem?_ofStarts, List.lookup_eq_some_iff]
  constructor
  · rintro ⟨before, after, rfl, _⟩
    simp
  · intro hmem
    obtain ⟨before, after, rfl⟩ := List.append_of_mem hmem
    refine ⟨before, after, rfl, ?_⟩
    intro s hs
    have hlt := (List.pairwise_append.mp h).2.2 s hs (o, l) List.mem_cons_self
    simpa using hlt.ne'

/-- The map of ascending starts lists them all. -/
theorem toList_ofStarts
    (h : starts.Pairwise fun s t => s.1 < t.1) :
    (StartMap.ofStarts starts).toList = starts := by
  have hsorted : (StartMap.ofStarts starts).toList.Pairwise fun s t => s.1 < t.1 :=
    Std.ExtTreeMap.ordered_keys_toList.imp fun hlt => Nat.compare_eq_lt.mp hlt
  have : Std.Antisymm fun s t : Nat × Nat => s.1 < t.1 :=
    ⟨fun _ _ hst hts => absurd hst (Nat.lt_asymm hts)⟩
  have : Std.Irrefl fun s t : Nat × Nat => s.1 < t.1 :=
    ⟨fun s => Nat.lt_irrefl s.1⟩
  refine hsorted.eq_of_mem_iff h ?_
  rintro ⟨o, l⟩
  rw [Std.ExtTreeMap.mem_toList_iff_getElem?_eq_some, getElem?_ofStarts_eq_some_iff h]

/-- The map without repeats lists what the map with them lists, less the repeats. -/
theorem agree_startMap
    (c : CodeObject) (format : LineFormat) :
    Agree (fun all few => few.toList = dropRepeats none all.toList)
      (startMap c format true) (startMap c format false) := by
  unfold startMap starts
  rw [startsOfTable_dropRepeats]
  cases hread : startsOfTable format true c.firstLine c.lineTable with
  | error e =>
      exact .error e
  | ok all =>
      have hsorted := pairwise_startsOfTable hread
      refine .ok ?_
      rw [toList_ofStarts hsorted, toList_ofStarts (hsorted.sublist (dropRepeats_sublist none all))]

theorem getElem?_of_dropRepeats
    {all few : StartMap} {o l : Nat}
    (h : few.toList = dropRepeats none all.toList)
    (hl : few[o]? = some l) :
    all[o]? = some l := by
  rw [← Std.ExtTreeMap.mem_toList_iff_getElem?_eq_some] at hl ⊢
  rw [h] at hl
  exact (dropRepeats_sublist none all.toList).subset hl

end Maps
end Lines
end Disassembler
