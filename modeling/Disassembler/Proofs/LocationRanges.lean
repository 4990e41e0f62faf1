import Disassembler.Proofs.LineStarts

/-!
# Ranges that cover code without gap

The entries of a location table give one range each, from the first byte on; neighbours on the same
line are then joined.

**Input.**  Any entries, each with at least one code unit.

**Results.**
* `Covers` says that ranges lie end to end between two addresses.
* `covers_rangesFrom`, `covers_merge`: the ranges of entries do, joined or not.
* `isChain_merge`, `exists_mem_merge`: joined neighbours are on different lines, and no byte changes
  its line.
* `covers_locationRanges`: so the ranges of every location table that can be read lie end to end.
-/

namespace Disassembler
namespace Lines

section Covering

variable {start stop : Nat} {ranges : List LineRange}

/-- The ranges lie end to end between two addresses, and none is empty. -/
def Covers (start stop : Nat) : List LineRange → Prop
  | [] => start = stop
  | r :: rest => r.start = start ∧ start < r.stop ∧ Covers r.stop stop rest

theorem Covers.le_start
    (h : Covers start stop ranges) :
    ∀ r ∈ ranges, start ≤ r.start := by
  induction ranges generalizing start with
  | nil =>
      simp
  | cons r rest ih =>
      obtain ⟨hstart, hlt, hrest⟩ := h
      intro q hq
      rcases List.mem_cons.mp hq with rfl | hq
      · omega
      · have hle := ih hrest q hq
        omega

theorem Covers.pairwise_start
    (h : Covers start stop ranges) :
    ranges.Pairwise fun r s => r.start < s.start := by
  induction ranges generalizing start with
  | nil =>
      exact List.Pairwise.nil
  | cons r rest ih =>
      obtain ⟨hstart, hlt, hrest⟩ := h
      refine List.pairwise_cons.mpr ⟨?_, ih hrest⟩
      intro s hs
      have hle := hrest.le_start s hs
      omega

end Covering

section Joining

variable {start stop : Nat} {ranges : List LineRange}

theorem merge_cons_nil
    {r : LineRange} {rest : List LineRange}
    (h : merge rest = []) :
    merge (r :: rest) = [r] := by
  rw [merge, h]

theorem merge_cons_cons
    {r s : LineRange} {rest more : List LineRange}
    (h : merge rest = s :: more) :
    merge (r :: rest) =
      if r.line = s.line ∧ r.stop = s.start then ⟨r.start, s.stop, r.line⟩ :: more
      else r :: s :: more := by
  rw [merge, h]

/-- Joining leaves no gap. -/
theorem covers_merge
    (h : Covers start stop ranges) :
    Covers start stop (merge ranges) := by
  induction ranges generalizing start with
  | nil =>
      exact h
  | cons r rest ih =>
      obtain ⟨hstart, hlt, hrest⟩ := h
      have hmerged := ih hrest
      cases hmerge : merge rest with
      | nil =>
          rw [hmerge] at hmerged
          rw [merge_cons_nil hmerge]
          exact ⟨hstart, hlt, hmerged⟩
      | cons s more =>
          rw [hmerge] at hmerged
          rw [merge_cons_cons hmerge]
          split
          · obtain ⟨hs, hslt, hmore⟩ := hmerged
            refine ⟨hstart, ?_, hmore⟩
            dsimp only
            omega
          · exact ⟨hstart, hlt, hmerged⟩

/-- Joined neighbours are on different lines: they touch, so that those on one line are joined. -/
theorem isChain_merge
    (h : Covers start stop ranges) :
    (merge ranges).IsChain fun r s => r.line ≠ s.line := by
  induction ranges generalizing start with
  | nil =>
      exact List.IsChain.nil
  | cons r rest ih =>
      obtain ⟨_, _, hrest⟩ := h
      have hchain := ih hrest
      have hmerged := covers_merge hrest
      cases hmerge : merge rest with
      | nil =>
          rw [merge_cons_nil hmerge]
          exact List.IsChain.singleton r
      | cons s more =>
          rw [hmerge] at hchain hmerged
          rw [merge_cons_cons hmerge]
          split
          · rename_i hsame
            cases more with
            | nil =>
                exact List.IsChain.singleton _
            | cons q more =>
                obtain ⟨hne, hmore⟩ := List.isChain_cons_cons.mp hchain
                refine List.isChain_cons_cons.mpr ⟨?_, hmore⟩
                rw [hsame.1]
                exact hne
          · rename_i hdiffer
            refine List.isChain_cons_cons.mpr ⟨fun hline => hdiffer ⟨hline, ?_⟩, hchain⟩
            exact hmerged.1.symm

/-- Every range lies within a joined one on the same line. -/
theorem exists_mem_merge
    (h : Covers start stop ranges)
    {r : LineRange}
    (hr : r ∈ ranges) :
    ∃ s ∈ merge ranges, s.start ≤ r.start ∧ r.stop ≤ s.stop ∧ s.line = r.line := by
  induction ranges generalizing start with
  | nil =>
      cases hr
  | cons q rest ih =>
      obtain ⟨hstart, hlt, hrest⟩ := h
      have hmerged := covers_merge hrest
      cases hmerge : merge rest with
      | nil =>
          rw [merge_cons_nil hmerge]
          rcases List.mem_cons.mp hr with rfl | hr
          · exact ⟨r, List.mem_singleton_self r, Nat.le_refl _, Nat.le_refl _, rfl⟩
          · obtain ⟨s, hs, _⟩ := ih hrest hr
            rw [hmerge] at hs
            cases hs
      | cons p more =>
          rw [hmerge] at hmerged
          obtain ⟨hp, hplt, _⟩ := hmerged
          rw [merge_cons_cons hmerge]
          split
          · rename_i hsame
            rcases List.mem_cons.mp hr with rfl | hr
            · refine ⟨_, List.mem_cons_self, Nat.le_refl _, ?_, rfl⟩
              dsimp only
              omega
            · obtain ⟨s, hs, hle, hge, hline⟩ := ih hrest hr
              rw [hmerge] at hs
              rcases List.mem_cons.mp hs with rfl | hs
              · refine ⟨_, List.mem_cons_self, ?_, hge, hsame.1.trans hline⟩
                dsimp only
                omega
              · exact ⟨s, List.mem_cons_of_mem _ hs, hle, hge, hline⟩
          · rcases List.mem_cons.mp hr with rfl | hr
            · exact ⟨r, List.mem_cons_self, Nat.le_refl _, Nat.le_refl _, rfl⟩
            · obtain ⟨s, hs, hle, hge, hline⟩ := ih hrest hr
              rw [hmerge] at hs
              exact ⟨s, List.mem_cons_of_mem _ hs, hle, hge, hline⟩

end Joining

section Reading

variable {addr position : Nat} {line : Int} {entry : LocationEntry} {rest : List LocationEntry}
  {ranges : List LineRange}

/-- An entry without a line leaves the line as it is; any other one gives its own, if that fits. -/
theorem rangesFrom_cons_eq_ok_iff :
    rangesFrom addr line (entry :: rest) = .ok ranges ↔
      ∃ shown more,
        (∀ delta ∈ entry.delta, Fits (line + delta)) ∧
        shown.map (fun l : Nat => (l : Int)) = entry.delta.map (line + ·) ∧
        rangesFrom (addr + 2 * entry.units) (line + entry.delta.getD 0) rest = .ok more ∧
        ranges = ⟨addr, addr + 2 * entry.units, shown⟩ :: more := by
  rw [rangesFrom]
  cases hdelta : entry.delta with
  | none =>
      cases hrest : rangesFrom (addr + 2 * entry.units) line rest with
      | error e =>
          simp [hrest]
      | ok more =>
          simp [hrest, eq_comm]
  | some delta =>
      constructor
      · intro h
        cases htoLine : toLine entry.position (line + delta) with
        | error e =>
            simp [htoLine] at h
        | ok l =>
            obtain ⟨hfits, hl⟩ := toLine_eq_ok_iff.mp htoLine
            cases hrest : rangesFrom (addr + 2 * entry.units) (line + delta) rest with
            | error e =>
                simp [htoLine, hrest] at h
            | ok more =>
                simp only [htoLine, hrest, Except.ok.injEq] at h
                exact ⟨some l, more, by simpa using hfits, by simp [hl], hrest, h.symm⟩
      · rintro ⟨shown, more, hfits, hshown, hrest, rfl⟩
        obtain ⟨l, rfl, hl⟩ := Option.map_eq_some_iff.mp hshown
        have htoLine : toLine entry.position (line + delta) = .ok l :=
          toLine_eq_ok_iff.mpr ⟨hfits delta rfl, hl⟩
        rw [Option.getD_some] at hrest
        simp only [htoLine, hrest]

theorem covers_rangesFrom
    {read : List LocationEntry}
    (h : rangesFrom addr line read = .ok ranges)
    (hunits : ∀ entry ∈ read, 0 < entry.units) :
    Covers addr (addr + 2 * (read.map LocationEntry.units).sum) ranges := by
  induction read generalizing addr line ranges with
  | nil =>
      cases h
      rfl
  | cons entry rest ih =>
      obtain ⟨hpos, hrest⟩ := List.forall_mem_cons.mp hunits
      obtain ⟨shown, more, _, _, hmore, rfl⟩ := rangesFrom_cons_eq_ok_iff.mp h
      have hcovers := ih hmore hrest
      rw [List.map_cons, List.sum_cons]
      refine ⟨rfl, by dsimp only; omega, ?_⟩
      dsimp only
      rw [Nat.mul_add, ← Nat.add_assoc]
      exact hcovers

theorem entries_cons_of_ok
    {header : UInt8} {bytes : List UInt8} {next : Cursor}
    (h : readEntry position header bytes = .ok (entry, next)) :
    entries position (header :: bytes) =
      (entry :: (entries next.position next.rest).1, (entries next.position next.rest).2) := by
  rw [entries]
  split
  · rename_i herror
    rw [h] at herror
    cases herror
  · rename_i hok
    rw [h] at hok
    cases hok
    rfl

theorem entries_cons_of_error
    {header : UInt8} {bytes : List UInt8} {e : Error}
    (h : readEntry position header bytes = .error e) :
    entries position (header :: bytes) = ([], some e) := by
  rw [entries]
  split
  · rename_i herror
    rw [h] at herror
    cases herror
    rfl
  · rename_i hok
    rw [h] at hok
    cases hok

theorem units_of_readEntry
    {header : UInt8} {bytes : List UInt8} {next : Cursor}
    (h : readEntry position header bytes = .ok (entry, next)) :
    entry.units = header.toNat % 8 + 1 := by
  unfold readEntry at h
  split at h
  · cases h
  · split at h
    · cases h
    · cases h
      rfl

/-- Every entry that is read covers some code. -/
theorem units_pos_of_mem_entries
    (position : Nat) (bytes : List UInt8) :
    ∀ entry ∈ (entries position bytes).1, 0 < entry.units := by
  induction hlength : bytes.length using Nat.strongRecOn generalizing position bytes with
  | ind n ih =>
      subst hlength
      cases bytes with
      | nil =>
          rw [entries]
          simp
      | cons header rest =>
          cases hread : readEntry position header rest with
          | error e =>
              rw [entries_cons_of_error hread]
              simp
          | ok read =>
              obtain ⟨first, next⟩ := read
              have hshorter := Nat.lt_succ_of_le (readEntry_length hread)
              rw [entries_cons_of_ok hread]
              refine List.forall_mem_cons.mpr ⟨?_, ih _ hshorter next.position next.rest rfl⟩
              rw [units_of_readEntry hread]
              omega

/-- The ranges of a location table lie end to end from the first byte on. -/
theorem covers_locationRanges
    {first : Nat} {bytes : List UInt8}
    (h : locationRanges first bytes = .ok ranges) :
    ∃ stop, Covers 0 stop ranges := by
  simp only [locationRanges] at h
  split at h
  · cases h
  · rename_i read hread
    split at h
    · cases h
    · cases h
      exact ⟨_, covers_merge (covers_rangesFrom hread (units_pos_of_mem_entries 0 bytes))⟩

end Reading
end Lines
end Disassembler
