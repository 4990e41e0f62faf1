import Disassembler.Proofs.LocationRanges
import Disassembler.Proofs.Spelling

/-!
# Location tables and their entries

**Input.**  Entries of one to eight code units, of any of the five forms, with numbers that ten
bytes can hold and lines that fit thirty-two bits.

**Results.**
* `spells_varint`, `spells_svarint`: numbers are read from their groups of six bits, the low ones
  first.
* `Form.spells_payload`: what follows the first byte of an entry is read by its form.
* `entries_write`, `entries_cut`: a table is read entry by entry, up to a cut.
* `locationRanges_write`: the ranges of a table that is written cover its code and give every byte
  the line of its entry, and a table that is cut inside an entry is refused.
-/

namespace Disassembler
namespace Lines

section Numbers

variable {n : Nat} {groups : List Nat}

/-- What was read, and the position and the bytes after it. -/
def cursorAfter {α : Type} (a : α) (position : Nat) (rest : List UInt8) : α × Cursor :=
  (a, ⟨position, rest⟩)

theorem link_zero
    {g : Nat} (more : Bool)
    (hg : g < 64) :
    (link 0 more g).toNat % 64 = g ∧ ((link 0 more g).toNat / 64 % 2 = 1 ↔ more = true) := by
  rw [toNat_link more (Nat.zero_le 128) hg]
  cases more <;> simp <;> omega

/-- The groups of a number are read one by one. -/
theorem spells_varintFrom
    (shift value : Nat)
    (hne : groups ≠ [])
    (hgroups : ∀ g ∈ groups, g < 64)
    (hroom : shift + 6 * groups.length ≤ 63) :
    Spells .lineTable (fun position => Cursor.varintFrom position shift value) (chain 0 groups)
      (cursorAfter (value + Nat.ofDigits 64 groups * 2 ^ shift)) := by
  induction groups generalizing shift value with
  | nil =>
      exact absurd rfl hne
  | cons g rest ih =>
      have hg := hgroups g List.mem_cons_self
      rw [List.length_cons] at hroom
      have hshift : ¬ 57 < shift := by
        omega
      cases rest with
      | nil =>
          obtain ⟨hbits, hmore⟩ := link_zero false hg
          refine Spells.cons ?_ (fun _ => rfl) (Spells.nil _)
          intro position rest
          rw [Cursor.varintFrom, if_neg hshift]
          simp only [hbits, hmore, Bool.false_eq_true, if_false, Nat.shiftLeft_eq,
            Nat.ofDigits_singleton]
          rfl
      | cons h rest =>
          obtain ⟨hbits, hmore⟩ := link_zero true hg
          have hvalue : value + Nat.ofDigits 64 (g :: h :: rest) * 2 ^ shift =
              value + g * 2 ^ shift + Nat.ofDigits 64 (h :: rest) * 2 ^ (shift + 6) := by
            rw [Nat.ofDigits_cons, Nat.pow_add]
            ring
          have hrest := ih (shift + 6) (value + g * 2 ^ shift) (by simp)
            (fun g' hg' => hgroups g' (List.mem_cons_of_mem g hg')) (by omega)
          rw [hvalue]
          refine Spells.cons ?_ (fun _ => rfl) hrest
          intro position rest
          rw [Cursor.varintFrom, if_neg hshift]
          simp only [hbits, hmore, if_true, Nat.shiftLeft_eq]

/-- The bytes of a number: its groups of six bits, the low ones first. -/
def writeVarint (n : Nat) : List UInt8 :=
  chain 0 (sextets n)

/-- The bytes of a number with sign, which stands in the lowest bit. -/
def writeSvarint (d : Int) : List UInt8 :=
  writeVarint (2 * d.natAbs + (decide (d < 0)).toNat)

theorem spells_varint
    (h : n < 2 ^ 60) :
    Spells .lineTable (fun position bytes => Cursor.varint ⟨position, bytes⟩) (writeVarint n)
      (cursorAfter n) := by
  have hlength : (sextets n).length ≤ 10 := length_sextets_le h
  have hspells := spells_varintFrom 0 0 (sextets_ne_nil n)
    (fun g hg => lt_of_mem_sextets hg) (by omega)
  rw [ofDigits_sextets, Nat.pow_zero, Nat.mul_one, Nat.zero_add] at hspells
  exact hspells

theorem spells_skipVarint
    (h : n < 2 ^ 60) :
    Spells .lineTable (fun position bytes => Cursor.skipVarint ⟨position, bytes⟩) (writeVarint n)
      Cursor.mk := by
  refine (spells_varint h).map (f := Prod.snd) fun position bytes => ?_
  unfold Cursor.skipVarint
  cases Cursor.varint ⟨position, bytes⟩ <;> rfl

/-- The number whose sign stands in the lowest bit. -/
def signed (raw : Nat) : Int :=
  if raw % 2 = 1 then -(raw / 2 : Int) else raw / 2

theorem signed_sign
    (d : Int) :
    signed (2 * d.natAbs + (decide (d < 0)).toNat) = d := by
  unfold signed
  by_cases hd : d < 0
  · simp only [hd, decide_true, Bool.toNat_true]
    omega
  · simp only [hd, decide_false, Bool.toNat_false]
    omega

theorem spells_svarint
    {d : Int}
    (h : d.natAbs < 2 ^ 59) :
    Spells .lineTable (fun position bytes => Cursor.svarint ⟨position, bytes⟩) (writeSvarint d)
      (cursorAfter d) := by
  have hsign := Bool.toNat_le (decide (d < 0))
  have hraw := spells_varint (n := 2 * d.natAbs + (decide (d < 0)).toNat) (by omega)
  have hread : ∀ position bytes, Cursor.svarint ⟨position, bytes⟩ =
      (Cursor.varint ⟨position, bytes⟩).map fun x => (signed x.1, x.2) := by
    intro position bytes
    unfold Cursor.svarint
    cases Cursor.varint ⟨position, bytes⟩ <;> rfl
  have hspells := hraw.map hread
  simp only [cursorAfter, signed_sign] at hspells
  exact hspells

theorem spells_skipByte
    (b : UInt8) :
    Spells .lineTable (fun position bytes => Cursor.skipByte ⟨position, bytes⟩) [b] Cursor.mk :=
  Spells.cons (fun _ _ => rfl) (fun _ => rfl) (Spells.nil _)

end Numbers

section Forms

/-- What an entry says of its code. -/
inductive Form where
  | noLocation
  | long (delta : Int) (lines column stopColumn : Nat)
  | noColumns (delta : Int)
  | oneLine (delta : Fin 3) (column stopColumn : UInt8)
  | short (group : Fin 10) (columns : UInt8)
deriving DecidableEq, Repr

namespace Form

/-- The number of the form in the first byte. -/
def code : Form → Nat
  | noLocation => 15
  | long .. => 14
  | noColumns _ => 13
  | oneLine delta _ _ => 10 + delta
  | short group _ => group

/-- What the form adds to the line; one without a line adds nothing. -/
def delta : Form → Option Int
  | noLocation => none
  | long delta .. => some delta
  | noColumns delta => some delta
  | oneLine delta _ _ => some (delta.val : Int)
  | short .. => some 0

/-- The bytes after the first one. -/
def payload : Form → List UInt8
  | noLocation => []
  | long delta lines column stopColumn =>
      writeSvarint delta ++ (writeVarint lines ++ (writeVarint column ++ writeVarint stopColumn))
  | noColumns delta => writeSvarint delta
  | oneLine _ column stopColumn => [column, stopColumn]
  | short _ columns => [columns]

/-- The numbers of the form fit sixty bits. -/
def Storable : Form → Prop
  | long delta lines column stopColumn =>
      delta.natAbs < 2 ^ 59 ∧ lines < 2 ^ 60 ∧ column < 2 ^ 60 ∧ stopColumn < 2 ^ 60
  | noColumns delta => delta.natAbs < 2 ^ 59
  | _ => True

theorem code_lt
    (f : Form) :
    f.code < 16 := by
  cases f <;> simp only [code] <;> omega

/-- What follows the first byte of an entry is read by its form. -/
theorem spells_payload
    {f : Form}
    (h : f.Storable) :
    Spells .lineTable (fun position bytes => readPayload f.code ⟨position, bytes⟩) f.payload
      (cursorAfter f.delta) := by
  cases f with
  | noLocation =>
      exact Spells.nil _
  | long delta lines column stopColumn =>
      obtain ⟨hdelta, hlines, hcolumn, hstop⟩ := h
      have hnone := List.append_nil (writeVarint stopColumn)
      rw [payload, ← hnone]
      refine Spells.bind (spells_svarint hdelta) ?_
      refine Spells.bind (spells_skipVarint hlines) ?_
      refine Spells.bind (spells_skipVarint hcolumn) ?_
      refine Spells.bind (spells_skipVarint hstop) ?_
      exact Spells.nil _
  | noColumns delta =>
      have hnone := List.append_nil (writeSvarint delta)
      rw [payload, ← hnone]
      exact Spells.bind (spells_svarint h) (Spells.nil _)
  | oneLine delta column stopColumn =>
      have hread : ∀ c, readPayload (10 + delta.val) c =
          (c.skipByte >>= fun c => c.skipByte >>= fun c => pure (some (delta.val : Int), c)) := by
        intro c
        have hlt := delta.isLt
        have hdelta : ((10 + delta.val : Nat) : Int) - 10 = delta.val := by
          omega
        rw [readPayload, if_neg (by omega), if_neg (by omega), if_neg (by omega), if_pos (by omega),
          hdelta]
      simp only [code, hread]
      exact Spells.bind (spells_skipByte column)
        (Spells.bind (spells_skipByte stopColumn) (Spells.nil _))
  | short group columns =>
      have hread : ∀ c, readPayload group.val c =
          (c.skipByte >>= fun c => pure (some (0 : Int), c)) := by
        intro c
        have hlt := group.isLt
        rw [readPayload, if_neg (by omega), if_neg (by omega), if_neg (by omega),
          if_neg (by omega)]
      simp only [code, hread]
      exact Spells.bind (spells_skipByte columns) (Spells.nil _)

end Form
end Forms

section Locations

/-- An entry of one to eight code units. -/
structure Location where
  form : Form
  further : Fin 8
deriving DecidableEq, Repr

namespace Location

/-- The code units of an entry. -/
def units (l : Location) : Nat :=
  l.further + 1

/-- The first byte of an entry. -/
def header (l : Location) : UInt8 :=
  UInt8.ofNat (128 + 8 * l.form.code + l.further)

/-- The bytes of an entry. -/
def write (l : Location) : List UInt8 :=
  l.header :: l.form.payload

theorem toNat_header
    (l : Location) :
    l.header.toNat = 128 + 8 * l.form.code + l.further := by
  have hcode := l.form.code_lt
  have hfurther := l.further.isLt
  refine UInt8.toNat_ofNat_of_lt ?_
  change _ < 256
  omega

/-- An entry is read by the form that its first byte gives. -/
theorem readEntry_header
    (l : Location) (position : Nat) (rest : List UInt8) :
    readEntry position l.header rest =
      (readPayload l.form.code ⟨position + 1, rest⟩).map fun read =>
        (⟨position, l.units, read.1⟩, read.2) := by
  have hcode := l.form.code_lt
  have hfurther := l.further.isLt
  have hform : (128 + 8 * l.form.code + l.further) / 8 % 16 = l.form.code := by
    omega
  have hunits : (128 + 8 * l.form.code + l.further) % 8 + 1 = l.units := by
    unfold units
    omega
  rw [readEntry, toNat_header, if_neg (by omega), hform, hunits]
  cases readPayload l.form.code ⟨position + 1, rest⟩ <;> rfl

theorem readEntry_write
    {l : Location}
    (h : l.form.Storable)
    (position : Nat) (rest : List UInt8) :
    readEntry position l.header (l.form.payload ++ rest) =
      .ok (⟨position, l.units, l.form.delta⟩, ⟨position + l.write.length, rest⟩) := by
  have hwhole := (Form.spells_payload h).whole (position + 1) rest
  have hnext : position + 1 + l.form.payload.length = position + l.write.length := by
    rw [write, List.length_cons]
    omega
  rw [readEntry_header, hwhole, hnext]
  rfl

theorem readEntry_cut
    {l : Location} {part : List UInt8}
    (h : l.form.Storable)
    (hpart : part <+: l.form.payload)
    (hne : part ≠ l.form.payload)
    (position : Nat) :
    readEntry position l.header part = .error (.lineTable (position + 1 + part.length)) := by
  have hcut := (Form.spells_payload h).cut (position + 1) part hpart hne
  rw [readEntry_header, hcut]
  rfl

end Location
end Locations

section Tables

variable {position addr : Nat} {line : Int} {ls : List Location} {ranges : List LineRange}

/-- The bytes of entries, one after the other. -/
def writeLocations (ls : List Location) : List UInt8 :=
  ls.flatMap Location.write

/-- The code units of entries. -/
def unitsOf (ls : List Location) : Nat :=
  (ls.map Location.units).sum

/-- What entries add to the line. -/
def changeOf (ls : List Location) : Int :=
  (ls.map fun l => l.form.delta.getD 0).sum

/-- Entries with the positions where they are read. -/
def placed (position : Nat) : List Location → List LocationEntry
  | [] => []
  | l :: rest =>
      ⟨position, l.units, l.form.delta⟩ :: placed (position + l.write.length) rest

theorem entries_write
    (h : ∀ l ∈ ls, l.form.Storable)
    (position : Nat) :
    entries position (writeLocations ls) = (placed position ls, none) := by
  induction ls generalizing position with
  | nil =>
      rw [writeLocations, List.flatMap_nil, entries]
      rfl
  | cons l rest ih =>
      obtain ⟨hl, hrest⟩ := List.forall_mem_cons.mp h
      rw [writeLocations, List.flatMap_cons, ← writeLocations, Location.write, List.cons_append,
        entries_cons_of_ok (Location.readEntry_write hl position _), ih hrest, placed]

/-- A table that is cut inside an entry is read up to this entry, which ends too early. -/
theorem entries_cut
    {part : List UInt8}
    (h : ∀ l ∈ ls, l.form.Storable)
    (hpart : part <+: writeLocations ls)
    (hinside : ∀ n, part ≠ writeLocations (ls.take n))
    (position : Nat) :
    ∃ n, entries position part =
      (placed position (ls.take n), some (.lineTable (position + part.length))) := by
  induction ls generalizing position part with
  | nil =>
      exact absurd (List.prefix_nil.mp hpart) (hinside 0)
  | cons l rest ih =>
      obtain ⟨hl, hrest⟩ := List.forall_mem_cons.mp h
      rw [writeLocations, List.flatMap_cons, ← writeLocations] at hpart
      rcases prefix_append_cases hpart with ⟨hpart, hshort⟩ | ⟨more, rfl, hmore⟩
      · refine ⟨0, ?_⟩
        cases part with
        | nil =>
            exact absurd rfl (hinside 0)
        | cons b part =>
            obtain ⟨rfl, htail⟩ := List.cons_prefix_cons.mp hpart
            have hne : part ≠ l.form.payload := by
              rintro rfl
              exact hshort rfl
            rw [entries_cons_of_error (Location.readEntry_cut hl htail hne position),
              List.length_cons, Nat.add_comm part.length 1, ← Nat.add_assoc]
            rfl
      · have hlater : ∀ n, more ≠ writeLocations (rest.take n) := by
          rintro n rfl
          exact hinside (n + 1) rfl
        obtain ⟨n, hn⟩ := ih hrest hmore hlater (position + l.write.length)
        refine ⟨n + 1, ?_⟩
        rw [Location.write, List.cons_append,
          entries_cons_of_ok (Location.readEntry_write hl position more), hn, List.take_succ_cons,
          placed, ← List.cons_append, ← Location.write, List.length_append, Nat.add_assoc]

theorem map_units_placed
    (position : Nat) (ls : List Location) :
    ((placed position ls).map LocationEntry.units).sum = unitsOf ls := by
  induction ls generalizing position with
  | nil =>
      rfl
  | cons l rest ih =>
      rw [placed, List.map_cons, List.sum_cons, ih]
      rfl

theorem units_pos_of_mem_placed :
    ∀ entry ∈ placed position ls, 0 < entry.units := by
  induction ls generalizing position with
  | nil =>
      simp [placed]
  | cons l rest ih =>
      exact List.forall_mem_cons.mpr ⟨Nat.succ_pos _, ih⟩

theorem unitsOf_cons
    (l : Location) (rest : List Location) :
    unitsOf (l :: rest) = l.units + unitsOf rest := by
  simp [unitsOf]

theorem changeOf_cons
    (l : Location) (rest : List Location) :
    changeOf (l :: rest) = l.form.delta.getD 0 + changeOf rest := by
  simp [changeOf]

/-- Reading goes through if the line of every entry that has one fits. -/
theorem exists_rangesFrom
    (h : ∀ i l, ls[i]? = some l → l.form.delta ≠ none →
      Fits (line + changeOf (ls.take (i + 1))))
    (addr position : Nat) :
    ∃ ranges, rangesFrom addr line (placed position ls) = .ok ranges := by
  induction ls generalizing position addr line with
  | nil =>
      exact ⟨[], rfl⟩
  | cons l rest ih =>
      have hrest : ∀ i m, rest[i]? = some m → m.form.delta ≠ none →
          Fits (line + l.form.delta.getD 0 + changeOf (rest.take (i + 1))) := by
        intro i m hm hdelta
        have hfits := h (i + 1) m hm hdelta
        rw [List.take_succ_cons, changeOf_cons, ← add_assoc] at hfits
        exact hfits
      obtain ⟨more, hmore⟩ := ih hrest (addr + 2 * l.units) (position + l.write.length)
      have hown : ∀ delta ∈ l.form.delta, Fits (line + delta) := by
        intro delta hdelta
        have hfits := h 0 l rfl (by rw [Option.mem_def.mp hdelta]; simp)
        rw [List.take_succ_cons, changeOf_cons, Option.mem_def.mp hdelta] at hfits
        simpa [changeOf] using hfits
      refine ⟨_, rangesFrom_cons_eq_ok_iff.mpr
        ⟨l.form.delta.map fun delta => (line + delta).toNat, more, hown, ?_, hmore, rfl⟩⟩
      cases hdelta : l.form.delta with
      | none =>
          rfl
      | some delta =>
          have hnonneg := (hown delta hdelta).1
          simp [hnonneg]

/-- Every entry gives a range, which begins after the code before it and has its line. -/
theorem exists_mem_rangesFrom
    (h : rangesFrom addr line (placed position ls) = .ok ranges)
    {i : Nat} {l : Location}
    (hl : ls[i]? = some l) :
    ∃ r ∈ ranges, r.start = addr + 2 * unitsOf (ls.take i) ∧
      r.stop = addr + 2 * unitsOf (ls.take (i + 1)) ∧
      r.line.map (fun n : Nat => (n : Int)) =
        l.form.delta.map fun _ => line + changeOf (ls.take (i + 1)) := by
  induction ls generalizing position addr line ranges i with
  | nil =>
      cases hl
  | cons m rest ih =>
      obtain ⟨shown, more, _, hshown, hmore, rfl⟩ := rangesFrom_cons_eq_ok_iff.mp h
      cases i with
      | zero =>
          cases hl
          refine ⟨_, List.mem_cons_self, rfl, ?_, ?_⟩
          · simp [unitsOf]
          · refine hshown.trans ?_
            rw [List.take_succ_cons, changeOf_cons]
            cases l.form.delta <;> simp [changeOf]
      | succ i =>
          obtain ⟨r, hr, hstart, hstop, hline⟩ := ih hmore hl
          refine ⟨r, List.mem_cons_of_mem _ hr, ?_, ?_, ?_⟩
          · rw [hstart, List.take_succ_cons, unitsOf_cons]
            dsimp only
            omega
          · rw [hstop, List.take_succ_cons, unitsOf_cons]
            dsimp only
            omega
          · rw [hline, List.take_succ_cons, changeOf_cons, add_assoc]

/-- Every byte lies within an entry. -/
theorem exists_location
    {a : Nat}
    (h : a < 2 * unitsOf ls) :
    ∃ i l, ls[i]? = some l ∧ 2 * unitsOf (ls.take i) ≤ a ∧ a < 2 * unitsOf (ls.take (i + 1)) := by
  induction ls generalizing a with
  | nil =>
      exact absurd h (Nat.not_lt_zero a)
  | cons l rest ih =>
      rw [unitsOf_cons] at h
      by_cases hfirst : a < 2 * l.units
      · refine ⟨0, l, rfl, Nat.zero_le a, ?_⟩
        rw [List.take_succ_cons, unitsOf_cons]
        omega
      · obtain ⟨i, m, hm, hle, hlt⟩ := ih (a := a - 2 * l.units) (by omega)
        refine ⟨i + 1, m, hm, ?_, ?_⟩
        · rw [List.take_succ_cons, unitsOf_cons]
          omega
        · rw [List.take_succ_cons, unitsOf_cons]
          omega

/-- The line after the entries up to one: the first line and all that they add to it. -/
def runningLine (first : Nat) (ls : List Location) (i : Nat) : Int :=
  first + changeOf (ls.take (i + 1))

/-- A location table whose lines fit is read.  Its ranges lie end to end from the first byte up to
the end of its code, neighbours are on different lines, and every byte lies in a range on the line
of its entry, or in one without a line if the entry has none.  Cut inside an entry, the table is
refused at the cut. -/
theorem locationRanges_write
    {first : Nat} {ls : List Location}
    (hforms : ∀ l ∈ ls, l.form.Storable)
    (hlines : ∀ i l, ls[i]? = some l → l.form.delta ≠ none → Fits (runningLine first ls i)) :
    (∃ ranges, locationRanges first (writeLocations ls) = .ok ranges ∧
      Covers 0 (2 * unitsOf ls) ranges ∧
      ranges.IsChain (fun r s => r.line ≠ s.line) ∧
      ∀ a < 2 * unitsOf ls, ∃ i l r, ls[i]? = some l ∧
        2 * unitsOf (ls.take i) ≤ a ∧ a < 2 * unitsOf (ls.take (i + 1)) ∧
        r ∈ ranges ∧ r.start ≤ a ∧ a < r.stop ∧
        r.line.map (fun n : Nat => (n : Int)) = l.form.delta.map fun _ => runningLine first ls i) ∧
    ∀ part, part <+: writeLocations ls → (∀ n, part ≠ writeLocations (ls.take n)) →
      locationRanges first part = .error (.lineTable part.length) := by
  constructor
  · obtain ⟨ranges, hranges⟩ := exists_rangesFrom hlines 0 0
    have hcovers := covers_rangesFrom hranges units_pos_of_mem_placed
    rw [map_units_placed, Nat.zero_add] at hcovers
    refine ⟨merge ranges, ?_, covers_merge hcovers, isChain_merge hcovers, ?_⟩
    · simp only [locationRanges, entries_write hforms, hranges]
    · intro a ha
      obtain ⟨i, l, hl, hle, hlt⟩ := exists_location ha
      obtain ⟨r, hr, hstart, hstop, hline⟩ := exists_mem_rangesFrom hranges hl
      obtain ⟨s, hs, hsstart, hsstop, hsline⟩ := exists_mem_merge hcovers hr
      refine ⟨i, l, s, hl, hle, hlt, hs, by omega, by omega, ?_⟩
      rw [hsline, hline]
      rfl
  · intro part hpart hinside
    obtain ⟨n, hread⟩ := entries_cut hforms hpart hinside 0
    have hbefore : ∀ i l, (ls.take n)[i]? = some l → l.form.delta ≠ none →
        Fits (first + changeOf ((ls.take n).take (i + 1))) := by
      intro i l hl hdelta
      rw [List.getElem?_take, Option.ite_none_right_eq_some] at hl
      rw [List.take_take, Nat.min_eq_left hl.1]
      exact hlines i l hl.2 hdelta
    obtain ⟨ranges, hranges⟩ := exists_rangesFrom hbefore 0 0
    simp only [locationRanges, hread, hranges, Nat.zero_add]

/-- Two entries on one line, a gap, a line back of it, and a line two further on. -/
def sampleLocations : List Location :=
  [⟨.long 100 0 1 5, 0⟩, ⟨.short 3 5, 1⟩, ⟨.noLocation, 1⟩, ⟨.noColumns (-77), 0⟩,
    ⟨.oneLine 2 7 9, 7⟩]

theorem storable_sampleLocations :
    ∀ l ∈ sampleLocations, l.form.Storable := by
  simp [sampleLocations, Form.Storable]

theorem fits_sampleLocations :
    ∀ i l, sampleLocations[i]? = some l → l.form.delta ≠ none →
      Fits (runningLine 300 sampleLocations i) := by
  intro i l hl hdelta
  rcases i with _ | _ | _ | _ | _ | i
  · exact ⟨by decide, by decide⟩
  · exact ⟨by decide, by decide⟩
  · cases hl
    exact absurd rfl hdelta
  · exact ⟨by decide, by decide⟩
  · exact ⟨by decide, by decide⟩
  · cases hl

/-- The first two entries of the sample share a range; after two bytes, within the first entry, the
table is refused. -/
theorem locationRanges_write_sampleLocations :
    (∃ ranges, locationRanges 300 (writeLocations sampleLocations) = .ok ranges ∧
      ranges = [⟨0, 6, some 400⟩, ⟨6, 10, none⟩, ⟨10, 12, some 323⟩, ⟨12, 28, some 325⟩] ∧
      Covers 0 28 ranges ∧ ranges.IsChain (fun r s => r.line ≠ s.line)) ∧
    locationRanges 300 [0xF0, 0x48] = .error (.lineTable 2) := by
  obtain ⟨⟨ranges, hranges, hcovers, hchain, _⟩, hcut⟩ :=
    locationRanges_write storable_sampleLocations fits_sampleLocations
  have hread : locationRanges 300 (writeLocations sampleLocations) =
      .ok [⟨0, 6, some 400⟩, ⟨6, 10, none⟩, ⟨10, 12, some 323⟩, ⟨12, 28, some 325⟩] := by
    decide +kernel
  refine ⟨⟨ranges, hranges, ?_, hcovers, hchain⟩, hcut _ ?_ ?_⟩
  · rw [hread] at hranges
    exact (Except.ok.inj hranges).symm
  · exact ⟨(writeLocations sampleLocations).drop 2, by decide⟩
  · intro n hn
    have hlength := congrArg List.length hn
    cases n with
    | zero =>
        cases hlength
    | succ n =>
        have hfirst : (Location.write ⟨.long 100 0 1 5, 0⟩).length = 6 := by
          decide
        rw [sampleLocations, List.take_succ_cons, writeLocations, List.flatMap_cons,
          List.length_append, hfirst] at hlength
        simp only [List.length_cons, List.length_nil] at hlength
        omega

end Tables
end Lines
end Disassembler
