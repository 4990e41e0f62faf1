import Disassembler.ExceptionTable
import Disassembler.Proofs.Spelling

/-!
# Exception tables and their entries

**Input.**  Entries whose offsets are even and fit sixty-four bits, and any bytes.

**Results.**
* `spells_varint`: a number is read from its groups of six bits, the high ones first.
* `spells_readEntry`: an entry is read from its four numbers.
* `steady_readEntry`: whatever the bytes, an entry stands at their start, or reading fails at a
  fixed distance from it.
* `parse_exact`: a table is read as the entries it was written from, a table that is cut inside an
  entry is refused, and the entries of two tables after each other are those of both.
-/

namespace Disassembler
namespace ExceptionTable

section Numbers

variable {first : Bool} {value g : Nat} {groups : List Nat}

/-- The top bit of the first byte of an entry. -/
def markOf (first : Bool) : Nat :=
  if first then 128 else 0

theorem markOf_false :
    markOf false = 0 :=
  rfl

theorem link_markOf
    (first more : Bool)
    (hg : g < 64) :
    bits (link (markOf first) more g) = g ∧
    continues (link (markOf first) more g) = more ∧
    startsEntry (link (markOf first) more g) = first := by
  have hmark : markOf first ≤ 128 := by
    cases first <;> decide
  simp only [bits, continues, startsEntry, toNat_link more hmark hg]
  cases first <;> cases more <;> simp [markOf] <;> omega

/-- The number whose high bits are the value and whose low bits are the groups. -/
def joined (value : Nat) (groups : List Nat) : Nat :=
  groups.foldl (fun v g => v * 64 + g) value

theorem le_joined
    (value : Nat) (groups : List Nat) :
    value ≤ joined value groups := by
  induction groups generalizing value with
  | nil =>
      exact Nat.le_refl value
  | cons g rest ih =>
      have hle : value * 64 + g ≤ joined value (g :: rest) := ih _
      omega

theorem joined_sextets
    (n : Nat) :
    joined 0 (sextets n).reverse = n := by
  rw [joined, List.foldl_reverse]
  refine Eq.trans ?_ (ofDigits_sextets n)
  rw [Nat.ofDigits_eq_foldr]
  congr 1
  funext g v
  rw [Nat.cast_id]
  omega

/-- The further groups of a number are read one by one. -/
theorem spells_varintFrom
    (hne : groups ≠ [])
    (hgroups : ∀ g ∈ groups, g < 64)
    (hfits : joined value groups < UInt64.size) :
    Spells .exceptionTable (fun position => varintFrom position value) (chain 0 groups)
      (Reading.mk (joined value groups)) := by
  induction groups generalizing value with
  | nil =>
      exact absurd rfl hne
  | cons g rest ih =>
      have hroom : value * 64 < UInt64.size := by
        have hle : value * 64 + g ≤ joined value (g :: rest) := le_joined _ rest
        omega
      have hg := hgroups g List.mem_cons_self
      cases rest with
      | nil =>
          obtain ⟨hbits, hmore, _⟩ := link_markOf false false hg
          rw [markOf_false] at hbits hmore
          refine Spells.cons ?_ (fun _ => rfl) (Spells.nil _)
          intro position rest
          rw [varintFrom, if_pos hroom, hbits, hmore]
          rfl
      | cons h rest =>
          obtain ⟨hbits, hmore, _⟩ := link_markOf false true hg
          rw [markOf_false] at hbits hmore
          refine Spells.cons ?_ (fun _ => rfl)
            (ih (by simp) (fun g' hg' => hgroups g' (List.mem_cons_of_mem g hg')) hfits)
          intro position rest
          rw [varintFrom, if_pos hroom, hbits, hmore]
          rfl

/-- The bytes of a number: its groups of six bits, the high ones first. -/
def writeVarint (first : Bool) (n : Nat) : List UInt8 :=
  chain (markOf first) (sextets n).reverse

/-- A number that fits sixty-four bits is read from its bytes. -/
theorem spells_varint
    (first : Bool) {n : Nat}
    (hfits : n < UInt64.size) :
    Spells .exceptionTable (varint first) (writeVarint first n) (Reading.mk n) := by
  have hjoined := joined_sextets n
  have hne : (sextets n).reverse ≠ [] := by
    simpa using sextets_ne_nil n
  have hgroups : ∀ g ∈ (sextets n).reverse, g < 64 := by
    intro g hg
    exact lt_of_mem_sextets (List.mem_reverse.mp hg)
  rw [writeVarint]
  generalize (sextets n).reverse = groups at hjoined hne hgroups
  cases groups with
  | nil =>
      exact absurd rfl hne
  | cons g rest =>
      have hg := hgroups g List.mem_cons_self
      cases rest with
      | nil =>
          obtain ⟨hbits, hmore, hfirst⟩ := link_markOf first false hg
          have hn : g = n := by
            simpa [joined] using hjoined
          subst hn
          refine Spells.cons ?_ (fun _ => rfl) (Spells.nil _)
          intro position rest
          rw [varint, if_pos hfirst, hbits, hmore]
          rfl
      | cons h rest =>
          obtain ⟨hbits, hmore, hfirst⟩ := link_markOf first true hg
          have hn : joined g (h :: rest) = n := by
            simpa [joined] using hjoined
          subst hn
          refine Spells.cons ?_ (fun _ => rfl)
            (spells_varintFrom (by simp) (fun g' hg' => hgroups g' (List.mem_cons_of_mem g hg'))
              hfits)
          intro position rest
          rw [varint, if_pos hfirst, hbits, hmore]
          rfl

/-- A number of units is read as a number of bytes. -/
theorem spells_offset
    {bytes : List UInt8} {n : Nat}
    (h : Spells .exceptionTable (varint first) bytes (Reading.mk n))
    (hfits : n * 2 < UInt64.size) :
    Spells .exceptionTable (offset first) bytes (Reading.mk (n * 2)) where
  whole := by
    intro position rest
    simp only [offset, h.whole, if_pos hfits]
  cut := by
    intro position part hpart hne
    simp only [offset, h.cut position part hpart hne]

theorem steady_varintFrom
    (value : Nat) (bytes : List UInt8) :
    Steady .exceptionTable (fun position => varintFrom position value) Reading.mk bytes := by
  induction bytes generalizing value with
  | nil =>
      exact Steady.of_fails fun _ => rfl
  | cons b rest ih =>
      by_cases hroom : value * 64 < UInt64.size
      · cases hmore : continues b with
        | false =>
            refine Steady.cons ?_ (fun _ => rfl) (Steady.pure (value * 64 + bits b) rest)
            intro position rest
            rw [varintFrom, if_pos hroom, hmore]
            rfl
        | true =>
            refine Steady.cons ?_ (fun _ => rfl) (ih (value * 64 + bits b))
            intro position rest
            rw [varintFrom, if_pos hroom, hmore]
            rfl
      · exact Steady.of_fails fun position => if_neg hroom

theorem steady_varint
    (first : Bool) (bytes : List UInt8) :
    Steady .exceptionTable (varint first) Reading.mk bytes := by
  cases bytes with
  | nil =>
      exact Steady.of_fails fun _ => rfl
  | cons b rest =>
      by_cases hfirst : startsEntry b = first
      · cases hmore : continues b with
        | false =>
            refine Steady.cons ?_ (fun _ => rfl) (Steady.pure (bits b) rest)
            intro position rest
            rw [varint, if_pos hfirst, hmore]
            rfl
        | true =>
            refine Steady.cons ?_ (fun _ => rfl) (steady_varintFrom (bits b) rest)
            intro position rest
            rw [varint, if_pos hfirst, hmore]
            rfl
      · exact Steady.of_fails fun position => if_neg hfirst

theorem steady_offset
    (first : Bool) (bytes : List UInt8) :
    Steady .exceptionTable (offset first) Reading.mk bytes := by
  rcases steady_varint first bytes with ⟨used, rest, n, rfl, hused⟩ | ⟨distance, hfail⟩
  · by_cases hfits : n * 2 < UInt64.size
    · exact Or.inl ⟨used, rest, n * 2, rfl, spells_offset hused hfits⟩
    · refine Steady.of_fails fun position => ?_
      simp only [offset, hused.whole, if_neg hfits]
  · refine Or.inr ⟨distance, fun position => ?_⟩
    simp only [offset, hfail]

end Numbers

section Entries

/-- An entry, and the position and the bytes after it. -/
def entryAt (e : ExceptionEntry) (position : Nat) (rest : List UInt8) :
    ExceptionEntry × Nat × List UInt8 :=
  (e, position, rest)

/-- Four numbers after each other are read as an entry. -/
theorem spells_readEntry
    {start length target last : List UInt8} {a b c d : Nat}
    (hstart : Spells .exceptionTable (offset true) start (Reading.mk a))
    (hlength : Spells .exceptionTable (offset false) length (Reading.mk b))
    (htarget : Spells .exceptionTable (offset false) target (Reading.mk c))
    (hlast : Spells .exceptionTable (varint false) last (Reading.mk d))
    (hfits : a + b < UInt64.size) :
    Spells .exceptionTable readEntry (start ++ (length ++ (target ++ (last ++ []))))
      (entryAt ⟨a, a + b, c, d / 2, d % 2 == 1⟩) := by
  refine Spells.bindFrom hstart fun position => ?_
  -- The decision whether the end fits is made of what was read, so it is reduced too.
  dsimp +instances only
  refine Spells.bind hlength ?_
  dsimp +instances only
  refine Spells.bind htarget ?_
  dsimp only
  refine Spells.bind hlast ?_
  simp only [if_pos hfits]
  exact Spells.nil _

/-- Whatever the bytes, an entry stands at their start, or reading fails at a fixed distance. -/
theorem steady_readEntry
    (bytes : List UInt8) :
    Steady .exceptionTable readEntry entryAt bytes := by
  rcases steady_offset true bytes with ⟨start, rest, a, rfl, hstart⟩ | ⟨distance, hfail⟩
  case inr =>
    refine Or.inr ⟨distance, fun position => ?_⟩
    simp only [readEntry, hfail]
    rfl
  rcases steady_offset false rest with ⟨length, rest, b, rfl, hlength⟩ | ⟨distance, hfail⟩
  case inr =>
    refine Or.inr ⟨start.length + distance, fun position => ?_⟩
    simp only [readEntry, hstart.whole, bind, Except.bind, hfail, Nat.add_assoc]
  rcases steady_offset false rest with ⟨target, rest, c, rfl, htarget⟩ | ⟨distance, hfail⟩
  case inr =>
    refine Or.inr ⟨start.length + (length.length + distance), fun position => ?_⟩
    simp only [readEntry, hstart.whole, hlength.whole, bind, Except.bind, hfail, Nat.add_assoc]
  rcases steady_varint false rest with ⟨last, rest, d, rfl, hlast⟩ | ⟨distance, hfail⟩
  case inr =>
    refine Or.inr ⟨start.length + (length.length + (target.length + distance)), fun position => ?_⟩
    simp only [readEntry, hstart.whole, hlength.whole, htarget.whole, bind, Except.bind, hfail,
      Nat.add_assoc]
  by_cases hfits : a + b < UInt64.size
  · refine Or.inl ⟨start ++ (length ++ (target ++ (last ++ []))), rest, _, ?_,
      spells_readEntry hstart hlength htarget hlast hfits⟩
    simp only [List.append_assoc, List.append_nil]
  · refine Steady.of_fails fun position => ?_
    simp only [readEntry, hstart.whole, hlength.whole, htarget.whole, hlast.whole, bind,
      Except.bind, if_neg hfits]
    rfl

theorem parseFrom_nil
    (position : Nat) :
    parseFrom position [] = .ok [] := by
  rw [parseFrom]

theorem parseFrom_of_ok
    {position next : Nat} {bytes rest : List UInt8} {e : ExceptionEntry}
    (h : readEntry position bytes = .ok (entryAt e next rest)) :
    parseFrom position bytes = (parseFrom next rest).map (e :: ·) := by
  cases bytes with
  | nil =>
      cases h
  | cons b bytes =>
      rw [parseFrom]
      split
      · rename_i herror
        rw [h] at herror
        cases herror
      · rename_i hok
        rw [h] at hok
        cases hok
        cases parseFrom next rest <;> rfl

theorem parseFrom_of_error
    {position : Nat} {bytes : List UInt8} {e : Error}
    (hne : bytes ≠ [])
    (h : readEntry position bytes = .error e) :
    parseFrom position bytes = .error e := by
  cases bytes with
  | nil =>
      exact absurd rfl hne
  | cons b bytes =>
      rw [parseFrom]
      split
      · rename_i herror
        rw [h] at herror
        cases herror
        rfl
      · rename_i hok
        rw [h] at hok
        cases hok

end Entries

section Tables

variable {position : Nat} {bytes : List UInt8} {entries : List ExceptionEntry}

/-- It does not matter for the entries of a table where it stands, and it matters for an error only
in that its place moves along. -/
theorem parseFrom_steady
    (bytes : List UInt8) :
    (∃ entries, ∀ position, parseFrom position bytes = .ok entries) ∨
      ∃ distance, ∀ position,
        parseFrom position bytes = .error (.exceptionTable (position + distance)) := by
  induction hlength : bytes.length using Nat.strongRecOn generalizing bytes with
  | ind n ih =>
      subst hlength
      by_cases hne : bytes = []
      · subst hne
        exact Or.inl ⟨[], parseFrom_nil⟩
      rcases steady_readEntry bytes with ⟨used, rest, e, rfl, hused⟩ | ⟨distance, hfail⟩
      · have hstep := fun position => parseFrom_of_ok (hused.whole position rest)
        have hshorter : rest.length < (used ++ rest).length :=
          readEntry_length (hused.whole 0 rest)
        rcases ih _ hshorter rest rfl with ⟨entries, hrest⟩ | ⟨distance, hrest⟩
        · refine Or.inl ⟨e :: entries, fun position => ?_⟩
          rw [hstep, hrest]
          rfl
        · refine Or.inr ⟨used.length + distance, fun position => ?_⟩
          rw [hstep, hrest, Nat.add_assoc]
          rfl
      · exact Or.inr ⟨distance, fun position => parseFrom_of_error hne (hfail position)⟩

/-- After a table, reading goes on with what follows it. -/
theorem parseFrom_append
    (h : parseFrom position bytes = .ok entries)
    (more : List UInt8) :
    parseFrom position (bytes ++ more) =
      (parseFrom (position + bytes.length) more).map (entries ++ ·) := by
  induction hlength : bytes.length using Nat.strongRecOn generalizing bytes position entries with
  | ind n ih =>
      subst hlength
      by_cases hne : bytes = []
      · subst hne
        rw [parseFrom_nil] at h
        cases h
        cases hmore : parseFrom position more <;> simp [hmore, Except.map]
      rcases steady_readEntry bytes with ⟨used, rest, e, rfl, hused⟩ | ⟨distance, hfail⟩
      · have hshorter : rest.length < (used ++ rest).length :=
          readEntry_length (hused.whole 0 rest)
        rw [parseFrom_of_ok (hused.whole position rest)] at h
        cases hrest : parseFrom (position + used.length) rest with
        | error e' =>
            rw [hrest] at h
            cases h
        | ok tail =>
            rw [hrest] at h
            cases h
            rw [List.append_assoc, parseFrom_of_ok (hused.whole position (rest ++ more)),
              ih _ hshorter hrest rfl, List.length_append, Nat.add_assoc]
            cases parseFrom (position + (used.length + rest.length)) more <;> rfl
      · rw [parseFrom_of_error hne (hfail position)] at h
        cases h

/-- An entry can be stored: its offsets are even, and all numbers fit. -/
structure Storable (e : ExceptionEntry) : Prop where
  start_even : e.start % 2 = 0
  target_even : e.target % 2 = 0
  start_le_stop : e.start ≤ e.stop
  length_even : (e.stop - e.start) % 2 = 0
  stop_lt : e.stop < 2 ^ 64
  target_lt : e.target < 2 ^ 64
  depth_lt : e.depth < 2 ^ 63

/-- The bytes of an entry: its start, its length and its target in units of two bytes, and its depth
with the flag in the lowest bit. -/
def writeEntry (e : ExceptionEntry) : List UInt8 :=
  writeVarint true (e.start / 2) ++ (writeVarint false ((e.stop - e.start) / 2) ++
    (writeVarint false (e.target / 2) ++ writeVarint false (2 * e.depth + e.lasti.toNat)))

/-- The bytes of entries, one after the other. -/
def write (entries : List ExceptionEntry) : List UInt8 :=
  entries.flatMap writeEntry

/-- An entry is read from its bytes. -/
theorem spells_writeEntry
    {e : ExceptionEntry}
    (h : Storable e) :
    Spells .exceptionTable readEntry (writeEntry e) (entryAt e) := by
  obtain ⟨hstart, htarget, hle, hlength, hstop_lt, htarget_lt, hdepth_lt⟩ := h
  have hsize : UInt64.size = 2 ^ 64 := rfl
  have hflag := Bool.toNat_le e.lasti
  have hspells := spells_readEntry
    (spells_offset (spells_varint true (n := e.start / 2) (by omega)) (by omega))
    (spells_offset (spells_varint false (n := (e.stop - e.start) / 2) (by omega)) (by omega))
    (spells_offset (spells_varint false (n := e.target / 2) (by omega)) (by omega))
    (spells_varint false (n := 2 * e.depth + e.lasti.toNat) (by omega))
    (by omega)
  have hstart_eq : e.start / 2 * 2 = e.start := by
    omega
  have hstop_eq : e.start + (e.stop - e.start) / 2 * 2 = e.stop := by
    omega
  have htarget_eq : e.target / 2 * 2 = e.target := by
    omega
  have hdepth_eq : (2 * e.depth + e.lasti.toNat) / 2 = e.depth := by
    omega
  have hlasti_eq : ((2 * e.depth + e.lasti.toNat) % 2 == 1) = e.lasti := by
    cases e.lasti <;> simp
  rw [List.append_nil, hstart_eq, hstop_eq, htarget_eq, hdepth_eq, hlasti_eq] at hspells
  exact hspells

theorem parseFrom_write
    (h : ∀ e ∈ entries, Storable e)
    (position : Nat) :
    parseFrom position (write entries) = .ok entries := by
  induction entries generalizing position with
  | nil =>
      rw [write, List.flatMap_nil, parseFrom_nil]
  | cons e rest ih =>
      obtain ⟨he, hrest⟩ := List.forall_mem_cons.mp h
      rw [write, List.flatMap_cons, parseFrom_of_ok ((spells_writeEntry he).whole _ _), ← write,
        ih hrest]
      rfl

/-- A table that is cut inside an entry is refused at the cut. -/
theorem parseFrom_cut
    {part : List UInt8}
    (h : ∀ e ∈ entries, Storable e)
    (hpart : part <+: write entries)
    (hinside : ∀ n, part ≠ write (entries.take n)) :
    parseFrom position part = .error (.exceptionTable (position + part.length)) := by
  induction entries generalizing position part with
  | nil =>
      exact absurd (List.prefix_nil.mp hpart) (hinside 0)
  | cons e rest ih =>
      obtain ⟨he, hrest⟩ := List.forall_mem_cons.mp h
      have hspells := spells_writeEntry he
      rw [write, List.flatMap_cons, ← write] at hpart
      rcases prefix_append_cases hpart with ⟨hpart, hshort⟩ | ⟨more, rfl, hmore⟩
      · exact parseFrom_of_error (hinside 0) (hspells.cut position part hpart hshort)
      · have hlater : ∀ n, more ≠ write (rest.take n) := by
          rintro n rfl
          exact hinside (n + 1) rfl
        rw [parseFrom_of_ok (hspells.whole position more), ih hrest hmore hlater,
          List.length_append, Nat.add_assoc]
        rfl

/-- A table is read as the entries it was written from; cut inside an entry, it is refused at the
cut.  Where two tables stand after each other, the first of which can be read, reading gives the
entries of both, or the error of the second, moved on by the length of the first. -/
theorem parse_exact :
    (∀ entries : List ExceptionEntry, (∀ e ∈ entries, Storable e) →
      parse (write entries) = .ok entries ∧
      ∀ part, part <+: write entries → (∀ n, part ≠ write (entries.take n)) →
        parse part = .error (.exceptionTable part.length)) ∧
    ∀ (first second : List UInt8) (a : List ExceptionEntry), parse first = .ok a →
      (∀ b, parse second = .ok b → parse (first ++ second) = .ok (a ++ b)) ∧
      ∀ e, parse second = .error e →
        ∃ p, e = .exceptionTable p ∧
          parse (first ++ second) = .error (.exceptionTable (p + first.length)) := by
  constructor
  · intro entries hentries
    refine ⟨parseFrom_write hentries 0, fun part hpart hinside => ?_⟩
    rw [parse, parseFrom_cut hentries hpart hinside, Nat.zero_add]
  · intro first second a hfirst
    have happend := parseFrom_append hfirst second
    rw [Nat.zero_add] at happend
    rcases parseFrom_steady second with ⟨entries, hsecond⟩ | ⟨distance, hsecond⟩
    · simp only [parse, happend, hsecond]
      constructor
      · rintro b ⟨rfl⟩
        rfl
      · rintro e ⟨⟩
    · simp only [parse, happend, hsecond]
      constructor
      · rintro b ⟨⟩
      · rintro e ⟨rfl⟩
        refine ⟨_, rfl, ?_⟩
        rw [Nat.zero_add, Nat.add_comm]
        rfl

/-- Two entries, of which the second starts with a number of two bytes. -/
def sampleEntries : List ExceptionEntry :=
  [⟨4, 12, 20, 1, true⟩, ⟨140, 142, 6, 0, false⟩]

theorem storable_sampleEntries :
    ∀ e ∈ sampleEntries, Storable e := by
  simp only [sampleEntries, List.forall_mem_cons, List.not_mem_nil, false_implies, implies_true,
    and_true]
  constructor <;> constructor <;> decide

/-- The sample is read from its nine bytes; the first six of them end inside the second entry.  A
byte after the sample that starts no entry is refused there. -/
theorem parse_exact_sampleEntries :
    write sampleEntries = [0x82, 0x04, 0x0A, 0x03, 0xC1, 0x06, 0x01, 0x03, 0x00] ∧
    parse (write sampleEntries) = .ok sampleEntries ∧
    parse [0x82, 0x04, 0x0A, 0x03, 0xC1, 0x06] = .error (.exceptionTable 6) ∧
    parse (write sampleEntries ++ [0x02]) = .error (.exceptionTable 9) := by
  have hwrite : write sampleEntries = [0x82, 0x04, 0x0A, 0x03, 0xC1, 0x06, 0x01, 0x03, 0x00] := by
    decide
  obtain ⟨hread, hcut⟩ := parse_exact.1 sampleEntries storable_sampleEntries
  refine ⟨hwrite, hread, hcut _ ⟨[0x01, 0x03, 0x00], by rw [hwrite]; rfl⟩ ?_, ?_⟩
  · intro n
    rcases n with _ | _ | n
    · decide
    · decide
    · rw [List.take_of_length_le (by simp [sampleEntries]), hwrite]
      decide
  · obtain ⟨p, hp, hmoved⟩ := (parse_exact.2 _ [0x02] _ hread).2 (.exceptionTable 0)
      (parseFrom_of_error (by simp) rfl)
    cases hp
    rw [hmoved, hwrite]
    rfl

end Tables
end ExceptionTable
end Disassembler
