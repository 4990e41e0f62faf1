import Disassembler.Lines.Starts
import Mathlib.Algebra.BigOperators.Fin

/-!
# The line of every address

An address belongs to the last start at or before it.  In the older encoding its line is the first
line and the increments of all pairs that end at or before it.

**Input.**  Any pairs, with line increments that have a sign or not, and starts that may repeat a
line or not.

**Results.**
* `shown_cons`, `shown_of_forall_lt`: a start decides for the addresses from it on, until the next.
* `lineAt_cons`: the line of an address, one pair after the other.
* `follows_lnotabFrom`: what is read from a pair on gives every later address its line.
* `lnotabStarts_lineAt`: reading succeeds exactly when all lines fit, and then the starts begin at
  the first byte and give every address its line.
-/

namespace Disassembler
namespace Lines

section Lookup

/-- The last start at or before an address. -/
def lastStart (starts : List (Nat × Nat)) (a : Nat) : Option (Nat × Nat) :=
  (starts.filter fun s => s.1 ≤ a).getLast?

/-- The line of the last start at or before an address, or else the line before all starts. -/
def shown (before : Option Int) (starts : List (Nat × Nat)) (a : Nat) : Option Int :=
  match lastStart starts a with
  | some s => some s.2
  | none => before

variable {before : Option Int} {s : Nat × Nat} {starts : List (Nat × Nat)} {a : Nat}

theorem mem_of_lastStart
    (h : lastStart starts a = some s) :
    s ∈ starts :=
  List.mem_of_mem_filter (List.mem_of_getLast? h)

theorem shown_cons
    (h : s.1 ≤ a) :
    shown before (s :: starts) a = shown (some s.2) starts a := by
  unfold shown lastStart
  rw [List.filter_cons_of_pos (by simpa using h), List.getLast?_cons]
  cases (starts.filter fun s => s.1 ≤ a).getLast? <;> rfl

theorem shown_of_forall_lt
    (h : ∀ s ∈ starts, a < s.1) :
    shown before starts a = before := by
  have hnone : starts.filter (fun s => s.1 ≤ a) = [] := by
    rw [List.filter_eq_nil_iff]
    intro s hs
    have hlt := h s hs
    rw [decide_eq_true_eq]
    omega
  rw [shown, lastStart, hnone]
  rfl

theorem lastStart_of_shown
    {line : Int}
    (h : shown none starts a = some line) :
    ∃ s, lastStart starts a = some s ∧ (s.2 : Int) = line := by
  unfold shown at h
  split at h
  · rename_i s hs
    exact ⟨s, hs, Option.some.inj h⟩
  · cases h

end Lookup

section Pairs

/-- The bytes of pairs, one pair after the other. -/
def pairBytes (pairs : List (UInt8 × UInt8)) : List UInt8 :=
  pairs.flatMap fun p => [p.1, p.2]

theorem pairs?_pairBytes
    (pairs : List (UInt8 × UInt8)) :
    pairs? (pairBytes pairs) = some pairs := by
  induction pairs with
  | nil =>
      rfl
  | cons p rest ih =>
      rw [pairBytes, List.flatMap_cons, ← pairBytes]
      simp only [List.cons_append, List.nil_append, pairs?, ih]
      rfl

theorem readPairs_pairBytes
    (pairs : List (UInt8 × UInt8)) :
    readPairs (pairBytes pairs) = .ok pairs := by
  rw [readPairs, pairs?_pairBytes]

/-- The address after the first pairs. -/
def addressAfter (pairs : List (UInt8 × UInt8)) (n : Nat) : Nat :=
  ((pairs.take n).map fun p => p.1.toNat).sum

theorem toNat_pos
    {b : UInt8}
    (h : b ≠ 0) :
    0 < b.toNat := by
  by_contra hzero
  exact h (UInt8.toNat_inj.mp (by simpa using hzero))

theorem addressAfter_cons
    (p : UInt8 × UInt8) (rest : List (UInt8 × UInt8)) (n : Nat) :
    addressAfter (p :: rest) (n + 1) = p.1.toNat + addressAfter rest n := by
  simp [addressAfter]

/-- The line at an address: the first line and the increments of all pairs that end at or before
the address. -/
def lineAt (signed : Bool) (first : Int) (pairs : List (UInt8 × UInt8)) (a : Nat) : Int :=
  first + ∑ i : Fin pairs.length with addressAfter pairs (i.val + 1) ≤ a,
    lineDelta signed (pairs.get i).2

theorem lineAt_nil
    (signed : Bool) (first : Int) (a : Nat) :
    lineAt signed first [] a = first := by
  simp [lineAt]

/-- The first pair counts from its end on; until there the line is the first one. -/
theorem lineAt_cons
    (signed : Bool) (first : Int) (p : UInt8 × UInt8) (rest : List (UInt8 × UInt8)) (a : Nat) :
    lineAt signed first (p :: rest) a =
      if p.1.toNat ≤ a then lineAt signed (first + lineDelta signed p.2) rest (a - p.1.toNat)
      else first := by
  have hsum : lineAt signed first (p :: rest) a =
      first + ((if p.1.toNat ≤ a then lineDelta signed p.2 else 0) +
        ∑ i : Fin rest.length, if p.1.toNat + addressAfter rest (i.val + 1) ≤ a
          then lineDelta signed (rest.get i).2 else 0) := by
    rw [lineAt, Finset.sum_filter]
    congr 1
    refine (Fin.sum_univ_succ _).trans ?_
    simp only [Fin.val_zero, addressAfter_cons, Fin.val_succ]
    rfl
  rw [hsum]
  split
  · rename_i hle
    rw [lineAt, Finset.sum_filter, add_assoc]
    congr 2
    refine Finset.sum_congr rfl fun i _ => if_congr ?_ rfl rfl
    omega
  · rename_i hlt
    have hnone : ∀ i : Fin rest.length, ¬ p.1.toNat + addressAfter rest (i.val + 1) ≤ a := by
      intro i
      omega
    simp [hnone]

end Pairs

section Reading

variable {signed dupLines : Bool} {position addr : Nat} {line : Int} {last : Option Int}

/-- A line number fits thirty-two bits. -/
def Fits (line : Int) : Prop :=
  0 ≤ line ∧ line < (UInt32.size : Int)

theorem toLine_eq_ok_iff
    {l : Nat} :
    toLine position line = .ok l ↔ Fits line ∧ (l : Int) = line := by
  unfold toLine Fits
  split
  · rename_i hfits
    rw [Except.ok.injEq]
    constructor
    · rintro rfl
      exact ⟨hfits, Int.toNat_of_nonneg hfits.1⟩
    · rintro ⟨_, rfl⟩
      exact Int.toNat_natCast l
  · rename_i hfits
    constructor
    · intro h
      cases h
    · rintro ⟨h, _⟩
      exact absurd h hfits

/-- What is noted at an address: nothing if the line holds already, else a start on the line. -/
def Notes (addr : Nat) (line : Int) (last : Option Int) (start : Option (Nat × Nat)) : Prop :=
  (start = none ∧ last = some line) ∨
    ∃ l, start = some (addr, l) ∧ (l : Int) = line ∧ Fits line

theorem notes_of_startAt
    {start : Option (Nat × Nat)}
    (h : startAt dupLines last position addr line = .ok start) :
    Notes addr line last start := by
  unfold startAt at h
  split at h
  · split at h
    · rename_i l hl
      obtain ⟨hfits, heq⟩ := toLine_eq_ok_iff.mp hl
      cases h
      exact Or.inr ⟨l, rfl, heq, hfits⟩
    · cases h
  · rename_i hsame
    cases h
    refine Or.inl ⟨rfl, ?_⟩
    simp only [Bool.or_eq_true, bne_iff_ne, ne_eq, not_or, not_not] at hsame
    exact hsame.2

theorem exists_startAt
    (h : Fits line) :
    ∃ start, startAt dupLines last position addr line = .ok start := by
  unfold startAt
  split
  · have hline : toLine position line = .ok line.toNat :=
      toLine_eq_ok_iff.mpr ⟨h, Int.toNat_of_nonneg h.1⟩
    rw [hline]
    exact ⟨_, rfl⟩
  · exact ⟨_, rfl⟩

/-- A pair with bytes notes a start where one is due; from there on the line holds. -/
theorem lnotabFrom_cons
    {b d : UInt8} {rest : List (UInt8 × UInt8)}
    (hb : b ≠ 0) :
    lnotabFrom signed dupLines position addr line last ((b, d) :: rest) =
      (startAt dupLines last position addr line).bind fun start =>
        (start.toList ++ ·) <$> lnotabFrom signed dupLines (position + 2) (addr + b.toNat)
          (line + lineDelta signed d) (some line) rest := by
  rw [lnotabFrom]
  simp only [if_neg hb]
  cases hstart : startAt dupLines last position addr line with
  | error e =>
      rfl
  | ok start =>
      dsimp only [Except.bind]
      cases start with
      | none =>
          -- No start is due because the line is the last one already.
          have hlast : last = some line := by
            simpa [Notes] using notes_of_startAt hstart
          rw [hlast]
          cases lnotabFrom signed dupLines (position + 2) (addr + b.toNat)
            (line + lineDelta signed d) (some line) rest <;> rfl
      | some s =>
          cases lnotabFrom signed dupLines (position + 2) (addr + b.toNat)
            (line + lineDelta signed d) (some line) rest <;> rfl

theorem lnotabFrom_cons_eq_ok_iff
    {b d : UInt8} {rest : List (UInt8 × UInt8)} {starts : List (Nat × Nat)}
    (hb : b ≠ 0) :
    lnotabFrom signed dupLines position addr line last ((b, d) :: rest) = .ok starts ↔
      ∃ start more,
        startAt dupLines last position addr line = .ok start ∧
        lnotabFrom signed dupLines (position + 2) (addr + b.toNat) (line + lineDelta signed d)
          (some line) rest = .ok more ∧
        starts = start.toList ++ more := by
  rw [lnotabFrom_cons hb]
  cases startAt dupLines last position addr line with
  | error e =>
      simp [Except.bind]
  | ok start =>
      cases lnotabFrom signed dupLines (position + 2) (addr + b.toNat)
        (line + lineDelta signed d) (some line) rest with
      | error e =>
          simp [Except.bind]
      | ok more =>
          simp [Except.bind, eq_comm]

theorem lnotabFrom_cons_zero
    (d : UInt8) (rest : List (UInt8 × UInt8)) :
    lnotabFrom signed dupLines position addr line last ((0, d) :: rest) =
      lnotabFrom signed dupLines (position + 2) addr (line + lineDelta signed d) last rest :=
  rfl

theorem lnotabFrom_nil :
    lnotabFrom signed dupLines position addr line last [] =
      Option.toList <$> startAt dupLines last position addr line := by
  rw [lnotabFrom]
  cases startAt dupLines last position addr line <;> rfl

theorem lnotabFrom_nil_eq_ok_iff
    {starts : List (Nat × Nat)} :
    lnotabFrom signed dupLines position addr line last [] = .ok starts ↔
      ∃ start, startAt dupLines last position addr line = .ok start ∧ starts = start.toList := by
  rw [lnotabFrom_nil]
  cases startAt dupLines last position addr line with
  | error e =>
      simp
  | ok start =>
      simp [eq_comm]

/-- Starts give every address from `addr` on its line, after a start on the line before. -/
structure Follows (signed : Bool) (addr : Nat) (line : Int) (before : Option Int)
    (pairs : List (UInt8 × UInt8)) (starts : List (Nat × Nat)) : Prop where
  ascending : starts.Pairwise fun s t => s.1 < t.1
  bounded : ∀ s ∈ starts, addr ≤ s.1
  fits : ∀ s ∈ starts, Fits s.2
  first : before = none → starts.head?.map Prod.fst = some addr
  lines : ∀ a, shown before starts (addr + a) = some (lineAt signed line pairs a)

/-- A pair without bytes changes the line where it stands. -/
theorem Follows.cons_zero
    {d : UInt8} {rest : List (UInt8 × UInt8)} {starts : List (Nat × Nat)}
    (h : Follows signed addr (line + lineDelta signed d) last rest starts) :
    Follows signed addr line last ((0, d) :: rest) starts where
  ascending := h.ascending
  bounded := h.bounded
  fits := h.fits
  first := h.first
  lines := by
    intro a
    rw [h.lines a, lineAt_cons]
    rfl

theorem Notes.follows_nil
    {start : Option (Nat × Nat)}
    (h : Notes addr line last start) :
    Follows signed addr line last [] start.toList := by
  obtain ⟨rfl, rfl⟩ | ⟨l, rfl, rfl, hfits⟩ := h
  · refine ⟨by simp, by simp, by simp, by simp, ?_⟩
    intro a
    rw [lineAt_nil]
    rfl
  · refine ⟨by simp, by simp, by simpa using hfits, by simp, ?_⟩
    intro a
    rw [lineAt_nil, Option.toList_some, shown_cons (Nat.le_add_right addr a)]
    rfl

/-- What a pair with bytes notes holds up to its end, and what follows holds from there on. -/
theorem Notes.follows_cons
    {start : Option (Nat × Nat)} {b d : UInt8} {rest : List (UInt8 × UInt8)}
    {more : List (Nat × Nat)}
    (hstart : Notes addr line last start)
    (hb : b ≠ 0)
    (hmore : Follows signed (addr + b.toNat) (line + lineDelta signed d) (some line) rest more) :
    Follows signed addr line last ((b, d) :: rest) (start.toList ++ more) := by
  have hpos := toNat_pos hb
  have hafter : ∀ s ∈ more, addr + b.toNat ≤ s.1 := hmore.bounded
  have hlines : ∀ a, shown (some line) more (addr + a) =
      some (lineAt signed line ((b, d) :: rest) a) := by
    intro a
    rw [lineAt_cons]
    dsimp only
    split
    · rename_i hle
      rw [← hmore.lines (a - b.toNat)]
      congr 1
      omega
    · rename_i hlt
      refine shown_of_forall_lt fun s hs => ?_
      have hle := hafter s hs
      omega
  obtain ⟨rfl, rfl⟩ | ⟨l, rfl, rfl, hfits⟩ := hstart
  · refine ⟨hmore.ascending, ?_, hmore.fits, by simp, hlines⟩
    intro s hs
    have hle := hafter s hs
    omega
  · simp only [Option.toList_some, List.cons_append, List.nil_append]
    constructor
    case ascending =>
      refine List.pairwise_cons.mpr ⟨?_, hmore.ascending⟩
      intro s hs
      have hle := hafter s hs
      dsimp only
      omega
    case bounded =>
      intro s hs
      rcases List.mem_cons.mp hs with rfl | hs
      · exact Nat.le_refl addr
      · have hle := hafter s hs
        omega
    case fits =>
      intro s hs
      rcases List.mem_cons.mp hs with rfl | hs
      · exact hfits
      · exact hmore.fits s hs
    case first =>
      intro _
      rfl
    case lines =>
      intro a
      rw [shown_cons (Nat.le_add_right addr a)]
      exact hlines a

/-- What is read from a pair on gives every later address its line. -/
theorem follows_lnotabFrom
    {pairs : List (UInt8 × UInt8)} {starts : List (Nat × Nat)}
    (h : lnotabFrom signed dupLines position addr line last pairs = .ok starts) :
    Follows signed addr line last pairs starts := by
  induction pairs generalizing position addr line last starts with
  | nil =>
      obtain ⟨start, hstart, rfl⟩ := lnotabFrom_nil_eq_ok_iff.mp h
      exact (notes_of_startAt hstart).follows_nil
  | cons p rest ih =>
      obtain ⟨b, d⟩ := p
      by_cases hb : b = 0
      · subst hb
        rw [lnotabFrom_cons_zero] at h
        exact (ih h).cons_zero
      · obtain ⟨start, more, hstart, hmore, rfl⟩ := (lnotabFrom_cons_eq_ok_iff hb).mp h
        exact (notes_of_startAt hstart).follows_cons hb (ih hmore)

/-- Reading goes through where every later address has a line that fits. -/
theorem exists_lnotabFrom
    {pairs : List (UInt8 × UInt8)}
    (h : ∀ a, Fits (lineAt signed line pairs a)) :
    ∃ starts, lnotabFrom signed dupLines position addr line last pairs = .ok starts := by
  induction pairs generalizing position addr line last with
  | nil =>
      have hline := h 0
      rw [lineAt_nil] at hline
      obtain ⟨start, hstart⟩ := exists_startAt hline
      exact ⟨_, lnotabFrom_nil_eq_ok_iff.mpr ⟨start, hstart, rfl⟩⟩
  | cons p rest ih =>
      obtain ⟨b, d⟩ := p
      have hrest : ∀ a, Fits (lineAt signed (line + lineDelta signed d) rest a) := by
        intro a
        have hfits := h (a + b.toNat)
        rw [lineAt_cons, if_pos (Nat.le_add_left _ _), Nat.add_sub_cancel] at hfits
        exact hfits
      by_cases hb : b = 0
      · subst hb
        rw [lnotabFrom_cons_zero]
        exact ih hrest
      · have hline : Fits line := by
          have hfits := h 0
          rw [lineAt_cons, if_neg (Nat.not_le.mpr (toNat_pos hb))] at hfits
          exact hfits
        obtain ⟨start, hstart⟩ := exists_startAt hline
        obtain ⟨more, hmore⟩ := ih hrest
        exact ⟨_, (lnotabFrom_cons_eq_ok_iff hb).mpr ⟨start, more, hstart, hmore, rfl⟩⟩

/-- Reading the older encoding succeeds exactly when the line of every address fits thirty-two
bits.  The starts then stand in order, the first of them at the first byte, and the last start at or
before an address has the line of the address: the first line and the increments of all pairs that
end at or before it. -/
theorem lnotabStarts_lineAt
    (signed dupLines : Bool) (first : Nat) (pairs : List (UInt8 × UInt8)) :
    ((∃ starts, lnotabStarts signed dupLines first (pairBytes pairs) = .ok starts) ↔
      ∀ a, Fits (lineAt signed first pairs a)) ∧
    ∀ starts, lnotabStarts signed dupLines first (pairBytes pairs) = .ok starts →
      starts.Pairwise (fun s t => s.1 < t.1) ∧
      starts.head?.map Prod.fst = some 0 ∧
      ∀ a, ∃ s, lastStart starts a = some s ∧ (s.2 : Int) = lineAt signed first pairs a := by
  simp only [lnotabStarts, readPairs_pairBytes]
  have hlines : ∀ starts, lnotabFrom signed dupLines 0 0 first none pairs = .ok starts →
      ∀ a, ∃ s, lastStart starts a = some s ∧ (s.2 : Int) = lineAt signed first pairs a := by
    intro starts hstarts a
    have hshown := (follows_lnotabFrom hstarts).lines a
    rw [Nat.zero_add] at hshown
    exact lastStart_of_shown hshown
  constructor
  · constructor
    · rintro ⟨starts, hstarts⟩ a
      obtain ⟨s, hs, hline⟩ := hlines starts hstarts a
      rw [← hline]
      exact (follows_lnotabFrom hstarts).fits s (mem_of_lastStart hs)
    · exact exists_lnotabFrom
  · intro starts hstarts
    have hfollows := follows_lnotabFrom hstarts
    exact ⟨hfollows.ascending, hfollows.first rfl, hlines starts hstarts⟩

/-- A line that changes before the first byte, one that is kept, and one that goes back and forth
where it stands. -/
def samplePairs : List (UInt8 × UInt8) :=
  [(0, 2), (6, 0), (4, 255), (0, 3), (0, 253), (8, 1)]

theorem lnotabStarts_lineAt_samplePairs :
    lnotabStarts true false 10 (pairBytes samplePairs) = .ok [(0, 12), (10, 11), (18, 12)] ∧
    lineAt true 10 samplePairs 9 = 12 ∧
    lineAt true 10 samplePairs 17 = 11 := by
  have hstarts : lnotabStarts true false 10 (pairBytes samplePairs) =
      .ok [(0, 12), (10, 11), (18, 12)] := by
    decide
  have hlines := ((lnotabStarts_lineAt true false 10 samplePairs).2 _ hstarts).2.2
  refine ⟨hstarts, ?_, ?_⟩
  · obtain ⟨s, hs, hline⟩ := hlines 9
    cases hs
    exact hline.symm
  · obtain ⟨s, hs, hline⟩ := hlines 17
    cases hs
    exact hline.symm

end Reading
end Lines
end Disassembler
