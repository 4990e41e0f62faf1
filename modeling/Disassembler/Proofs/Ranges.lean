import Disassembler.Proofs.Crossing
import Disassembler.Proofs.Steps
import Disassembler.Proofs.Tables

/-!
# Folded ranges nest

The range of a note goes from its start to its instruction.  A fold takes whole ranges only: each of
its parts is the range of the instruction that it ends with.  This is so because the parts that are
taken without a look at their start, empty slots and constants, stand for themselves alone.

**Input.**  Any bytecode, and a table that folds no empty slot, and a constant only by itself.

**Results.**
* `Whole past base`: no range crosses the end of `base`.
* `Ends.before_eq`: what was seen before a part is what was seen before the range of its last
  instruction.  So what a fold takes leaves a whole base (`Takes.whole`), and by induction over the
  pass so does every range (`level_seen`).
* `spansNest_decode`: any two ranges are apart or one lies within the other.
-/

namespace Disassembler
namespace Decode

section Sources

variable {t : Table} {env : Environment} {carry : Carry} {c : Chunk}

/-- The instruction of a step has the name of its opcode. -/
theorem opname_of_step
    {info : OpInfo}
    (h : t.info c.opcode = some info) :
    (step t env carry c).instruction.opname = info.name := by
  simp only [step, h, knownStep]
  split
  · rfl
  · cases resolve t env info c.opcode _ c.next <;> rfl

/-- Only opcodes of the class of constants give constants. -/
theorem is_const_of_step
    {k : Constant}
    (h : (step t env carry c).instruction.value = .const k) :
    t.is c.opcode .const = true := by
  unfold step at h
  split at h
  · rename_i info hinfo
    simp only [knownStep] at h
    split at h
    · cases h
    · rename_i a _
      cases hresolve : resolve t env info c.opcode a c.next with
      | ok r =>
          rw [hresolve] at h
          exact is_const_of_resolve hresolve h
      | error p =>
          rw [hresolve] at h
          cases h
  · cases h

end Sources
end Decode

namespace Fold

section Tables

/-- What taking whole ranges relies on in a table. -/
structure PlainSources (t : Table) : Prop where
  -- An opcode with a constant is folded by itself or not at all.
  const : ∀ opcode info, t.is opcode .const = true → t.info opcode = some info →
    info.fold = none ∨ info.fold = some .returnConst
  -- The opcode that pushes an empty slot is not folded.
  slot : ∀ opcode info, t.info opcode = some info → info.name = "PUSH_NULL" → info.fold = none

theorem Regular.plainSources
    {t : Table}
    (h : Regular t) :
    PlainSources t :=
  ⟨fun opcode info hconst hinfo => ((h.1 opcode info hinfo).const hconst).2.2,
    fun opcode info hinfo hname => ((h.1 opcode info hinfo).slot hname).2⟩

/-- An instruction that a fold may take without a look at its start: it has no expression, pushes an
empty slot or has a constant. -/
def Bare (q : Noted) : Prop :=
  q.note.expression = none ∨ pushesNull q = true ∨ ∃ c, q.instruction.value = .const c

/-- An instruction that is folded by itself or not at all. -/
def Solitary (t : Table) (i : Instruction) : Prop :=
  ruleOf t i = none ∨ ruleOf t i = some .returnConst

variable {t : Table} {env : Environment} {showCaches : Bool} {code : List UInt8} {i : Instruction}

/-- Empty slots and constants are folded by themselves or not at all. -/
theorem solitary_of_mem_decode
    (hsources : PlainSources t)
    (hi : i ∈ (decode t env showCaches code).instructions)
    (hplain : i.isCache = false)
    (hsource : i.opname = "PUSH_NULL" ∨ ∃ c, i.value = .const c) :
    Solitary t i := by
  obtain ⟨xs, c, ys, m, _, rfl⟩ := Decode.exists_step_of_mem_decode hi hplain
  have hopcode := (Decode.step_frame t env (Decode.carryAfter t env {} xs) c).2.1
  simp only [Solitary, ruleOf, hopcode]
  cases hinfo : t.info c.opcode with
  | none =>
      exact Or.inl rfl
  | some info =>
      rcases hsource with hname | ⟨k, hvalue⟩
      · rw [Decode.opname_of_step hinfo] at hname
        exact Or.inl (hsources.slot c.opcode info hinfo hname)
      · exact hsources.const c.opcode info (Decode.is_const_of_step hvalue) hinfo

end Tables

section Bases

/-- No range crosses the end of a base: each ends in it or starts above it. -/
def Whole (past base : Past) : Prop :=
  ∀ q rest, q :: rest <:+ past → q.instruction.isCache = false →
    q :: rest <:+ base ∨ base <:+ (origin q rest).2

variable {past mid base : Past}

theorem whole_refl
    (past : Past) :
    Whole past past :=
  fun _ _ hplace _ => Or.inl hplace

theorem Whole.trans
    (h : Whole past mid)
    (hmid : Whole mid base)
    (hbase : base <:+ mid) :
    Whole past base := by
  intro q rest hplace hplain
  rcases h q rest hplace hplain with hin | habove
  · exact hmid q rest hin hplain
  · exact Or.inr (hbase.trans habove)

/-- One more instruction whose range lies above the base. -/
theorem Whole.cons
    {p : Noted}
    (h : Whole past base)
    (hp : base <:+ (origin p past).2) :
    Whole (p :: past) base := by
  intro q rest hplace hplain
  rcases List.suffix_cons_iff.mp hplace with heq | hplace
  · rw [List.cons.injEq] at heq
    obtain ⟨rfl, rfl⟩ := heq
    exact Or.inr hp
  · exact h q rest hplace hplain

/-- Cache words have no ranges. -/
theorem whole_skipCaches
    (past : Past) :
    Whole past (skipCaches past) := by
  induction past with
  | nil =>
      exact whole_refl []
  | cons p past ih =>
      cases hcache : p.instruction.isCache with
      | true =>
          have hskip : skipCaches (p :: past) = skipCaches past := by
            simp [skipCaches, hcache]
          rw [hskip]
          intro q rest hplace hplain
          rcases List.suffix_cons_iff.mp hplace with heq | hplace
          · rw [List.cons.injEq] at heq
            obtain ⟨rfl, rfl⟩ := heq
            rw [hcache] at hplain
            cases hplain
          · exact ih q rest hplace hplain
      | false =>
          rw [skipCaches_cons past hcache]
          exact whole_refl _

end Bases

section Parts

variable {t : Table} {past mid base : Past} {x : Part} {parts : List Part}

/-- The range of an instruction leaves a whole base, and is the instruction alone where a fold may
take that without a look at its start. -/
structure Level (p : Noted) (rest : Past) : Prop where
  whole : p.instruction.isCache = false → Whole (p :: rest) (origin p rest).2
  alone : p.instruction.isCache = false → Bare p → origin p rest = (p, rest)

/-- A value takes the whole range of its instruction. -/
theorem before_eq_of_valueAt
    {p : Noted} {rest : Past} {v : Value}
    (h : valueAt t p rest = .ok v)
    (halone : p.note.expression = none → origin p rest = (p, rest)) :
    v.before = (origin p rest).2 := by
  unfold valueAt at h
  split at h
  · cases h
  · split at h
    · cases h
      rfl
    · rename_i hnone
      split at h
      · cases h
        rw [halone hnone]
      · cases h

/-- A part takes the whole range of the instruction that it ends with. -/
theorem Ends.before_eq
    (h : Ends t past x mid)
    (hlevel : ∀ q rest, q :: rest <:+ past → Level q rest) :
    ∃ p rest, skipCaches past = p :: rest ∧ mid = (origin p rest).2 := by
  have halone : ∀ {p : Noted} {rest : Past}, skipCaches past = p :: rest → Bare p →
      origin p rest = (p, rest) := by
    intro p rest hskip hbare
    exact (hlevel p rest (suffix_of_skipCaches hskip)).alone (isCache_of_skipCaches hskip) hbare
  cases h with
  | value hskip hvalue =>
      exact ⟨_, _, hskip, before_eq_of_valueAt hvalue fun hnone => halone hskip (Or.inl hnone)⟩
  | slot hskip hslot =>
      exact ⟨_, _, hskip, by rw [halone hskip (Or.inr (Or.inl hslot))]⟩
  | names hskip hkeys =>
      exact ⟨_, _, hskip, by rw [halone hskip (Or.inr (Or.inr ⟨_, hkeys⟩))]⟩
  | imported hskip =>
      exact ⟨_, _, hskip, rfl⟩
  | constant hskip hconst =>
      exact ⟨_, _, hskip, by rw [halone hskip (Or.inr (Or.inr ⟨_, hconst⟩))]⟩

/-- What a fold takes leaves a whole base. -/
theorem Takes.whole
    (h : Takes t past parts base)
    (hlevel : ∀ q rest, q :: rest <:+ past → Level q rest) :
    Whole past base := by
  induction h with
  | nil past =>
      exact whole_refl past
  | @cons past mid base x parts hends hrest ih =>
      have hmid : mid <:+ past := (List.suffix_cons _ _).trans hends.suffix
      have hwhole : Whole past mid := by
        -- Only cache words lie above the range that the part takes.
        obtain ⟨p, rest, hskip, rfl⟩ := hends.before_eq hlevel
        have hplace := suffix_of_skipCaches hskip
        have htop := (hlevel p rest hplace).whole (isCache_of_skipCaches hskip)
        have hcaches := whole_skipCaches past
        rw [hskip] at hcaches
        exact hcaches.trans htop ((List.suffix_cons _ _).trans (origin_suffix p rest))
      exact hwhole.trans (ih fun q rest hplace => hlevel q rest (hplace.trans hmid)) hrest.suffix

end Parts

section Pass

variable {t : Table} {is : List Instruction}

/-- Where nothing is folded into an instruction, its note starts nowhere or with itself. -/
theorem start_of_solitary
    {past : Past} {i : Instruction}
    (hfresh : i.expression = none)
    (h : (noteOf t past i).expression = none ∨ Solitary t i) :
    (noteOf t past i).start = none ∨ (noteOf t past i).start = some i.offset := by
  simp only [noteOf_eq, hfresh] at h ⊢
  split
  · split
    · exact Or.inr rfl
    · exact seed_cases t i
  · rename_i rule hrule
    split
    · rename_i text start hfold
      simp only [hrule, hfold] at h
      rcases h with hnone | hnone | hconst
      · cases hnone
      · rw [hrule] at hnone
        cases hnone
      · rw [hrule, Option.some.injEq] at hconst
        subst hconst
        cases hfold
        exact Or.inr rfl
    · exact seed_cases t i
    · exact seed_cases t i
    · exact seed_cases t i

/-- Every range of the pass leaves a whole base. -/
theorem level_seen
    (hdescending : Descending (seen t [] is))
    (hfresh : ∀ i ∈ is, i.expression = none)
    (hsolitary : ∀ i ∈ is, i.isCache = false →
      (i.opname = "PUSH_NULL" ∨ ∃ c, i.value = .const c) → Solitary t i) :
    ∀ q rest, q :: rest <:+ seen t [] is → Level q rest := by
  refine everywhere_seen ?_
  intro i past hplace hlevel
  have hmem : i ∈ is := mem_of_mem_seen (hplace.subset List.mem_cons_self)
  have hnext : Descending (⟨i, noteOf t past i⟩ :: past) := hdescending.sublist hplace.sublist
  constructor
  case whole =>
    intro _
    rcases takes_of_noteOf (hfresh i hmem) hnext with ⟨hown, _⟩ | ⟨_, parts, _, _, htakes, _⟩
    · refine Whole.cons ?_ List.suffix_rfl
      rw [hown]
      exact whole_refl past
    · exact (htakes.whole hlevel).cons List.suffix_rfl
  case alone =>
    intro hplain hbare
    refine origin_of_own hnext (start_of_solitary (hfresh i hmem) ?_)
    rcases hbare with hnone | hslot | hconst
    · exact Or.inl hnone
    · exact Or.inr (hsolitary i hmem hplain (Or.inl (by simpa [pushesNull] using hslot)))
    · exact Or.inr (hsolitary i hmem hplain (Or.inr hconst))

/-- No range of the pass starts with a cache word. -/
theorem anchored_seen
    {past : Past}
    (hanchored : Anchored past)
    (hdescending : Descending (seen t past is))
    (hfresh : ∀ i ∈ is, i.expression = none) :
    Anchored (seen t past is) := by
  induction is generalizing past with
  | nil =>
      exact hanchored
  | cons i is ih =>
      have hnext : Descending (⟨i, noteOf t past i⟩ :: past) :=
        List.Pairwise.sublist (suffix_seen t _ is).sublist hdescending
      exact ih (anchored_cons hanchored hnext (hfresh i List.mem_cons_self)) hdescending
        fun j hj => hfresh j (List.mem_cons_of_mem i hj)

end Pass

section Offsets

theorem Descending.offset_le
    {p q : Noted} {rest : Past}
    (h : Descending (p :: rest))
    (hq : q ∈ p :: rest) :
    q.instruction.offset ≤ p.instruction.offset := by
  rcases List.mem_cons.mp hq with rfl | hq
  · exact Nat.le_refl _
  · exact Nat.le_of_lt ((List.pairwise_cons.mp h).1 q hq)

/-- A range that ends before another one ends before that starts, or lies within it. -/
theorem Whole.offsets
    {p q : Noted} {rest below : Past}
    (h : Whole (p :: rest) (origin p rest).2)
    (hdescending : Descending (p :: rest))
    (hplace : q :: below <:+ p :: rest)
    (hplain : q.instruction.isCache = false) :
    q.instruction.offset < (origin p rest).1.instruction.offset ∨
      (origin p rest).1.instruction.offset ≤ (origin q below).1.instruction.offset ∧
        q.instruction.offset ≤ p.instruction.offset := by
  have hfirst := origin_suffix p rest
  have hfirst' := (origin_suffix q below).trans hplace
  rcases h q below hplace hplain with hin | habove
  · left
    have hbelow := List.pairwise_cons.mp (hdescending.sublist hfirst.sublist)
    exact hbelow.1 q (hin.subset List.mem_cons_self)
  · right
    -- Both ranges start in the same past, the one with the longer base later.
    have hsuffix : (origin p rest).1 :: (origin p rest).2 <:+
        (origin q below).1 :: (origin q below).2 :=
      List.suffix_of_suffix_length_le hfirst hfirst' (Nat.succ_le_succ habove.length_le)
    have hstarts : Descending ((origin q below).1 :: (origin q below).2) :=
      hdescending.sublist hfirst'.sublist
    exact ⟨hstarts.offset_le (hsuffix.subset List.mem_cons_self),
      hdescending.offset_le (hplace.subset List.mem_cons_self)⟩

end Offsets

section Spans

/-- A range of offsets, with both ends. -/
structure Span where
  start : Nat
  stop : Nat
deriving DecidableEq, Repr

namespace Span

def Covers (a : Span) (offset : Nat) : Prop :=
  a.start ≤ offset ∧ offset ≤ a.stop

def Within (a b : Span) : Prop :=
  b.start ≤ a.start ∧ a.stop ≤ b.stop

def Apart (a b : Span) : Prop :=
  a.stop < b.start ∨ b.stop < a.start

end Span

/-- The ranges of the notes that have a start, but for those of cache words. -/
def spans (is : List Instruction) (notes : List Note) : List Span :=
  (is.zip notes).filterMap fun p =>
    if p.1.isCache then none else p.2.start.map fun start => ⟨start, p.1.offset⟩

/-- The ranges of instructions nest like parentheses. -/
structure SpansNest (is : List Instruction) (notes : List Note) : Prop where
  -- A range starts with an instruction, which is no cache word, at or before its last one.
  starts : ∀ a ∈ spans is notes, a.start ≤ a.stop ∧
    ∃ k ∈ is, k.isCache = false ∧ k.offset = a.start
  -- Two ranges are apart, or one lies within the other.
  nested : ∀ a ∈ spans is notes, ∀ b ∈ spans is notes, a.Apart b ∨ a.Within b ∨ b.Within a
  -- Two ranges share an instruction only where one lies within the other.
  shared : ∀ a ∈ spans is notes, ∀ b ∈ spans is notes, ∀ k ∈ is,
    a.Covers k.offset → b.Covers k.offset → a.Within b ∨ b.Within a

/-- The place in what was seen that a range belongs to. -/
structure SpanAt (t : Table) (is : List Instruction) (a : Span) (p : Noted) (rest : Past) :
    Prop where
  place : p :: rest <:+ seen t [] is
  plain : p.instruction.isCache = false
  start : p.note.start = some a.start
  stop : p.instruction.offset = a.stop

variable {t : Table} {is : List Instruction} {a b : Span}

theorem exists_spanAt
    (h : a ∈ spans is (annotate t is)) :
    ∃ p rest, SpanAt t is a p rest := by
  obtain ⟨⟨i, note⟩, hmem, hspan⟩ := List.mem_filterMap.mp h
  rw [Option.ite_none_left_eq_some, Option.map_eq_some_iff] at hspan
  obtain ⟨hplain, start, hstart, rfl⟩ := hspan
  obtain ⟨above, rest, hseen⟩ := List.append_of_mem (mem_seen_iff.mpr hmem)
  exact ⟨⟨i, note⟩, rest, ⟨above, hseen.symm⟩, by simpa using hplain, hstart, rfl⟩

section Listings

variable
  (hdescending : Descending (seen t [] is))
  (hfresh : ∀ i ∈ is, i.expression = none)

include hdescending hfresh

/-- A range starts with an instruction that is no cache word. -/
theorem SpanAt.first
    {p : Noted} {rest : Past}
    (h : SpanAt t is a p rest) :
    a.start ≤ a.stop ∧ ∃ k ∈ is, k.isCache = false ∧ k.offset = a.start := by
  have hoffset := offset_origin_seen hdescending hfresh p rest h.place a.start h.start
  have hmem : (origin p rest).1 ∈ p :: rest :=
    (origin_suffix p rest).subset List.mem_cons_self
  have hanchored : Anchored (seen t [] is) := anchored_seen trivial hdescending hfresh
  refine ⟨?_, (origin p rest).1.instruction, mem_of_mem_seen (h.place.subset hmem),
    (hanchored.suffix h.place).1 h.plain, hoffset⟩
  rw [← hoffset, ← h.stop]
  exact Descending.offset_le (hdescending.sublist h.place.sublist) hmem

/-- A range that ends before another one is apart from it or lies within it. -/
theorem SpanAt.apart_or_within
    {p q : Noted} {rest below : Past}
    (ha : SpanAt t is a p rest)
    (hb : SpanAt t is b q below)
    (hplace : q :: below <:+ p :: rest)
    (hlevel : Level p rest) :
    a.Apart b ∨ b.Within a := by
  have hoffsets := (hlevel.whole ha.plain).offsets (hdescending.sublist ha.place.sublist) hplace
    hb.plain
  rw [offset_origin_seen hdescending hfresh p rest ha.place a.start ha.start,
    offset_origin_seen hdescending hfresh q below hb.place b.start hb.start, ha.stop,
    hb.stop] at hoffsets
  rcases hoffsets with hlt | hle
  · exact Or.inl (Or.inr hlt)
  · exact Or.inr hle

/-- Ranges that leave whole bases nest. -/
theorem spansNest_of_level
    (hlevel : ∀ q rest, q :: rest <:+ seen t [] is → Level q rest) :
    SpansNest is (annotate t is) := by
  have hnested : ∀ a ∈ spans is (annotate t is), ∀ b ∈ spans is (annotate t is),
      a.Apart b ∨ a.Within b ∨ b.Within a := by
    intro a ha b hb
    obtain ⟨p, rest, hp⟩ := exists_spanAt ha
    obtain ⟨q, below, hq⟩ := exists_spanAt hb
    rcases List.suffix_or_suffix_of_suffix hp.place hq.place with hle | hle
    · rcases hq.apart_or_within hdescending hfresh hp hle (hlevel q below hq.place) with
        hapart | hwithin
      · exact Or.inl hapart.symm
      · exact Or.inr (Or.inl hwithin)
    · rcases hp.apart_or_within hdescending hfresh hq hle (hlevel p rest hp.place) with
        hapart | hwithin
      · exact Or.inl hapart
      · exact Or.inr (Or.inr hwithin)
  constructor
  case starts =>
    intro a ha
    obtain ⟨p, rest, hp⟩ := exists_spanAt ha
    exact hp.first hdescending hfresh
  case nested =>
    exact hnested
  case shared =>
    intro a ha b hb k _ hka hkb
    refine (hnested a ha b hb).resolve_left ?_
    unfold Span.Covers at hka hkb
    unfold Span.Apart
    omega

end Listings
end Spans

/-- The ranges of what is decoded nest, with every table that folds no empty slot and a constant
only by itself.  The tables of this library are such. -/
theorem spansNest_decode :
    (∀ version implementation t, Catalog.find version implementation = .ok t → PlainSources t) ∧
    ∀ t, PlainSources t → ∀ env showCaches code notes,
      annotate? t (decode t env showCaches code).instructions = some notes →
        SpansNest (decode t env showCaches code).instructions notes := by
  refine ⟨fun _ _ _ h => (regular_of_find h).plainSources, ?_⟩
  intro t hsources env showCaches code notes hnotes
  have hdescending := descending_seen t (Decode.pairwise_decode t env showCaches code)
  have hfresh := Decode.expression_decode t env showCaches code
  rw [eq_annotate hnotes]
  refine spansNest_of_level hdescending hfresh (level_seen hdescending hfresh ?_)
  exact fun i hi => solitary_of_mem_decode hsources hi

/-- The sum of a name and a call: the range of the call, with its empty slot, lies within that of
the sum. -/
theorem spansNest_slotCode :
    PlainSources .sample ∧
    ∃ notes, annotate? .sample (decode .sample jumpNames false slotCode).instructions = some notes ∧
      spans (decode .sample jumpNames false slotCode).instructions notes =
        [⟨0, 0⟩, ⟨2, 2⟩, ⟨4, 4⟩, ⟨2, 6⟩, ⟨0, 8⟩, ⟨10, 10⟩] ∧
      SpansNest (decode .sample jumpNames false slotCode).instructions notes := by
  have hsources : PlainSources .sample :=
    (regular_of_isRegular (by decide +kernel)).plainSources
  have hspans : (annotate? .sample (decode .sample jumpNames false slotCode).instructions).map
      (spans (decode .sample jumpNames false slotCode).instructions) =
      some [⟨0, 0⟩, ⟨2, 2⟩, ⟨4, 4⟩, ⟨2, 6⟩, ⟨0, 8⟩, ⟨10, 10⟩] := by
    decide +kernel
  obtain ⟨notes, hnotes, hspans⟩ := Option.map_eq_some_iff.mp hspans
  exact ⟨hsources, notes, hnotes, hspans,
    spansNest_decode.2 .sample hsources jumpNames false slotCode notes hnotes⟩

end Fold
end Disassembler
