import Disassembler.Proofs.Derived
import Disassembler.Table.Registry
import Mathlib.Data.Fintype.Card
import Mathlib.Data.Set.Finite.List
import Mathlib.Logic.Relation

/-!
# The order of table definitions

A registry is built in rounds: each round gives an entry to every source whose parent has one by
then.  In which round a source gets its entry depends on the order of the sources; the entry does
not, since it is made of the source and the entry of its parent alone.

**Input.**  Sources with different keys, whose parents are among them, and of which none is its own
ancestor (`Founded`).

**Results.**
* `Builds` is one source getting its entry; a round and the rounds together are runs of such steps
  (`builds_round`, `exists_builds_rounds`) and end when no waiting source has a parent with an
  entry.
* `Underway` is what every step keeps: a source waits, or has the entry that its parent's entry
  gives it.
* `Founded.induction` is induction on ancestry.  By it no source waits in the end
  (`Founded.waiting_eq_nil`), and the entries are determined by the sources
  (`Founded.eq_of_underway`).
* `ofSources_anyOrder`: sources that can be built on their parents have one entry each, the table
  made from the entry of the parent, and their order does not matter.
-/

namespace Disassembler

namespace Source

section Building

/-- Directives stand for edits. -/
abbrev Convert (directives : List Directive) (edits : List Edit) : Prop :=
  List.Forall₂ (fun d e => d.toEdit = .ok e) directives edits

/-- The directives of a source make its table from the table of its parent, for an assignment of
tables to keys. -/
def Makes (s : Source) (tables : TableKey → Table) : Prop :=
  ∀ key parent, s.key = .ok key → s.parentKey = .ok parent →
    ∃ edits, Convert s.directives edits ∧
      Table.build (parent.map tables) key edits = .ok (tables key)

variable (s : Source) {edits : List Edit} {key : TableKey}

theorem editsOf_of_convert
    (key : TableKey)
    {directives : List Directive}
    (h : Convert directives edits) :
    ∃ located, s.editsOf key directives = .ok located ∧ located.map Prod.snd = edits := by
  induction h with
  | nil =>
      exact ⟨[], rfl, rfl⟩
  | @cons d e rest edits hedit _ ih =>
      obtain ⟨located, hrest, rfl⟩ := ih
      refine ⟨(d.line, e) :: located, ?_, rfl⟩
      rw [editsOf, hedit]
      dsimp only
      rw [hrest]
      rfl

theorem applyEdits_of_applyAll
    {located : List (Nat × Edit)} {b c : Table.Builder}
    (h : b.applyAll (located.map Prod.snd) = ⟨c, none⟩) :
    s.applyEdits located b = .ok c := by
  induction located generalizing b with
  | nil =>
      cases h
      rfl
  | cons e rest ih =>
      rw [List.map_cons, Table.Builder.applyAll, Table.Outcome.andThen] at h
      rw [applyEdits]
      generalize b.apply e.2 = o at h ⊢
      obtain ⟨b', error⟩ := o
      cases error with
      | some cause =>
          cases h
      | none =>
          exact ih h

/-- Directives that convert to edits build the table that the edits make. -/
theorem build_of_convert
    {parent : Option Table} {t : Table}
    (hconvert : Convert s.directives edits)
    (hbuild : Table.build parent key edits = .ok t) :
    s.build key parent = .ok t := by
  obtain ⟨located, hlocated, rfl⟩ := s.editsOf_of_convert key hconvert
  rw [Table.build_eq] at hbuild
  generalize happly :
    (Table.Builder.start parent key).applyAll (located.map Prod.snd) = o at hbuild
  obtain ⟨b, error⟩ := o
  cases error with
  | some cause =>
      cases hbuild
  | none =>
      replace hbuild : b.toTable = .ok t := hbuild
      simp only [build, hlocated, bind, Except.bind, s.applyEdits_of_applyAll happly, hbuild]

end Building
end Source

namespace Registry

section Ancestry

/-- One source of a list is the parent of another. -/
def ParentIn (sources : List Source) (p s : Source) : Prop :=
  p ∈ sources ∧ s ∈ sources ∧ ∃ key, s.parentKey = .ok (some key) ∧ p.key = .ok key

/-- Sources with different keys, all of whose names are known, whose parents are among them and of
which none is its own ancestor. -/
structure Founded (sources : List Source) : Prop where
  distinct : sources.Pairwise fun s s' => s.key ≠ s'.key
  keys : ∀ s ∈ sources, ∃ key, s.key = .ok key
  parentKeys : ∀ s ∈ sources, ∃ parent, s.parentKey = .ok parent
  present : ∀ s ∈ sources, ∀ key, s.parentKey = .ok (some key) → ∃ p ∈ sources, p.key = .ok key
  acyclic : ∀ s, ¬ Relation.TransGen (ParentIn sources) s s

variable {sources sources' : List Source}

/-- Induction on ancestry: what holds of a source if it holds of its parent holds of all. -/
theorem Founded.induction
    {P : Source → Prop}
    (h : Founded sources)
    (hstep : ∀ s ∈ sources, (∀ p, ParentIn sources p s → P p) → P s) :
    ∀ s ∈ sources, P s := by
  let ancestor (p s : {s // s ∈ sources}) : Prop :=
    Relation.TransGen (ParentIn sources) p.1 s.1
  have hfinite : Finite {s // s ∈ sources} := sources.finite_toSet
  have htrans : IsTrans {s // s ∈ sources} ancestor :=
    ⟨fun _ _ _ => Relation.TransGen.trans⟩
  have hirrefl : Std.Irrefl ancestor :=
    ⟨fun s => h.acyclic s.1⟩
  have hfounded : WellFounded ancestor := Finite.wellFounded_of_trans_of_irrefl ancestor
  intro s hs
  refine hfounded.induction (C := fun s => P s.1) ⟨s, hs⟩ ?_
  intro s ih
  exact hstep s.1 s.2 fun p hp => ih ⟨p, hp.1⟩ (Relation.TransGen.single hp)

theorem parentIn_of_perm
    (hperm : sources.Perm sources') :
    ParentIn sources' = ParentIn sources := by
  funext p s
  simp only [ParentIn, hperm.mem_iff]

theorem Founded.perm
    (h : Founded sources)
    (hperm : sources.Perm sources') :
    Founded sources' where
  distinct := (hperm.pairwise_iff fun hne => hne.symm).mp h.distinct
  keys := fun s hs => h.keys s (hperm.mem_iff.mpr hs)
  parentKeys := fun s hs => h.parentKeys s (hperm.mem_iff.mpr hs)
  present := by
    intro s hs key hparent
    obtain ⟨p, hp, hkey⟩ := h.present s (hperm.mem_iff.mpr hs) key hparent
    exact ⟨p, hperm.mem_iff.mp hp, hkey⟩
  acyclic := by
    rw [parentIn_of_perm hperm]
    exact h.acyclic

end Ancestry

section Steps

/-- A waiting source whose parent is there gets its entry. -/
inductive Builds : Registry × List (TableKey × Source) → Registry × List (TableKey × Source) → Prop
  | entry {built : Registry} {before after : List (TableKey × Source)} {key : TableKey}
      {s : Source} {e : Except Error Table}
      (hentry : built.entry? s key = some e) :
      Builds (built, before ++ (key, s) :: after) (built.insert key e, before ++ after)

variable (built : Registry) (waiting : List (TableKey × Source))

/-- A round is a run of steps, whatever else waits. -/
theorem builds_round
    (kept : List (TableKey × Source)) :
    Relation.ReflTransGen Builds (built, kept ++ waiting)
      ((round built waiting).1, kept ++ (round built waiting).2) := by
  induction waiting generalizing built kept with
  | nil =>
      exact Relation.ReflTransGen.refl
  | cons p rest ih =>
      obtain ⟨key, s⟩ := p
      rw [round]
      split
      · rename_i e hentry
        exact (ih (built.insert key e) kept).head (Builds.entry hentry)
      · have hrest := ih built (kept ++ [(key, s)])
        simpa only [List.append_assoc, List.singleton_append] using hrest

theorem length_round_le :
    (round built waiting).2.length ≤ waiting.length := by
  induction waiting generalizing built with
  | nil =>
      exact Nat.le_refl 0
  | cons p rest ih =>
      obtain ⟨key, s⟩ := p
      rw [round]
      split
      · exact Nat.le_succ_of_le (ih _)
      · exact Nat.succ_le_succ (ih built)

/-- A round after which as many sources wait has found no source whose parent is there. -/
theorem round_of_stuck
    (hstuck : ¬ (round built waiting).2.length < waiting.length) :
    round built waiting = (built, waiting) ∧ ∀ p ∈ waiting, built.entry? p.2 p.1 = none := by
  induction waiting with
  | nil =>
      exact ⟨rfl, by simp⟩
  | cons p rest ih =>
      obtain ⟨key, s⟩ := p
      rw [round] at hstuck ⊢
      cases hentry : built.entry? s key with
      | some e =>
          rw [hentry] at hstuck
          exact absurd (Nat.lt_succ_of_le (length_round_le _ rest)) hstuck
      | none =>
          rw [hentry] at hstuck
          have hrest : ¬ (round built rest).2.length < rest.length :=
            fun hlt => hstuck (Nat.succ_lt_succ hlt)
          obtain ⟨hround, hnone⟩ := ih hrest
          refine ⟨by simp only [hround], ?_⟩
          rw [List.forall_mem_cons]
          exact ⟨hentry, hnone⟩

/-- The rounds are a run of steps to where no waiting source has a parent that is there; those left
over are orphans. -/
theorem exists_builds_rounds :
    ∃ (built' : Registry) (left : List (TableKey × Source)),
      Relation.ReflTransGen Builds (built, waiting) (built', left) ∧
      rounds built waiting = orphan built' left ∧
      ∀ p ∈ left, built'.entry? p.2 p.1 = none := by
  fun_induction rounds built waiting with
  | case1 built waiting next hless ih =>
      obtain ⟨built', left, hruns, hrounds, hnone⟩ := ih
      exact ⟨built', left, (builds_round built waiting []).trans hruns, hrounds, hnone⟩
  | case2 built waiting next hstuck =>
      obtain ⟨hround, hnone⟩ := round_of_stuck built waiting hstuck
      refine ⟨built, waiting, Relation.ReflTransGen.refl, ?_, hnone⟩
      simp only [next, hround]

end Steps

section Invariant

variable {sources : List Source} {built built' : Registry}
variable {waiting : List (TableKey × Source)} {s : Source} {key : TableKey}

/-- The entry of a source is made of the source and the entry of its parent alone. -/
theorem entry?_congr
    (h : ∀ p, s.parentKey = .ok (some p) → built'[p]? = built[p]?) :
    built'.entry? s key = built.entry? s key := by
  unfold entry?
  cases hparent : s.parentKey with
  | error e =>
      rfl
  | ok parent =>
      cases parent with
      | none =>
          rfl
      | some p =>
          simp only [h p hparent]

theorem entry?_eq_none_iff
    {parent : Option TableKey}
    (hparent : s.parentKey = .ok parent) :
    built.entry? s key = none ↔ ∃ p, parent = some p ∧ built[p]? = none := by
  unfold entry?
  simp only [hparent]
  cases parent with
  | none =>
      simp
  | some p =>
      simp only [Option.some.injEq, exists_eq_left']
      cases built[p]? with
      | none =>
          simp
      | some e =>
          cases e <;> simp

/-- A source waits, or has the entry that its parent's entry gives it. -/
structure Underway (sources : List Source) (built : Registry)
    (waiting : List (TableKey × Source)) : Prop where
  waits : ∀ p ∈ waiting, p.2 ∈ sources ∧ p.2.key = .ok p.1 ∧ built[p.1]? = none
  nodup : (waiting.map Prod.fst).Nodup
  settled : ∀ s ∈ sources, ∀ key, s.key = .ok key →
    (key, s) ∈ waiting ∨ ∃ e, built[key]? = some e ∧ built.entry? s key = some e
  known : ∀ key e, built[key]? = some e → ∃ s ∈ sources, s.key = .ok key

theorem getElem?_insert_of_ne
    {other : TableKey} (e : Except Error Table)
    (hne : other ≠ key) :
    (built.insert key e)[other]? = built[other]? := by
  rw [Std.ExtTreeMap.getElem?_insert, if_neg]
  intro heq
  exact hne (Std.LawfulEqCmp.eq_of_compare heq).symm

/-- An entry stays what its parent's entry gives when another source gets its own. -/
theorem entry?_insert
    {e e' : Except Error Table} {other : TableKey}
    (hfree : built[key]? = none)
    (hentry : built.entry? s other = some e) :
    entry? (built.insert key e') s other = some e := by
  rw [← hentry]
  refine entry?_congr fun p hparent => getElem?_insert_of_ne e' ?_
  rintro rfl
  rw [(entry?_eq_none_iff hparent).mpr ⟨p, rfl, hfree⟩] at hentry
  cases hentry

/-- A step keeps what holds underway. -/
theorem Underway.step
    {waiting' : List (TableKey × Source)}
    (h : Underway sources built waiting)
    (hstep : Builds (built, waiting) (built', waiting')) :
    Underway sources built' waiting' := by
  cases hstep with
  | @entry _ before after key s e hentry =>
      obtain ⟨hs, hkey, hfree⟩ := h.waits (key, s) (by simp)
      have hnodup := h.nodup
      rw [List.map_append, List.map_cons, List.nodup_middle, ← List.map_append,
        List.nodup_cons] at hnodup
      have hother : ∀ p ∈ before ++ after, p.1 ≠ key := by
        rintro p hp rfl
        exact hnodup.1 (List.mem_map.mpr ⟨p, hp, rfl⟩)
      have hsubset : ∀ p, p ∈ before ++ (key, s) :: after ↔ p = (key, s) ∨ p ∈ before ++ after := by
        intro p
        rw [List.mem_append, List.mem_cons, List.mem_append]
        exact or_left_comm
      refine ⟨?_, hnodup.2, ?_, ?_⟩
      · intro p hp
        obtain ⟨hp', hpkey, hpfree⟩ := h.waits p ((hsubset p).mpr (Or.inr hp))
        exact ⟨hp', hpkey, (getElem?_insert_of_ne e (hother p hp)).trans hpfree⟩
      · intro s' hs' key' hkey'
        rcases h.settled s' hs' key' hkey' with hwaits | ⟨e', hbuilt, hentry'⟩
        · rcases (hsubset _).mp hwaits with heq | hwaits
          · cases heq
            exact Or.inr ⟨e, by simp, entry?_insert hfree hentry⟩
          · exact Or.inl hwaits
        · have hne : key' ≠ key := by
            rintro rfl
            rw [hfree] at hbuilt
            cases hbuilt
          exact Or.inr ⟨e', (getElem?_insert_of_ne e hne).trans hbuilt, entry?_insert hfree hentry'⟩
      · intro key' e' hbuilt
        by_cases hne : key' = key
        · exact ⟨s, hs, hne ▸ hkey⟩
        · rw [getElem?_insert_of_ne e hne] at hbuilt
          exact h.known key' e' hbuilt

/-- A run of steps keeps what holds underway. -/
theorem Underway.run
    {waiting' : List (TableKey × Source)}
    (h : Underway sources built waiting)
    (hruns : Relation.ReflTransGen Builds (built, waiting) (built', waiting')) :
    Underway sources built' waiting' := by
  have hall : ∀ state, Relation.ReflTransGen Builds (built, waiting) state →
      Underway sources state.1 state.2 := by
    intro state hruns
    induction hruns with
    | refl =>
        exact h
    | tail _ hstep ih =>
        exact ih.step hstep
  exact hall _ hruns

theorem mem_keyed_iff :
    (key, s) ∈ keyed sources ↔ s ∈ sources ∧ s.key = .ok key := by
  simp only [keyed, List.mem_filterMap, Option.map_eq_some_iff, Prod.mk.injEq]
  constructor
  · rintro ⟨s', hs', key', hkey', rfl, rfl⟩
    cases hs : s'.key with
    | error e =>
        rw [hs] at hkey'
        cases hkey'
    | ok k =>
        rw [hs] at hkey'
        cases hkey'
        exact ⟨hs', rfl⟩
  · rintro ⟨hs, hkey⟩
    exact ⟨s, hs, key, by rw [hkey]; rfl, rfl, rfl⟩

end Invariant

section Outcome

variable {sources sources' : List Source} {built built' : Registry}
variable {waiting : List (TableKey × Source)}

theorem Founded.nodup_keyed
    (h : Founded sources) :
    ((keyed sources).map Prod.fst).Nodup := by
  rw [List.Nodup, List.pairwise_map, keyed, List.pairwise_filterMap]
  refine h.distinct.imp_of_mem ?_
  intro s s' hs hs' hne p hp p' hp' heq
  obtain ⟨key, hkey⟩ := h.keys s hs
  obtain ⟨key', hkey'⟩ := h.keys s' hs'
  rw [hkey] at hp
  rw [hkey'] at hp'
  cases hp
  cases hp'
  exact hne (hkey.trans ((congrArg Except.ok heq).trans hkey'.symm))

theorem Founded.length_keyed
    (h : Founded sources) :
    (keyed sources).length = sources.length := by
  rw [keyed, List.filterMap_length_eq_length]
  intro s hs
  obtain ⟨key, hkey⟩ := h.keys s hs
  rw [hkey]
  rfl

/-- At the start all sources wait. -/
theorem Founded.underway_start
    (h : Founded sources) :
    Underway sources ∅ (keyed sources) where
  waits := by
    rintro ⟨key, s⟩ hp
    obtain ⟨hs, hkey⟩ := mem_keyed_iff.mp hp
    exact ⟨hs, hkey, Std.ExtTreeMap.getElem?_empty⟩
  nodup := h.nodup_keyed
  settled := fun _ hs _ hkey => Or.inl (mem_keyed_iff.mpr ⟨hs, hkey⟩)
  known := by
    intro key e hbuilt
    rw [Std.ExtTreeMap.getElem?_empty] at hbuilt
    cases hbuilt

/-- Where no waiting source has a parent that is there, no source waits: the parent of one that did
would wait too, and so would all its ancestors. -/
theorem Founded.waiting_eq_nil
    (h : Founded sources)
    (hunderway : Underway sources built waiting)
    (hstuck : ∀ p ∈ waiting, built.entry? p.2 p.1 = none) :
    waiting = [] := by
  have hnone : ∀ s ∈ sources, ∀ key, (key, s) ∉ waiting := by
    refine h.induction ?_
    intro s hs ih key hwaits
    obtain ⟨parent, hparent⟩ := h.parentKeys s hs
    obtain ⟨parentKey, rfl, habsent⟩ :=
      (entry?_eq_none_iff hparent).mp (hstuck (key, s) hwaits)
    obtain ⟨p, hp, hkey⟩ := h.present s hs parentKey hparent
    rcases hunderway.settled p hp parentKey hkey with hwaits' | ⟨e, hbuilt, _⟩
    · exact ih p ⟨hp, hs, parentKey, hparent, hkey⟩ parentKey hwaits'
    · rw [habsent] at hbuilt
      cases hbuilt
  rw [List.eq_nil_iff_forall_not_mem]
  rintro ⟨key, s⟩ hwaits
  exact hnone s (hunderway.waits (key, s) hwaits).1 key hwaits

/-- In the end every source has the entry that its parent's entry gives it. -/
theorem Founded.underway_ofSources
    (h : Founded sources) :
    Underway sources (ofSources sources) [] := by
  obtain ⟨built, left, hruns, hrounds, hstuck⟩ := exists_builds_rounds ∅ (keyed sources)
  have hunderway := h.underway_start.run hruns
  have hleft := h.waiting_eq_nil hunderway hstuck
  subst hleft
  rw [ofSources, hrounds]
  exact hunderway

/-- Registries in which every source has the entry that its parent's entry gives it are equal. -/
theorem Founded.eq_of_underway
    (h : Founded sources)
    (hunderway : Underway sources built []) (hunderway' : Underway sources built' []) :
    built = built' := by
  have hsame : ∀ s ∈ sources, ∀ key, s.key = .ok key → built[key]? = built'[key]? := by
    refine h.induction ?_
    intro s hs ih key hkey
    obtain ⟨e, hbuilt, hentry⟩ := (hunderway.settled s hs key hkey).resolve_left List.not_mem_nil
    obtain ⟨e', hbuilt', hentry'⟩ :=
      (hunderway'.settled s hs key hkey).resolve_left List.not_mem_nil
    have hentries : built.entry? s key = built'.entry? s key := by
      refine entry?_congr fun parentKey hparent => ?_
      obtain ⟨p, hp, hparentKey⟩ := h.present s hs parentKey hparent
      exact ih p ⟨hp, hs, parentKey, hparent, hparentKey⟩ parentKey hparentKey
    rw [hbuilt, hbuilt', ← hentry, ← hentry', hentries]
  refine Std.ExtTreeMap.ext_getElem? fun key => ?_
  by_cases hkey : ∃ s ∈ sources, s.key = .ok key
  · obtain ⟨s, hs, hkey⟩ := hkey
    exact hsame s hs key hkey
  · have hnone : ∀ r : Registry, Underway sources r [] → r[key]? = none := by
      intro r hr
      rw [Option.eq_none_iff_forall_ne_some]
      exact fun e he => hkey (hr.known key e he)
    rw [hnone built hunderway, hnone built' hunderway']

theorem Underway.perm
    (h : Underway sources built [])
    (hperm : sources.Perm sources') :
    Underway sources' built [] where
  waits := by simp
  nodup := List.nodup_nil
  settled := fun s hs => h.settled s (hperm.mem_iff.mpr hs)
  known := by
    intro key e hbuilt
    obtain ⟨s, hs, hkey⟩ := h.known key e hbuilt
    exact ⟨s, hperm.mem_iff.mp hs, hkey⟩

theorem Underway.mem_iff
    (h : Underway sources built []) (key : TableKey) :
    key ∈ built ↔ ∃ s ∈ sources, s.key = .ok key := by
  rw [Std.ExtTreeMap.mem_iff_isSome_getElem?, Option.isSome_iff_exists]
  constructor
  · rintro ⟨e, hbuilt⟩
    exact h.known key e hbuilt
  · rintro ⟨s, hs, hkey⟩
    obtain ⟨e, hbuilt, _⟩ := (h.settled s hs key hkey).resolve_left List.not_mem_nil
    exact ⟨e, hbuilt⟩

/-- There is one entry a source. -/
theorem Founded.size_eq
    (h : Founded sources)
    (hunderway : Underway sources built []) :
    built.size = sources.length := by
  have hperm : built.keys.Perm ((keyed sources).map Prod.fst) := by
    rw [List.perm_ext_iff_of_nodup Std.ExtTreeMap.nodup_keys h.nodup_keyed]
    intro key
    rw [Std.ExtTreeMap.mem_keys, hunderway.mem_iff]
    simp [mem_keyed_iff]
  rw [← Std.ExtTreeMap.length_keys, hperm.length_eq, List.length_map, h.length_keyed]

/-- Sources that make their tables from those of their parents have these tables as entries. -/
theorem Founded.getElem?_eq
    {tables : TableKey → Table}
    (h : Founded sources)
    (hunderway : Underway sources built [])
    (hmakes : ∀ s ∈ sources, s.Makes tables) :
    ∀ s ∈ sources, ∀ key, s.key = .ok key → built[key]? = some (.ok (tables key)) := by
  refine h.induction ?_
  intro s hs ih key hkey
  obtain ⟨parent, hparent⟩ := h.parentKeys s hs
  obtain ⟨edits, hconvert, hbuild⟩ := hmakes s hs key parent hkey hparent
  have hmade := s.build_of_convert hconvert hbuild
  obtain ⟨e, hbuilt, hentry⟩ := (hunderway.settled s hs key hkey).resolve_left List.not_mem_nil
  rw [hbuilt, ← hentry]
  unfold entry?
  cases parent with
  | none =>
      simp only [hparent]
      exact congrArg some hmade
  | some parentKey =>
      obtain ⟨p, hp, hparentKey⟩ := h.present s hs parentKey hparent
      have hbase := ih p ⟨hp, hs, parentKey, hparent, hparentKey⟩ parentKey hparentKey
      simp only [hparent, hbase]
      exact congrArg some hmade

/-- Sources with different keys and known names, whose parents are among them and of which none is
its own ancestor, and whose directives convert and build on their parents, have one entry each.
The entry is the table that the edits make from the entry of the parent, or from nothing, and the
sources in any other order have the same registry. -/
theorem ofSources_anyOrder
    (h : Founded sources)
    (hbuilds : ∃ tables, ∀ s ∈ sources, s.Makes tables) :
    (ofSources sources).size = sources.length ∧
    (∀ key, key ∈ ofSources sources ↔ ∃ s ∈ sources, s.key = .ok key) ∧
    (∀ s ∈ sources, ∃ key parent edits base t,
      s.key = .ok key ∧ s.parentKey = .ok parent ∧ Source.Convert s.directives edits ∧
      Option.Rel (fun p b => (ofSources sources)[p]? = some (.ok b)) parent base ∧
      Table.build base key edits = .ok t ∧ (ofSources sources)[key]? = some (.ok t)) ∧
    (∀ sources', sources.Perm sources' → ofSources sources' = ofSources sources) := by
  have hunderway := h.underway_ofSources
  obtain ⟨tables, hmakes⟩ := hbuilds
  have htables := h.getElem?_eq hunderway hmakes
  refine ⟨h.size_eq hunderway, hunderway.mem_iff, ?_, ?_⟩
  · intro s hs
    obtain ⟨key, hkey⟩ := h.keys s hs
    obtain ⟨parent, hparent⟩ := h.parentKeys s hs
    obtain ⟨edits, hconvert, hbuild⟩ := hmakes s hs key parent hkey hparent
    refine ⟨key, parent, edits, parent.map tables, tables key, hkey, hparent, hconvert, ?_, hbuild,
      htables s hs key hkey⟩
    cases parent with
    | none =>
        exact Option.Rel.none
    | some parentKey =>
        obtain ⟨p, hp, hparentKey⟩ := h.present s hs parentKey hparent
        exact Option.Rel.some (htables p hp parentKey hparentKey)
  · intro sources' hperm
    exact (h.perm hperm).eq_of_underway (h.perm hperm).underway_ofSources (hunderway.perm hperm)

/-- Sources of which each comes before its parent. -/
def sampleSources : List Source :=
  [⟨"cpython-3.9.def", ⟨3, 9⟩, "cpython", some (⟨3, 8⟩, "cpython"), [⟨4, "RM", ["NOP", "9"]⟩]⟩,
   ⟨"cpython-3.8.def", ⟨3, 8⟩, "CPython", some (⟨3, 7⟩, "cpython"),
    [⟨4, "DEF", ["NOP", "9", "0", "0", "op"]⟩]⟩,
   ⟨"cpython-3.7.def", ⟨3, 7⟩, "cpython", none,
    [⟨3, "DEF", ["EXTENDED_ARG", "144", "0", "0", "op"]⟩]⟩]

theorem founded_sampleSources :
    Founded sampleSources := by
  have hkey : ∀ s ∈ sampleSources, s.key = .ok ⟨s.version, .cpython⟩ := by
    simp only [sampleSources, List.forall_mem_cons]
    exact ⟨rfl, rfl, rfl, by simp⟩
  have hparent : ∀ s ∈ sampleSources,
      s.parentKey = .ok (s.parent.map fun p => ⟨p.1, .cpython⟩) := by
    simp only [sampleSources, List.forall_mem_cons]
    exact ⟨rfl, rfl, rfl, by simp⟩
  have holder : ∀ s ∈ sampleSources, ∀ p ∈ s.parent,
      p.1.minor < s.version.minor ∧ ∃ s' ∈ sampleSources, s'.version = p.1 := by
    simp [sampleSources]
  have hdistinct : sampleSources.Pairwise fun s s' => s.version ≠ s'.version := by
    simp [sampleSources]
  have hrank : ∀ p s, ParentIn sampleSources p s → p.version.minor < s.version.minor := by
    rintro p s ⟨hp, hs, key, hparentKey, hpkey⟩
    rw [hkey p hp] at hpkey
    rw [hparent s hs] at hparentKey
    cases hpkey
    obtain ⟨q, hq, hsame⟩ := Option.map_eq_some_iff.mp (Except.ok.inj hparentKey)
    have hversion : q.1 = p.version := congrArg TableKey.version hsame
    rw [← hversion]
    exact (holder s hs q hq).1
  refine ⟨?_, ?_, ?_, ?_, ?_⟩
  · refine hdistinct.imp_of_mem fun hs hs' hne heq => hne ?_
    rw [hkey _ hs, hkey _ hs'] at heq
    exact congrArg TableKey.version (Except.ok.inj heq)
  · exact fun s hs => ⟨_, hkey s hs⟩
  · exact fun s hs => ⟨_, hparent s hs⟩
  · intro s hs key hparentKey
    rw [hparent s hs] at hparentKey
    obtain ⟨q, hq, rfl⟩ := Option.map_eq_some_iff.mp (Except.ok.inj hparentKey)
    obtain ⟨s', hs', hversion⟩ := (holder s hs q hq).2
    exact ⟨s', hs', by rw [hkey s' hs', hversion]⟩
  · intro s hcycle
    have hless : ∀ p q, Relation.TransGen (ParentIn sampleSources) p q →
        p.version.minor < q.version.minor := by
      intro p q hpath
      induction hpath with
      | single hstep =>
          exact hrank _ _ hstep
      | tail _ hstep ih =>
          exact UInt8.lt_trans ih (hrank _ _ hstep)
    exact UInt8.lt_irrefl _ (hless s s hcycle)

/-- The tables of the samples. -/
def sampleTables (key : TableKey) : Table :=
  let first := Table.build none ⟨⟨3, 7⟩, .cpython⟩
    [.define ⟨"EXTENDED_ARG", 144, 0, 0, .plain, []⟩]
  let second := Table.build first.toOption ⟨⟨3, 8⟩, .cpython⟩
    [.define ⟨"NOP", 9, 0, 0, .plain, []⟩]
  let third := Table.build second.toOption ⟨⟨3, 9⟩, .cpython⟩ [.remove "NOP" 9]
  let made :=
    if key.version.minor = 7 then first else if key.version.minor = 8 then second else third
  made.toOption.getD (Table.empty key)

/-- The sources have their entries although each comes before its parent, and the same entries the
other way round. -/
theorem ofSources_anyOrder_sampleSources :
    Founded sampleSources ∧ (∀ s ∈ sampleSources, s.Makes sampleTables) ∧
    (ofSources sampleSources).size = 3 ∧
    ⟨⟨3, 9⟩, .cpython⟩ ∈ ofSources sampleSources ∧
    ofSources sampleSources.reverse = ofSources sampleSources := by
  have hmakes : ∀ s ∈ sampleSources, s.Makes sampleTables := by
    simp only [sampleSources, List.forall_mem_cons]
    refine ⟨?_, ?_, ?_, by simp⟩
    · rintro key parent hkey hparent
      cases hkey
      cases hparent
      exact ⟨[.remove "NOP" 9], .cons rfl .nil, rfl⟩
    · rintro key parent hkey hparent
      cases hkey
      cases hparent
      exact ⟨[.define ⟨"NOP", 9, 0, 0, .plain, []⟩], .cons rfl .nil, rfl⟩
    · rintro key parent hkey hparent
      cases hkey
      cases hparent
      exact ⟨[.define ⟨"EXTENDED_ARG", 144, 0, 0, .plain, []⟩], .cons rfl .nil, rfl⟩
  obtain ⟨hsize, hmem, _, hperm⟩ :=
    ofSources_anyOrder founded_sampleSources ⟨sampleTables, hmakes⟩
  refine ⟨founded_sampleSources, hmakes, hsize, ?_, ?_⟩
  · exact (hmem _).mpr ⟨_, List.mem_cons_self, rfl⟩
  · exact hperm _ (List.reverse_perm sampleSources).symm

end Outcome
end Registry
end Disassembler
