import Disassembler.Table.Lemmas
import Mathlib.Logic.Relation

/-!
# Builders that can be reached

A builder is new, or made from the table of another one, finalized or not, and then goes through
edits, which may fail, and attempts to finalize it.

**Input.**  Any builder that is reached in this way (`Reachable`).

**Results.**
* `Change` lists the changes that operations are made of; every edit is a run of them
  (`changes_apply`), whether it succeeds or not.
* `Consistent` is what all of them keep: opcodes and names lead to each other, members of classes
  are defined, and every class has its set of members.
* `Reachable.bijective`: the table of every builder that can be reached is consistent, so that two
  of the faults that operations report never occur.
-/

namespace Disassembler
namespace Table

section Changes

/-- The single changes that operations on a table are made of. -/
inductive Change (t : Table) : Table → Prop
  | erase (name : String) (opcode : Nat)
      (hname : t.opcodeOf name = some opcode) :
      Change t (t.erase name opcode)
  | clear :
      Change t t.clear
  | insert (d : OpDef)
      (hfits : t.conflict? d = none) :
      Change t (t.insert d)
  | settings (s : Settings) :
      Change t { t with settings := s }
  | bind (opcode : Nat) (info : OpInfo) (binding : Binding)
      (hinfo : t.info opcode = some info) :
      Change t { t with ops := t.ops.insert opcode (info.bind binding) }

/-- The changes of a table, one after the other. -/
abbrev Changes : Table → Table → Prop :=
  Relation.ReflTransGen Change

namespace Builder

/-- A removal erases an opcode, or fails and leaves the table as it is. -/
theorem changes_remove
    (b : Builder) (name : String) (opcode : Nat) :
    Changes b.table (b.remove name opcode).builder.table := by
  unfold remove
  split
  · exact Relation.ReflTransGen.refl
  · rename_i actual hname
    split
    · rename_i hactual
      subst hactual
      exact Relation.ReflTransGen.single (Change.erase name actual hname)
    · exact Relation.ReflTransGen.refl

/-- A definition inserts an opcode, or fails and leaves the table as it is. -/
theorem changes_define
    (b : Builder) (d : OpDef) :
    Changes b.table (b.define d).builder.table := by
  unfold define
  split
  · exact Relation.ReflTransGen.refl
  · rename_i hfits
    exact Relation.ReflTransGen.single (Change.insert d hfits)

/-- A binding changes the information of an opcode, or fails and leaves the table as it is. -/
theorem changes_bind
    (b : Builder) (name : String) (binding : Binding) :
    Changes b.table (b.bind name binding).builder.table := by
  unfold bind
  split
  · exact Relation.ReflTransGen.refl
  · rename_i opcode _
    split
    · exact Relation.ReflTransGen.refl
    · rename_i info hinfo
      exact Relation.ReflTransGen.single (Change.bind opcode info binding hinfo)

theorem changes_removeOpcode
    (b : Builder) (opcode : Nat) :
    Changes b.table (b.removeOpcode opcode).builder.table := by
  unfold removeOpcode
  split
  · exact changes_remove b _ opcode
  · exact Relation.ReflTransGen.refl

theorem changes_removeName
    (b : Builder) (name : String) :
    Changes b.table (b.removeName name).builder.table := by
  unfold removeName
  split
  · exact changes_remove b name _
  · exact Relation.ReflTransGen.refl

theorem changes_andThen
    {t : Table} {o : Outcome} {next : Builder → Outcome}
    (hfirst : Changes t o.builder.table)
    (hnext : ∀ b : Builder, Changes b.table (next b).builder.table) :
    Changes t (o.andThen next).builder.table := by
  unfold Outcome.andThen
  split
  · exact hfirst
  · exact hfirst.trans (hnext o.builder)

/-- An edit is a run of changes, whether it succeeds or not. -/
theorem changes_apply
    (b : Builder) (edit : Edit) :
    Changes b.table (b.apply edit).builder.table := by
  unfold apply
  split
  · exact Relation.ReflTransGen.refl
  · cases edit with
    | remove name opcode =>
        exact changes_remove b name opcode
    | define d =>
        exact changes_define b d
    | redefine d =>
        have hdropped := changes_andThen (changes_removeOpcode b d.opcode)
          fun c => changes_removeName c d.name
        exact changes_andThen hdropped fun c => changes_define c d
    | removeAll =>
        exact Relation.ReflTransGen.single Change.clear
    | setting s =>
        exact Relation.ReflTransGen.single (Change.settings _)
    | bind name binding =>
        exact changes_bind b name binding

end Builder
end Changes

section Consistency

/-- Opcodes and names lead to each other, members of classes are defined, and every class has its
set of members. -/
structure Consistent (t : Table) : Prop where
  named : ∀ o n, (∃ info, t.info o = some info ∧ info.name = n) ↔ t.opcodeOf n = some o
  defined : ∀ o c, t.is o c = true → ∃ info, t.info o = some info
  present : ∀ c : OpClass, ∃ set, t.classes[c]? = some set

variable {t : Table}

theorem Consistent.opcodeOf_name
    (h : t.Consistent) {o : Nat} {info : OpInfo}
    (hinfo : t.info o = some info) :
    t.opcodeOf info.name = some o :=
  (h.named o info.name).mp ⟨info, hinfo, rfl⟩

theorem Consistent.exists_info
    (h : t.Consistent) {o : Nat} {n : String}
    (hname : t.opcodeOf n = some o) :
    ∃ info, t.info o = some info ∧ info.name = n :=
  (h.named o n).mpr hname

theorem classes_empty
    (key : TableKey) (c : OpClass) :
    (Table.empty key).classes[c]? = some ∅ := by
  have hdistinct :
      (OpClass.all.map fun c => (c, (∅ : OpcodeSet))).Pairwise
        fun a b => ¬ compare a.1 b.1 = .eq := by
    rw [List.pairwise_map]
    decide
  exact Std.ExtTreeMap.getElem?_ofList_of_mem Std.ReflCmp.compare_self hdistinct
    (List.mem_map.mpr ⟨c, OpClass.mem_all c, rfl⟩)

theorem consistent_empty
    (key : TableKey) :
    (Table.empty key).Consistent where
  named := by
    intro o n
    simp [Table.empty, info, opcodeOf]
  defined := by
    intro o c hmem
    simp [is, members, ClassSets.membersOf, classes_empty, Std.ExtTreeSet.contains_empty] at hmem
  present := by
    intro c
    exact ⟨∅, classes_empty key c⟩

/-- A definition that fits finds its opcode free or under its own name, and its name free or at its
own opcode. -/
theorem fits_of_conflict
    {d : OpDef}
    (h : t.conflict? d = none) :
    (∀ info, t.info d.opcode = some info → info.name = d.name) ∧
      (∀ o, t.opcodeOf d.name = some o → o = d.opcode) := by
  unfold conflict? at h
  split at h
  · cases h
  · rename_i hother
    split at h
    · cases h
    · rename_i helsewhere
      constructor
      · intro info hinfo
        simpa [Option.filter_eq_none_iff, hinfo] using hother
      · intro o hopcode
        simpa [Option.filter_eq_none_iff, hopcode] using helsewhere

theorem present_addToClasses
    {sets : ClassSets} (opcode : Nat) (cs : List OpClass)
    (h : ∀ c : OpClass, ∃ set, sets[c]? = some set) :
    ∀ c : OpClass, ∃ set, (addToClasses sets opcode cs)[c]? = some set := by
  induction cs generalizing sets with
  | nil =>
      exact h
  | cons d rest ih =>
      rw [addToClasses]
      apply ih
      intro c
      rw [Std.ExtTreeMap.getElem?_insert]
      split
      · exact ⟨_, rfl⟩
      · exact h c

/-- Erasing an opcode under its name keeps a table consistent. -/
theorem Consistent.erase
    (h : t.Consistent) {name : String} {opcode : Nat}
    (hname : t.opcodeOf name = some opcode) :
    (t.erase name opcode).Consistent where
  named := by
    intro o n
    rw [opcodeOf_erase, info_erase]
    by_cases ho : opcode = o
    · subst ho
      -- The only name of the erased opcode is the erased one.
      have hn : ∀ m, t.opcodeOf m = some opcode → name = m := by
        intro m hm
        obtain ⟨info, hinfo, rfl⟩ := h.exists_info hname
        obtain ⟨info', hinfo', rfl⟩ := h.exists_info hm
        rw [hinfo] at hinfo'
        cases hinfo'
        rfl
      by_cases hnn : name = n
      · simp [hnn]
      · have hne : t.opcodeOf n ≠ some opcode := fun hm => hnn (hn n hm)
        simp [hnn, hne]
    · rw [if_neg ho]
      by_cases hnn : name = n
      · subst hnn
        have hne : ¬ t.opcodeOf name = some o := by
          rw [hname]
          simpa using ho
        rw [← h.named] at hne
        simpa using hne
      · rw [if_neg hnn]
        exact h.named o n
  defined := by
    intro o c hmem
    rw [is_erase, Bool.and_eq_true, bne_iff_ne] at hmem
    obtain ⟨info, hinfo⟩ := h.defined o c hmem.2
    exact ⟨info, by rw [info_erase, if_neg hmem.1, hinfo]⟩
  present := by
    intro c
    obtain ⟨set, hset⟩ := h.present c
    exact ⟨set.erase opcode, by simp [Table.erase, Std.ExtTreeMap.getElem?_map, hset]⟩

theorem Consistent.clear
    (h : t.Consistent) :
    t.clear.Consistent where
  named := by
    intro o n
    simp
  defined := by
    intro o c hmem
    simp at hmem
  present := by
    intro c
    obtain ⟨set, hset⟩ := h.present c
    exact ⟨∅, by simp [Table.clear, Std.ExtTreeMap.getElem?_map, hset]⟩

theorem name_defineInfo
    {d : OpDef}
    (h : ∀ info, t.info d.opcode = some info → info.name = d.name) :
    (defineInfo (t.info d.opcode) d).name = d.name := by
  cases hinfo : t.info d.opcode with
  | none =>
      rfl
  | some info =>
      exact h info hinfo

/-- A definition that fits keeps a table consistent. -/
theorem Consistent.insert
    (h : t.Consistent) {d : OpDef}
    (hfits : t.conflict? d = none) :
    (t.insert d).Consistent where
  named := by
    obtain ⟨hopcode, hname⟩ := fits_of_conflict hfits
    intro o n
    rw [opcodeOf_insert, info_insert]
    by_cases ho : d.opcode = o
    · subst ho
      rw [if_pos rfl]
      by_cases hn : d.name = n
      · simp [hn, name_defineInfo hopcode]
      · -- Another name with this opcode would be the name of the definition.
        have hne : t.opcodeOf n ≠ some d.opcode := by
          intro hm
          obtain ⟨info, hinfo, hinfoName⟩ := h.exists_info hm
          exact hn ((hopcode info hinfo).symm.trans hinfoName)
        simp [hn, hne, name_defineInfo hopcode]
    · rw [if_neg ho]
      by_cases hn : d.name = n
      · subst hn
        have hne : ¬ t.opcodeOf d.name = some o := fun hm => ho (hname o hm).symm
        rw [← h.named] at hne
        simpa [ho] using hne
      · rw [if_neg hn]
        exact h.named o n
  defined := by
    intro o c hmem
    rw [info_insert]
    split
    · exact ⟨_, rfl⟩
    · rename_i ho
      rw [is_insert] at hmem
      have hold : t.is o c = true := by
        simpa [ho] using hmem
      exact h.defined o c hold
  present := by
    exact present_addToClasses d.opcode d.classes h.present

/-- Binding a property of an opcode keeps a table consistent. -/
theorem Consistent.bind
    (h : t.Consistent) {opcode : Nat} {info : OpInfo}
    (hinfo : t.info opcode = some info) (binding : Binding) :
    ({ t with ops := t.ops.insert opcode (info.bind binding) } : Table).Consistent := by
  have hname : (info.bind binding).name = info.name := by
    cases binding <;> rfl
  have hafter : ∀ o,
      ({ t with ops := t.ops.insert opcode (info.bind binding) } : Table).info o =
        if opcode = o then some (info.bind binding) else t.info o := by
    intro o
    simp [Table.info, Std.ExtTreeMap.getElem?_insert]
  refine ⟨?_, ?_, h.present⟩
  · intro o n
    rw [hafter]
    by_cases ho : opcode = o
    · subst ho
      rw [if_pos rfl]
      simp only [Option.some.injEq, exists_eq_left', hname]
      have hold := h.named opcode n
      simp only [hinfo, Option.some.injEq, exists_eq_left'] at hold
      exact hold
    · rw [if_neg ho]
      exact h.named o n
  · intro o c hmem
    rw [hafter]
    split
    · exact ⟨_, rfl⟩
    · exact h.defined o c hmem

/-- A single change keeps a table consistent. -/
theorem Consistent.change
    (h : t.Consistent) {t' : Table}
    (hchange : Change t t') :
    t'.Consistent := by
  cases hchange with
  | erase name opcode hname =>
      exact h.erase hname
  | clear =>
      exact h.clear
  | insert d hfits =>
      exact h.insert hfits
  | settings s =>
      exact ⟨h.named, h.defined, h.present⟩
  | bind opcode info binding hinfo =>
      exact h.bind hinfo binding

/-- A run of changes keeps a table consistent. -/
theorem Consistent.changes
    (h : t.Consistent) {t' : Table}
    (hchanges : Changes t t') :
    t'.Consistent := by
  induction hchanges with
  | refl =>
      exact h
  | tail _ hchange ih =>
      exact ih.change hchange

end Consistency

section Runs

/-- A builder is new, or made from the table of another one, and goes through edits, which may
fail, and attempts to finalize it. -/
inductive Reachable : Builder → Prop
  | new (key : TableKey) :
      Reachable (Builder.new key)
  | child {b : Builder} (key : TableKey)
      (h : Reachable b) :
      Reachable (Builder.ofParent b.table key)
  | apply {b : Builder} (edit : Edit)
      (h : Reachable b) :
      Reachable (b.apply edit).builder
  | finalize {b : Builder}
      (h : Reachable b) :
      Reachable b.finalize.builder

theorem Consistent.finalize
    {b : Builder}
    (h : b.table.Consistent) :
    b.finalize.builder.table.Consistent := by
  unfold Builder.finalize
  split
  · exact h
  · split
    · exact h
    · exact ⟨h.named, h.defined, h.present⟩

/-- The table of every builder that can be reached is consistent. -/
theorem Reachable.consistent
    {b : Builder}
    (h : Reachable b) :
    b.table.Consistent := by
  induction h with
  | new key =>
      exact consistent_empty key
  | child key _ ih =>
      exact ⟨ih.named, ih.defined, ih.present⟩
  | apply edit _ ih =>
      exact ih.changes (Builder.changes_apply _ edit)
  | finalize _ ih =>
      exact ih.finalize

theorem Consistent.unmapped
    {t : Table}
    (h : t.Consistent) :
    t.unmapped? = none := by
  unfold unmapped?
  rw [List.findSome?_eq_none_iff]
  rintro ⟨opcode, info⟩ hmem
  have hinfo : t.info opcode = some info :=
    Std.ExtTreeMap.mem_toList_iff_getElem?_eq_some.mp hmem
  have hback : t.opcodes[info.name]? = some opcode :=
    h.opcodeOf_name hinfo
  simp [hback]

theorem findExtendedArg_ne_unmapped
    (t : Table) (opcode : Nat) (name : String) :
    t.findExtendedArg ≠ .error (.unmapped opcode name) := by
  unfold findExtendedArg
  split
  · simp
  · split <;> simp

theorem overlap_ne_unmapped
    (t : Table) (opcode : Nat) (name : String) :
    t.overlap? ≠ some (.unmapped opcode name) := by
  unfold overlap?
  intro h
  obtain ⟨pair, _, hpair⟩ := List.exists_of_findSome?_eq_some h
  obtain ⟨o, _, ho⟩ := Option.map_eq_some_iff.mp hpair
  cases ho

/-- Finalizing a consistent table never finds a name that leads elsewhere. -/
theorem Consistent.check_ne_unmapped
    {t : Table}
    (h : t.Consistent) (opcode : Nat) (name : String) :
    t.check ≠ .error (.unmapped opcode name) := by
  unfold check
  split
  · rename_i fault hoverlap
    intro herror
    cases herror
    exact overlap_ne_unmapped t opcode name hoverlap
  · rw [h.unmapped]
    exact findExtendedArg_ne_unmapped t opcode name

theorem remove_ne_bindEmpty
    (b : Builder) (name : String) (opcode : Nat) (key : TableKey) (n : String) (o : Nat) :
    (b.remove name opcode).error ≠ some (.inconsistentTable key (.bindEmpty n o)) := by
  unfold Builder.remove
  split
  · simp [Builder.fail]
  · split <;> simp [Builder.fail, Builder.done]

theorem define_ne_bindEmpty
    (b : Builder) (d : OpDef) (key : TableKey) (n : String) (o : Nat) :
    (b.define d).error ≠ some (.inconsistentTable key (.bindEmpty n o)) := by
  unfold Builder.define conflict?
  split
  · rename_i fault hfault
    split at hfault
    · cases hfault
      simp [Builder.fail]
    · split at hfault
      · cases hfault
        simp [Builder.fail]
      · cases hfault
  · simp [Builder.done]

theorem andThen_error_ne
    {o : Outcome} {next : Builder → Outcome} {e : Error}
    (hfirst : o.error ≠ some e)
    (hnext : ∀ b, (next b).error ≠ some e) :
    (o.andThen next).error ≠ some e := by
  unfold Outcome.andThen
  split
  · exact hfirst
  · exact hnext o.builder

theorem Consistent.bind_ne_bindEmpty
    {b : Builder}
    (h : b.table.Consistent)
    (name : String) (binding : Binding) (key : TableKey) (n : String) (o : Nat) :
    (b.bind name binding).error ≠ some (.inconsistentTable key (.bindEmpty n o)) := by
  unfold Builder.bind
  split
  · simp [Builder.fail]
  · rename_i opcode hname
    obtain ⟨info, hinfo, _⟩ := h.exists_info hname
    simp [hinfo, Builder.done]

/-- No edit of a consistent table finds an empty slot. -/
theorem Consistent.apply_ne_bindEmpty
    {b : Builder}
    (h : b.table.Consistent)
    (edit : Edit) (key : TableKey) (n : String) (o : Nat) :
    (b.apply edit).error ≠ some (.inconsistentTable key (.bindEmpty n o)) := by
  unfold Builder.apply
  split
  · simp
  · cases edit with
    | remove name opcode =>
        exact remove_ne_bindEmpty b name opcode key n o
    | define d =>
        exact define_ne_bindEmpty b d key n o
    | redefine d =>
        have hopcode : (b.removeOpcode d.opcode).error ≠
            some (.inconsistentTable key (.bindEmpty n o)) := by
          unfold Builder.removeOpcode
          split
          · exact remove_ne_bindEmpty b _ _ key n o
          · simp
        have hname : ∀ c : Builder, (c.removeName d.name).error ≠
            some (.inconsistentTable key (.bindEmpty n o)) := by
          intro c
          unfold Builder.removeName
          split
          · exact remove_ne_bindEmpty c _ _ key n o
          · simp
        exact andThen_error_ne (andThen_error_ne hopcode hname)
          fun c => define_ne_bindEmpty c d key n o
    | removeAll =>
        simp [Builder.done]
    | setting s =>
        simp [Builder.done]
    | bind name binding =>
        exact h.bind_ne_bindEmpty name binding key n o

/-- No attempt to finalize a consistent table finds a name that leads elsewhere. -/
theorem Consistent.finalize_ne_unmapped
    {b : Builder}
    (h : b.table.Consistent) (key : TableKey) (opcode : Nat) (name : String) :
    b.finalize.error ≠ some (.inconsistentTable key (.unmapped opcode name)) := by
  unfold Builder.finalize
  split
  · simp
  · split
    · rename_i fault hcheck
      intro herror
      simp only [Builder.fail, Option.some.injEq, Error.inconsistentTable.injEq] at herror
      rw [herror.2] at hcheck
      exact h.check_ne_unmapped opcode name hcheck
    · simp

/-- In the table of every builder that can be reached, opcodes and names lead to each other, members
of classes are defined and every class has its set of members; so finalizing never finds a name that
leads elsewhere, and no edit finds an empty slot. -/
theorem Reachable.bijective
    {b : Builder}
    (h : Reachable b) :
    (∀ o n, (∃ info, b.table.info o = some info ∧ info.name = n) ↔ b.table.opcodeOf n = some o) ∧
    (∀ o c, b.table.is o c = true → ∃ info, b.table.info o = some info) ∧
    (∀ c : OpClass, ∃ set, b.table.classes[c]? = some set) ∧
    (∀ key o n, b.finalize.error ≠ some (.inconsistentTable key (.unmapped o n))) ∧
    (∀ edit key n o, (b.apply edit).error ≠ some (.inconsistentTable key (.bindEmpty n o))) := by
  have hconsistent := h.consistent
  exact ⟨hconsistent.named, hconsistent.defined, hconsistent.present,
    hconsistent.finalize_ne_unmapped, hconsistent.apply_ne_bindEmpty⟩

/-- A child of a table that is not finalized, after a definition that fails and one that moves a
name to another number. -/
def sampleChild : Builder :=
  let parent := ((Builder.new ⟨⟨3, 7⟩, .cpython⟩).apply
    (.define ⟨"POP_TOP", 1, 1, 0, .plain, []⟩)).builder
  let child := ((Builder.ofParent parent.table ⟨⟨3, 8⟩, .cpython⟩).apply
    (.define ⟨"POP_TOP", 2, 1, 0, .plain, []⟩)).builder
  (child.apply (.redefine ⟨"POP_TOP", 2, 1, 0, .plain, []⟩)).builder

/-- The sample can be reached, and the moved name leads to its new number only. -/
theorem bijective_sampleChild :
    Reachable sampleChild ∧
    sampleChild.table.opcodeOf "POP_TOP" = some 2 ∧
    (∃ info, sampleChild.table.info 2 = some info ∧ info.name = "POP_TOP") ∧
    ¬ ∃ info, sampleChild.table.info 1 = some info ∧ info.name = "POP_TOP" := by
  have hreach : Reachable sampleChild :=
    .apply _ (.apply _ (.child _ (.apply _ (.new _))))
  have hname : sampleChild.table.opcodeOf "POP_TOP" = some 2 := by
    decide
  have hnamed := hreach.bijective.1
  refine ⟨hreach, hname, (hnamed 2 "POP_TOP").mpr hname, ?_⟩
  rw [hnamed 1 "POP_TOP", hname]
  decide

end Runs
end Table
end Disassembler
