import Disassembler.Proofs.Finalized

/-!
# The last definition of an opcode

A redefinition drops the opcode that has its number and the opcode that has its name, which may be
one, two or none, and then defines its own.

**Input.**  Any builder that can be reached and is not finalized, and any definition.

**Results.**
* `Drops t gone t'` says what a table `t'` is that lacks some opcodes of `t`, seen through all its
  views.  Dropping an opcode by its number or by its name is of this form, whether it was there or
  not (`Consistent.drops_removeOpcode`, `Consistent.drops_removeName`), and so is one after the
  other (`Drops.trans`).
* `Reachable.last_definition`: after a redefinition the definition alone says what its number and
  its name stand for, and everything else is as it was.
-/

namespace Disassembler
namespace Table

section Dropping

/-- A table is another one without some opcodes, their names and their places in classes. -/
structure Drops (t : Table) (gone : Nat → Prop) (t' : Table) : Prop where
  undefined : ∀ o, gone o → t'.info o = none ∧ ∀ c, t'.is o c = false
  unnamed : ∀ n o, t.opcodeOf n = some o → gone o → t'.opcodeOf n = none
  kept : ∀ o, ¬ gone o → t'.info o = t.info o ∧ ∀ c, t'.is o c = t.is o c
  keptNames : ∀ n, (∀ o, t.opcodeOf n = some o → ¬ gone o) → t'.opcodeOf n = t.opcodeOf n
  settings : t'.settings = t.settings

variable {t t' t'' : Table} {gone gone' : Nat → Prop}

/-- An opcode that is not defined can be taken as dropped. -/
theorem Consistent.drops_of_undefined
    (h : t.Consistent)
    (hgone : ∀ o, gone o → t.info o = none) :
    t.Drops gone t where
  undefined := by
    intro o ho
    refine ⟨hgone o ho, fun c => ?_⟩
    rw [Bool.eq_false_iff]
    intro hmem
    obtain ⟨info, hinfo⟩ := h.defined o c hmem
    rw [hgone o ho] at hinfo
    cases hinfo
  unnamed := by
    intro n o hname ho
    obtain ⟨info, hinfo, _⟩ := h.exists_info hname
    rw [hgone o ho] at hinfo
    cases hinfo
  kept := fun _ _ => ⟨rfl, fun _ => rfl⟩
  keptNames := fun _ _ => rfl
  settings := rfl

/-- Erasing an opcode under its name drops it. -/
theorem Consistent.drops_erase
    (h : t.Consistent) {name : String} {opcode : Nat}
    (hname : t.opcodeOf name = some opcode) :
    t.Drops (· = opcode) (t.erase name opcode) where
  undefined := by
    rintro o rfl
    simp
  unnamed := by
    rintro n o hn rfl
    -- Two names of one opcode are the same.
    obtain ⟨info, hinfo, rfl⟩ := h.exists_info hname
    obtain ⟨info', hinfo', rfl⟩ := h.exists_info hn
    rw [hinfo] at hinfo'
    cases hinfo'
    simp
  kept := by
    intro o ho
    simp [Ne.symm ho]
  keptNames := by
    intro n hn
    have hne : name ≠ n := by
      rintro rfl
      exact hn opcode hname rfl
    simp [hne]
  settings := rfl

/-- What is dropped one after the other is dropped. -/
theorem Drops.trans
    (h : t.Drops gone t') (h' : t'.Drops gone' t'') :
    t.Drops (fun o => gone o ∨ gone' o) t'' where
  undefined := by
    intro o ho
    by_cases hlater : gone' o
    · exact h'.undefined o hlater
    · obtain ⟨hinfo, hclass⟩ := h.undefined o (ho.resolve_right hlater)
      obtain ⟨hsame, hsameClass⟩ := h'.kept o hlater
      exact ⟨hsame.trans hinfo, fun c => (hsameClass c).trans (hclass c)⟩
  unnamed := by
    intro n o hn ho
    by_cases hfirst : gone o
    · have hnone := h.unnamed n o hn hfirst
      rw [h'.keptNames n (by simp [hnone]), hnone]
    · have hsame := h.keptNames n fun p hp => by
        rw [hn] at hp
        cases hp
        exact hfirst
      exact h'.unnamed n o (hsame.trans hn) (ho.resolve_left hfirst)
  kept := by
    intro o ho
    obtain ⟨hinfo, hclass⟩ := h.kept o fun hg => ho (Or.inl hg)
    obtain ⟨hinfo', hclass'⟩ := h'.kept o fun hg => ho (Or.inr hg)
    exact ⟨hinfo'.trans hinfo, fun c => (hclass' c).trans (hclass c)⟩
  keptNames := by
    intro n hn
    have hfirst := h.keptNames n fun o ho hg => hn o ho (Or.inl hg)
    have hsecond := h'.keptNames n fun o ho hg => hn o (hfirst ▸ ho) (Or.inr hg)
    exact hsecond.trans hfirst
  settings := h'.settings.trans h.settings

variable {b : Builder}

/-- In a consistent table an opcode is dropped by its number. -/
theorem Consistent.drops_removeOpcode
    (h : b.table.Consistent) (opcode : Nat) :
    ∃ t', b.removeOpcode opcode = b.done t' ∧ b.table.Drops (· = opcode) t' := by
  cases hinfo : b.table.info opcode with
  | none =>
      refine ⟨b.table, by simp [Builder.removeOpcode, hinfo, Builder.done], ?_⟩
      exact h.drops_of_undefined fun o ho => ho ▸ hinfo
  | some info =>
      have hname := h.opcodeOf_name hinfo
      refine ⟨b.table.erase info.name opcode, ?_, h.drops_erase hname⟩
      simp only [Builder.removeOpcode, hinfo, Builder.remove_of_named hname]

/-- In a consistent table an opcode is dropped by its name. -/
theorem Consistent.drops_removeName
    (h : b.table.Consistent) (name : String) :
    ∃ t', b.removeName name = b.done t' ∧
      b.table.Drops (fun o => b.table.opcodeOf name = some o) t' := by
  cases hname : b.table.opcodeOf name with
  | none =>
      refine ⟨b.table, by simp [Builder.removeName, hname, Builder.done], ?_⟩
      exact h.drops_of_undefined fun o ho => by cases ho
  | some opcode =>
      refine ⟨b.table.erase name opcode, ?_, ?_⟩
      · simp only [Builder.removeName, hname, Builder.remove_of_named hname]
      · simpa only [Option.some.injEq, eq_comm] using h.drops_erase hname

end Dropping

section Redefinition

variable {b : Builder}

/-- A redefinition defines its opcode in a table without the opcodes that have its number or its
name. -/
theorem Consistent.drops_redefine
    (h : b.table.Consistent) (hopen : b.frozen = false) (d : OpDef) :
    ∃ t', b.apply (.redefine d) = b.done (t'.insert d) ∧
      b.table.Drops (fun o => o = d.opcode ∨ b.table.opcodeOf d.name = some o) t' := by
  obtain ⟨u, hu, hdrops⟩ := h.drops_removeOpcode d.opcode
  have hconsistent : u.Consistent := by
    have hchanges := h.changes (Builder.changes_removeOpcode b d.opcode)
    rwa [hu] at hchanges
  obtain ⟨t', ht', hdrops'⟩ :=
    Consistent.drops_removeName (b := ⟨u, false⟩) hconsistent d.name
  -- A name that leads to the dropped number leads nowhere by now.
  have hboth : b.table.Drops (fun o => o = d.opcode ∨ b.table.opcodeOf d.name = some o) t' := by
    have hgone : ∀ o, (o = d.opcode ∨ u.opcodeOf d.name = some o) ↔
        (o = d.opcode ∨ b.table.opcodeOf d.name = some o) := by
      intro o
      by_cases hname : b.table.opcodeOf d.name = some d.opcode
      · simp [hname, hdrops.unnamed d.name d.opcode hname rfl, eq_comm]
      · rw [hdrops.keptNames d.name fun p hp hpo => hname (hpo ▸ hp)]
    have htrans := hdrops.trans hdrops'
    simpa only [hgone] using htrans
  have hfits : t'.conflict? d = none := by
    have hopcode := (hboth.undefined d.opcode (Or.inl rfl)).1
    refine conflict_of_free hopcode ?_
    cases hname : b.table.opcodeOf d.name with
    | none =>
        rw [hboth.keptNames d.name (by simp [hname]), hname]
    | some o =>
        exact hboth.unnamed d.name o hname (Or.inr hname)
  refine ⟨t', ?_, hboth⟩
  simp [Builder.apply, hopen, hu, ht', Outcome.andThen, Builder.done, Builder.define, hfits]

end Redefinition

/-- A redefinition in a builder that can be reached and is not finalized succeeds.  Its number then
has its name, its counts and its classes, and nothing that was bound before; the name that had the
number and the opcode that had the name are gone; every other opcode and every other name is as it
was, and so are the settings. -/
theorem Reachable.last_definition
    {b : Builder}
    (h : Reachable b) (hopen : b.frozen = false) (d : OpDef) :
    ∃ t', b.apply (.redefine d) = ⟨⟨t', false⟩, none⟩ ∧
      t'.info d.opcode = some {
        name := d.name
        pop := d.pop
        push := d.push
        format := none
        fold := none
        stackRule := none
        encoding := .plain
        cacheEntries := 0
        backward := d.flags.contains .backward } ∧
      t'.opcodeOf d.name = some d.opcode ∧
      (∀ c, t'.is d.opcode c = true ↔ c ∈ d.kind.classes ∨ ∃ f ∈ d.flags, c ∈ f.classes) ∧
      (∀ info, b.table.info d.opcode = some info → info.name ≠ d.name →
        t'.opcodeOf info.name = none) ∧
      (∀ o, b.table.opcodeOf d.name = some o → o ≠ d.opcode →
        t'.info o = none ∧ ∀ c, t'.is o c = false) ∧
      (∀ o, o ≠ d.opcode → b.table.opcodeOf d.name ≠ some o →
        t'.info o = b.table.info o ∧ ∀ c, t'.is o c = b.table.is o c) ∧
      (∀ n, n ≠ d.name → (∀ info, b.table.info d.opcode = some info → info.name ≠ n) →
        t'.opcodeOf n = b.table.opcodeOf n) ∧
      t'.settings = b.table.settings := by
  have hconsistent := h.consistent
  obtain ⟨u, hu, hdrops⟩ := hconsistent.drops_redefine hopen d
  obtain ⟨hfree, hnoClass⟩ := hdrops.undefined d.opcode (Or.inl rfl)
  refine ⟨u.insert d, by rw [hu, Builder.done, hopen], ?_, by simp, ?_, ?_, ?_, ?_, ?_,
    hdrops.settings⟩
  · simp [hfree, defineInfo, OpDef.backward]
  · intro c
    simp [hnoClass c, OpDef.classes]
  · intro info hinfo hne
    have hname := hconsistent.opcodeOf_name hinfo
    simp [Ne.symm hne, hdrops.unnamed info.name d.opcode hname (Or.inl rfl)]
  · intro o ho hne
    obtain ⟨hinfo, hclass⟩ := hdrops.undefined o (Or.inr ho)
    simp [Ne.symm hne, hinfo, hclass]
  · intro o hne ho
    obtain ⟨hinfo, hclass⟩ := hdrops.kept o fun hg => hg.elim hne ho
    simp [Ne.symm hne, hinfo, hclass]
  · intro n hne hother
    have hkept := hdrops.keptNames n fun o ho hg => by
      obtain ⟨info, hinfo, rfl⟩ := hconsistent.exists_info ho
      rcases hg with rfl | hg
      · exact hother info hinfo rfl
      · obtain ⟨info', hinfo', hname⟩ := hconsistent.exists_info hg
        rw [hinfo] at hinfo'
        cases hinfo'
        exact hne hname
    simp [Ne.symm hne, hkept]

/-- A builder with a rotation that something is bound to, a load and one more opcode. -/
def sampleBound : Builder :=
  ((Builder.new ⟨⟨3, 8⟩, .cpython⟩).applyAll [
    .define ⟨"ROT_TWO", 2, 2, 2, .plain, [.noFollow]⟩,
    .bind "ROT_TWO" (.format (some .rotTwo)),
    .bind "ROT_TWO" (.cacheEntries 3),
    .define ⟨"LOAD_NAME", 101, 0, 1, .name, [.nullaryLoad]⟩,
    .define ⟨"EXTENDED_ARG", 144, 0, 0, .plain, []⟩]).builder

/-- The name of the load moves to the number of the rotation: neither the rotation nor the number of
the load is left, and nothing is bound to the new opcode. -/
theorem last_definition_sampleBound :
    Reachable sampleBound ∧ sampleBound.frozen = false ∧
    ∃ t', sampleBound.apply (.redefine ⟨"LOAD_NAME", 2, 1, 1, .unary, [.backward]⟩) =
        ⟨⟨t', false⟩, none⟩ ∧
      t'.info 2 = some ⟨"LOAD_NAME", 1, 1, none, none, none, .plain, 0, true⟩ ∧
      (t'.is 2 .unary = true ∧ t'.is 2 .noFollow = false) ∧
      t'.opcodeOf "ROT_TWO" = none ∧
      (t'.info 101 = none ∧ t'.is 101 .nullaryLoad = false) ∧
      t'.opcodeOf "EXTENDED_ARG" = some 144 := by
  have hreach : Reachable sampleBound :=
    (Reachable.new _).applyAll _
  have hopen : sampleBound.frozen = false := by
    decide
  obtain ⟨t', happly, hinfo, _, hclass, hold, hother, _, hnames, _⟩ :=
    hreach.last_definition hopen ⟨"LOAD_NAME", 2, 1, 1, .unary, [.backward]⟩
  have hrotation : (sampleBound.table.info 2).map OpInfo.name = some "ROT_TWO" := by
    decide
  obtain ⟨info, hrot, hname⟩ := Option.map_eq_some_iff.mp hrotation
  have hload := hother 101 (by decide) (by decide)
  refine ⟨hreach, hopen, t', happly, hinfo, ⟨?_, ?_⟩, ?_, ⟨hload.1, hload.2 _⟩, ?_⟩
  · exact (hclass .unary).mpr (by decide)
  · rw [Bool.eq_false_iff]
    exact fun hmem => absurd ((hclass .noFollow).mp hmem) (by decide)
  · rw [← hname]
    exact hold info hrot (by rw [hname]; decide)
  · rw [hnames "EXTENDED_ARG" (by decide) fun i hi => ?_]
    · decide
    · rw [hrot] at hi
      cases hi
      rw [hname]
      decide

end Table
end Disassembler
