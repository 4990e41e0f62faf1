import Disassembler.Proofs.Redefinition
import Disassembler.Proofs.SingleEdits

/-!
# What a child takes over from its parent

A child starts with the entries of its parent, and each edit changes some of them.  An edit of one
opcode changes the entries of its name and its target; a redefinition also drops entries that it
names by half, the opcode that has its number and the opcode that has its name.  In a consistent
table neither of them is an opcode of which the edit carries neither the number nor the name.

**Input.**  The table of any builder that can be reached, a key, and edits that make a table from it
and do not remove everything.

**Results.**
* `Consistent.applyAll_induction`: what every edit of a list keeps, the list keeps.
* `Consistent.sameEntry_apply`, `Consistent.sameEntry_applyAll`: an opcode that an edit, or a list
  of edits, does not mention keeps its entry.
* `Settings.read_set`: changing a setting leaves the others as they are.
* `Reachable.inherits`: a child has every opcode of its parent that its edits do not mention and
  every setting that they do not change, and names its parent.
-/

namespace Disassembler

section SettingNames

/-- The names of the settings. -/
inductive SettingName where
  | wordcode
  | haveArgument
  | extendedArgShift
  | jumpUnit
  | localsPlus
  | lineTable
  | exceptionTable
deriving DecidableEq, Repr

/-- The name of the setting that is changed. -/
def Setting.name : Setting → SettingName
  | .wordcode _ => .wordcode
  | .haveArgument _ => .haveArgument
  | .extendedArgShift _ => .extendedArgShift
  | .jumpUnit _ => .jumpUnit
  | .localsPlus _ => .localsPlus
  | .lineTable _ => .lineTable
  | .exceptionTable _ => .exceptionTable

/-- The setting with a name, together with its value. -/
def Settings.read (s : Settings) : SettingName → Setting
  | .wordcode => .wordcode s.wordcode
  | .haveArgument => .haveArgument s.haveArgument
  | .extendedArgShift => .extendedArgShift s.extendedArgShift
  | .jumpUnit => .jumpUnit s.jumpUnit
  | .localsPlus => .localsPlus s.localsPlus
  | .lineTable => .lineTable s.lineTable
  | .exceptionTable => .exceptionTable s.exceptionTable

/-- A changed setting has its new value, and every other one keeps its own. -/
theorem Settings.read_set
    (s : Settings) (v : Setting) (name : SettingName) :
    (s.set v).read name = if v.name = name then v else s.read name := by
  cases v <;> cases name <;> rfl

end SettingNames

/-- An edit carries an opcode or a name. -/
def Edit.Mentions (e : Edit) (o : Nat) (n : String) : Prop :=
  e.opcode? = some o ∨ e.name? = some n

namespace Table

section Runs

/-- What every edit of a list keeps on consistent tables that are not finalized, the list keeps. -/
theorem Consistent.applyAll_induction
    {P : Table → Prop} {b : Builder} {edits : List Edit}
    (h : b.table.Consistent) (hopen : b.frozen = false)
    (hstart : P b.table)
    (hstep : ∀ c : Builder, ∀ e ∈ edits,
      c.table.Consistent → c.frozen = false → P c.table → P (c.apply e).builder.table) :
    P (b.applyAll edits).builder.table := by
  induction edits generalizing b with
  | nil =>
      exact hstart
  | cons e rest ih =>
      have hnext := hstep b e List.mem_cons_self h hopen hstart
      rw [Builder.applyAll, Outcome.andThen]
      split
      · exact hnext
      · have hopen' : (b.apply e).builder.frozen = false := by
          rw [b.frozen_apply, hopen]
        exact ih (h.changes (Builder.changes_apply b e)) hopen' hnext
          fun c e' hmem => hstep c e' (List.mem_cons_of_mem e hmem)

/-- No edits change the cover of a table. -/
theorem Builder.cover_applyAll
    (b : Builder) (edits : List Edit) :
    (b.applyAll edits).builder.table.under b.table = (b.applyAll edits).builder.table := by
  have hunder : b.applyAll edits = (b.applyAll edits).under b.table :=
    b.applyAll_under b.table edits
  exact (congrArg (fun o : Outcome => o.builder.table) hunder).symm

end Runs

section Entries

/-- An opcode and a name stand for the same in two tables. -/
structure SameEntry (t t' : Table) (o : Nat) (n : String) : Prop where
  info : t'.info o = t.info o
  opcodeOf : t'.opcodeOf n = t.opcodeOf n
  is : ∀ c, t'.is o c = t.is o c

variable {t t' t'' : Table} {b : Builder} {e : Edit} {o : Nat} {n : String} {info : OpInfo}

theorem SameEntry.refl
    (t : Table) (o : Nat) (n : String) :
    t.SameEntry t o n :=
  ⟨rfl, rfl, fun _ => rfl⟩

theorem SameEntry.trans
    (h : t.SameEntry t' o n) (h' : t'.SameEntry t'' o n) :
    t.SameEntry t'' o n where
  info := h'.info.trans h.info
  opcodeOf := h'.opcodeOf.trans h.opcodeOf
  is := fun c => (h'.is c).trans (h.is c)

/-- The target of an edit that does not mention an opcode is another one. -/
theorem Consistent.target_ne_of_not_mentions
    (h : t.Consistent)
    (hinfo : t.info o = some info)
    (hspared : ¬ e.Mentions o info.name) :
    t.target? e ≠ some o := by
  intro htarget
  cases e with
  | bind name binding =>
      obtain ⟨info', hinfo', rfl⟩ := h.exists_info htarget
      rw [hinfo] at hinfo'
      cases hinfo'
      exact hspared (Or.inr rfl)
  | _ =>
      exact hspared (Or.inl htarget)

theorem Edited.sameEntry
    (hedited : t.Edited e t')
    (htarget : t.target? e ≠ some o)
    (hname : e.name? ≠ some n) :
    t.SameEntry t' o n where
  info := by
    rw [hedited.info, if_neg htarget]
  opcodeOf := hedited.opcodeOf_of_ne hname
  is := by
    intro c
    rw [hedited.is, if_neg htarget]

theorem Consistent.sameEntry_single
    (h : b.table.Consistent) (hopen : b.frozen = false)
    (hinfo : b.table.info o = some info)
    (hsingle : e.IsSingle)
    (hspared : ¬ e.Mentions o info.name) :
    b.table.SameEntry (b.apply e).builder.table o info.name := by
  cases hfault : b.table.fault? e with
  | some fault =>
      rw [Builder.apply_of_fault hopen hfault]
      exact SameEntry.refl b.table o info.name
  | none =>
      obtain ⟨t', happly, hedited⟩ := Builder.apply_of_fits hopen hsingle hfault
      rw [happly]
      exact hedited.sameEntry (h.target_ne_of_not_mentions hinfo hspared)
        fun hname => hspared (Or.inr hname)

/-- A redefinition drops no opcode that it does not mention. -/
theorem Consistent.sameEntry_redefine
    {d : OpDef}
    (h : b.table.Consistent) (hopen : b.frozen = false)
    (hinfo : b.table.info o = some info)
    (hspared : ¬ (Edit.redefine d).Mentions o info.name) :
    b.table.SameEntry (b.apply (.redefine d)).builder.table o info.name := by
  obtain ⟨t', happly, hdrops⟩ := h.drops_redefine hopen d
  have hopcode : d.opcode ≠ o := fun ho => hspared (Or.inl (congrArg some ho))
  have hname : d.name ≠ info.name := fun hn => hspared (Or.inr (congrArg some hn))
  have hkept : ¬ (o = d.opcode ∨ b.table.opcodeOf d.name = some o) := by
    rintro (ho | ho)
    · exact hopcode ho.symm
    · obtain ⟨info', hinfo', hname'⟩ := h.exists_info ho
      rw [hinfo] at hinfo'
      cases hinfo'
      exact hname hname'.symm
  obtain ⟨hsame, hclasses⟩ := hdrops.kept o hkept
  have hsameName : t'.opcodeOf info.name = b.table.opcodeOf info.name := by
    refine hdrops.keptNames info.name fun p hp => ?_
    rw [h.opcodeOf_name hinfo] at hp
    cases hp
    exact hkept
  rw [happly]
  refine ⟨?_, ?_, ?_⟩
  · simp [Builder.done, hopcode, hsame]
  · simp [Builder.done, hname, hsameName]
  · intro c
    simp [Builder.done, hopcode, hclasses]

/-- An edit that does not remove everything leaves an opcode that it does not mention as it is. -/
theorem Consistent.sameEntry_apply
    (h : b.table.Consistent) (hopen : b.frozen = false)
    (hinfo : b.table.info o = some info)
    (hkeeps : e ≠ .removeAll)
    (hspared : ¬ e.Mentions o info.name) :
    b.table.SameEntry (b.apply e).builder.table o info.name := by
  cases e with
  | remove name opcode =>
      exact h.sameEntry_single hopen hinfo (.remove name opcode) hspared
  | define d =>
      exact h.sameEntry_single hopen hinfo (.define d) hspared
  | bind name binding =>
      exact h.sameEntry_single hopen hinfo (.bind name binding) hspared
  | redefine d =>
      exact h.sameEntry_redefine hopen hinfo hspared
  | removeAll =>
      exact absurd rfl hkeeps
  | setting s =>
      rw [Builder.apply, hopen]
      exact ⟨rfl, rfl, fun _ => rfl⟩

/-- Edits that do not remove everything leave an opcode that they do not mention as it is. -/
theorem Consistent.sameEntry_applyAll
    {edits : List Edit}
    (h : b.table.Consistent) (hopen : b.frozen = false)
    (hinfo : b.table.info o = some info)
    (hkeeps : Edit.removeAll ∉ edits)
    (hspared : ∀ e ∈ edits, ¬ e.Mentions o info.name) :
    b.table.SameEntry (b.applyAll edits).builder.table o info.name := by
  refine h.applyAll_induction hopen (P := fun t => b.table.SameEntry t o info.name)
    (SameEntry.refl b.table o info.name) ?_
  intro c e hmem hconsistent hopen' hsame
  have hkeeps' : e ≠ .removeAll := by
    rintro rfl
    exact hkeeps hmem
  exact hsame.trans
    (hconsistent.sameEntry_apply hopen' (hsame.info.trans hinfo) hkeeps' (hspared e hmem))

end Entries

section Inherited

variable {b : Builder} {e : Edit} {edits : List Edit} {name : SettingName}

theorem Consistent.settings_apply
    (h : b.table.Consistent) (hopen : b.frozen = false)
    (hspared : ∀ s, e = .setting s → s.name ≠ name) :
    (b.apply e).builder.table.settings.read name = b.table.settings.read name := by
  have hsingle : e.IsSingle → (b.apply e).builder.table.settings = b.table.settings := by
    intro hsingle
    cases hfault : b.table.fault? e with
    | some fault =>
        rw [Builder.apply_of_fault hopen hfault]
        rfl
    | none =>
        obtain ⟨t', happly, hedited⟩ := Builder.apply_of_fits hopen hsingle hfault
        rw [happly]
        exact hedited.settings
  cases e with
  | remove n opcode =>
      rw [hsingle (.remove n opcode)]
  | define d =>
      rw [hsingle (.define d)]
  | bind n binding =>
      rw [hsingle (.bind n binding)]
  | redefine d =>
      obtain ⟨t', happly, hdrops⟩ := h.drops_redefine hopen d
      rw [happly]
      exact congrArg (Settings.read · name) hdrops.settings
  | removeAll =>
      rw [Builder.apply, hopen]
      rfl
  | setting s =>
      have hother := hspared s rfl
      rw [Builder.apply, hopen]
      exact (Settings.read_set _ s name).trans (if_neg hother)

theorem Consistent.settings_applyAll
    (h : b.table.Consistent) (hopen : b.frozen = false)
    (hspared : ∀ s, .setting s ∈ edits → s.name ≠ name) :
    (b.applyAll edits).builder.table.settings.read name = b.table.settings.read name := by
  refine h.applyAll_induction hopen
    (P := fun t => t.settings.read name = b.table.settings.read name) rfl ?_
  intro c e hmem hconsistent hopen' hsame
  have hspared' : ∀ s, e = .setting s → s.name ≠ name := by
    rintro s rfl
    exact hspared s hmem
  exact (hconsistent.settings_apply hopen' hspared').trans hsame

/-- A table made from the table of a builder that can be reached, by edits that do not remove
everything, has the same information, the same name and the same classes for every opcode of its
parent of which no edit carries the number or the name; it has the same value for every setting that
no edit changes; and it records the key of its parent. -/
theorem Reachable.inherits
    {key : TableKey} {t : Table}
    (h : Reachable b)
    (hkeeps : Edit.removeAll ∉ edits)
    (hbuild : build (some b.table) key edits = .ok t) :
    (∀ o info, b.table.info o = some info → (∀ e ∈ edits, ¬ e.Mentions o info.name) →
      t.info o = some info ∧
      t.opcodeOf info.name = b.table.opcodeOf info.name ∧
      ∀ c, t.is o c = b.table.is o c) ∧
    (∀ name, (∀ s, .setting s ∈ edits → s.name ≠ name) →
      t.settings.read name = b.table.settings.read name) ∧
    t.parent = some b.table.key := by
  have hstart : (Builder.ofParent b.table key).table.Consistent := (h.child key).consistent
  obtain ⟨c, opcode, happly, hopen, rfl⟩ := exists_withDerived_of_build hbuild
  replace happly : (Builder.ofParent b.table key).applyAll edits = ⟨c, none⟩ := happly
  refine ⟨?_, ?_, ?_⟩
  · intro o info hinfo hspared
    have hsame := hstart.sameEntry_applyAll rfl hinfo hkeeps hspared
    rw [happly] at hsame
    exact ⟨hsame.info.trans hinfo, hsame.opcodeOf, hsame.is⟩
  · intro name hspared
    have hsame := hstart.settings_applyAll rfl hspared
    rw [happly] at hsame
    exact hsame
  · -- The recorded parent is a part of the cover.
    have hcover := (Builder.ofParent b.table key).cover_applyAll edits
    rw [happly] at hcover
    exact (congrArg Table.parent hcover).symm

/-- Edits that move the name of a load to the number of a rotation and change a setting. -/
def movingEdits : List Edit :=
  [.redefine ⟨"LOAD_NAME", 2, 1, 1, .unary, []⟩, .setting (.jumpUnit 2)]

/-- The child of the builder with the load and the rotation after these edits. -/
def sampleHeir : Table :=
  (build (some sampleBound.table) ⟨⟨3, 9⟩, .cpython⟩ movingEdits).toOption.getD
    (Table.empty ⟨⟨3, 9⟩, .cpython⟩)

/-- The child lacks the rotation, whose name no edit carries, and the number of the load; the
extended argument and the shift are inherited. -/
theorem inherits_sampleHeir :
    Reachable sampleBound ∧ Edit.removeAll ∉ movingEdits ∧
    build (some sampleBound.table) ⟨⟨3, 9⟩, .cpython⟩ movingEdits = .ok sampleHeir ∧
    (sampleHeir.opcodeOf "ROT_TWO" = none ∧ sampleHeir.info 101 = none) ∧
    sampleHeir.info 144 = sampleBound.table.info 144 ∧
    sampleHeir.settings.read .extendedArgShift = .extendedArgShift 16 ∧
    sampleHeir.parent = some ⟨⟨3, 8⟩, .cpython⟩ := by
  have hreach : Reachable sampleBound :=
    (Reachable.new _).applyAll _
  have hkeeps : Edit.removeAll ∉ movingEdits := by
    decide
  have hbuild :
      build (some sampleBound.table) ⟨⟨3, 9⟩, .cpython⟩ movingEdits = .ok sampleHeir := by
    rfl
  have hextended : ∃ info, sampleBound.table.info 144 = some info ∧
      ∀ e ∈ movingEdits, ¬ e.Mentions 144 info.name := by
    refine ⟨⟨"EXTENDED_ARG", 0, 0, none, none, none, .plain, 0, false⟩, ?_, ?_⟩
    · decide
    · simp [movingEdits, Edit.Mentions, Edit.opcode?, Edit.name?]
  obtain ⟨info, hinfo, hspared⟩ := hextended
  obtain ⟨hentries, hsettings, hparent⟩ := hreach.inherits hkeeps hbuild
  refine ⟨hreach, hkeeps, hbuild, ?_, ?_, ?_, hparent⟩
  · decide
  · rw [(hentries 144 info hinfo hspared).1, hinfo]
  · rw [hsettings .extendedArgShift (by simp [movingEdits, Setting.name])]
    rfl

end Inherited
end Table
end Disassembler
