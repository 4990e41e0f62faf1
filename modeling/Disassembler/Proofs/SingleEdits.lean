import Disassembler.Proofs.Derived
import Disassembler.Proofs.Frozen

/-!
# Edits of one opcode

Removing, defining and binding work on the opcode with one name.  Such an edit reads and writes the
entry of its name and the entry of one opcode, its target: the opcode that it carries, or for a
binding the one that the name leads to.

**Input.**  Any builder that can be reached and is not finalized, and two edits of one opcode with
different names and without a common opcode.

**Results.**
* `fault?` is why an edit of one opcode does not fit a table, and `Edited` what it makes of a table
  that it fits, seen through all views; `Builder.apply_of_fault` and `Builder.apply_of_fits` say
  that these two are all that applying the edit does.
* `Consistent.target_ne`: independent edits that fit a consistent table have different targets.  A
  binding has no opcode of its own, so this rests on names and opcodes leading to each other.
* `Consistent.eq_of_views`: a consistent table is determined by its views.
* `Reachable.independent_commute`: independent edits give the same results in either order.
-/

namespace Disassembler

namespace Edit

/-- The name that an edit carries. -/
def name? : Edit → Option String
  | .remove name _ => some name
  | .define d => some d.name
  | .redefine d => some d.name
  | .bind name _ => some name
  | .removeAll => none
  | .setting _ => none

/-- The opcode that an edit carries. -/
def opcode? : Edit → Option Nat
  | .remove _ opcode => some opcode
  | .define d => some d.opcode
  | .redefine d => some d.opcode
  | .bind _ _ => none
  | .removeAll => none
  | .setting _ => none

/-- The edits of one opcode. -/
inductive IsSingle : Edit → Prop
  | remove (name : String) (opcode : Nat) :
      IsSingle (.remove name opcode)
  | define (d : OpDef) :
      IsSingle (.define d)
  | bind (name : String) (binding : Binding) :
      IsSingle (.bind name binding)

/-- Two edits of one opcode carry different names and, if both carry an opcode, different ones. -/
structure Independent (e e' : Edit) : Prop where
  single : e.IsSingle
  single' : e'.IsSingle
  names : e.name? ≠ e'.name?
  opcodes : ∀ o, e.opcode? = some o → e'.opcode? ≠ some o

theorem Independent.symm
    {e e' : Edit}
    (h : e.Independent e') :
    e'.Independent e where
  single := h.single'
  single' := h.single
  names := h.names.symm
  opcodes := fun o ho' ho => h.opcodes o ho ho'

/-- What an edit makes of the information of its target. -/
def infoAfter : Edit → Option OpInfo → Option OpInfo
  | .remove _ _, _ => none
  | .define d, old => some (Table.defineInfo old d)
  | .bind _ binding, old => old.map (·.bind binding)
  | _, old => old

/-- What an edit makes of the opcode of its name. -/
def opcodeAfter : Edit → Option Nat → Option Nat
  | .remove _ _, _ => none
  | .define d, _ => some d.opcode
  | _, old => old

/-- What an edit makes of the membership of its target in a class. -/
def isAfter : Edit → OpClass → Bool → Bool
  | .remove _ _, _, _ => false
  | .define d, c, old => d.classes.contains c || old
  | _, _, old => old

end Edit

namespace Table

section Outcomes

/-- Why an edit of one opcode does not fit a table. -/
def fault? (t : Table) : Edit → Option TableFault
  | .remove name opcode =>
    match t.opcodeOf name with
    | none => some (.removeUndefined name opcode)
    | some actual => if actual = opcode then none else some (.removeOther name opcode actual)
  | .define d => t.conflict? d
  | .bind name binding =>
    match t.opcodeOf name with
    | none => some (.bindUndefined binding name)
    | some opcode => if t.info opcode = none then some (.bindEmpty name opcode) else none
  | _ => none

/-- The opcode whose entry an edit of one opcode changes. -/
def target? (t : Table) : Edit → Option Nat
  | .bind name _ => t.opcodeOf name
  | e => e.opcode?

/-- A table is another one after an edit of one opcode that fits it. -/
structure Edited (t : Table) (e : Edit) (t' : Table) : Prop where
  info : ∀ o, t'.info o = if t.target? e = some o then e.infoAfter (t.info o) else t.info o
  opcodeOf : ∀ n,
    t'.opcodeOf n = if e.name? = some n then e.opcodeAfter (t.opcodeOf n) else t.opcodeOf n
  is : ∀ o c, t'.is o c = if t.target? e = some o then e.isAfter c (t.is o c) else t.is o c
  settings : t'.settings = t.settings
  cover : t'.under t = t'

variable {t t' : Table} {e e' : Edit} {b : Builder}

theorem edited_erase
    (name : String) (opcode : Nat) :
    t.Edited (.remove name opcode) (t.erase name opcode) where
  info := by
    intro o
    simp [target?, Edit.opcode?, Edit.infoAfter]
  opcodeOf := by
    intro n
    simp [Edit.name?, Edit.opcodeAfter]
  is := by
    intro o c
    by_cases ho : opcode = o <;> simp [target?, Edit.opcode?, Edit.isAfter, ho]
  settings := rfl
  cover := rfl

theorem edited_insert
    (d : OpDef) :
    t.Edited (.define d) (t.insert d) where
  info := by
    intro o
    simp [target?, Edit.opcode?, Edit.infoAfter]
  opcodeOf := by
    intro n
    simp [Edit.name?, Edit.opcodeAfter]
  is := by
    intro o c
    by_cases ho : d.opcode = o <;> simp [target?, Edit.opcode?, Edit.isAfter, ho]
  settings := rfl
  cover := rfl

theorem edited_bind
    {name : String} {opcode : Nat} {info : OpInfo} (binding : Binding)
    (hname : t.opcodeOf name = some opcode)
    (hinfo : t.info opcode = some info) :
    t.Edited (.bind name binding)
      { t with ops := t.ops.insert opcode (info.bind binding) } where
  info := by
    intro o
    by_cases ho : opcode = o
    · subst ho
      rw [if_pos (show t.target? (.bind name binding) = some opcode from hname), hinfo]
      simp [Edit.infoAfter, Table.info]
    · simp [target?, hname, ho, Table.info, Std.ExtTreeMap.getElem?_insert]
  opcodeOf := by
    intro n
    exact (ite_self _).symm
  is := by
    intro o c
    exact (ite_self _).symm
  settings := rfl
  cover := rfl

theorem opcodeOf_of_fits_remove
    {name : String} {opcode : Nat}
    (hfits : t.fault? (.remove name opcode) = none) :
    t.opcodeOf name = some opcode := by
  cases hname : t.opcodeOf name with
  | none =>
      simp [fault?, hname] at hfits
  | some actual =>
      simpa [fault?, hname] using hfits

theorem exists_of_fits_bind
    {name : String} {binding : Binding}
    (hfits : t.fault? (.bind name binding) = none) :
    ∃ opcode info, t.opcodeOf name = some opcode ∧ t.info opcode = some info := by
  cases hname : t.opcodeOf name with
  | none =>
      simp [fault?, hname] at hfits
  | some opcode =>
      have hdefined : t.info opcode ≠ none := by
        simpa [fault?, hname] using hfits
      obtain ⟨info, hinfo⟩ := Option.ne_none_iff_exists'.mp hdefined
      exact ⟨opcode, info, rfl, hinfo⟩

/-- An edit of one opcode that does not fit fails and changes nothing. -/
theorem Builder.apply_of_fault
    {fault : TableFault}
    (hopen : b.frozen = false)
    (hfault : b.table.fault? e = some fault) :
    b.apply e = b.fail fault := by
  simp only [Builder.apply, hopen, Bool.false_eq_true, if_false]
  cases e with
  | remove name opcode =>
      cases hname : b.table.opcodeOf name with
      | none =>
          simp only [fault?, hname, Option.some.injEq] at hfault
          simp only [Builder.remove, hname, hfault]
      | some actual =>
          by_cases hactual : actual = opcode
          · simp [fault?, hname, hactual] at hfault
          · simp only [fault?, hname, if_neg hactual, Option.some.injEq] at hfault
            simp only [Builder.remove, hname, if_neg hactual, hfault]
  | define d =>
      replace hfault : b.table.conflict? d = some fault := hfault
      simp only [Builder.define, hfault]
  | bind name binding =>
      cases hname : b.table.opcodeOf name with
      | none =>
          simp only [fault?, hname, Option.some.injEq] at hfault
          simp only [Builder.bind, hname, hfault]
      | some opcode =>
          cases hinfo : b.table.info opcode with
          | none =>
              simp only [fault?, hname, hinfo, if_true, Option.some.injEq] at hfault
              simp only [Builder.bind, hname, hinfo, hfault]
          | some info =>
              simp [fault?, hname, hinfo] at hfault
  | redefine d =>
      cases hfault
  | removeAll =>
      cases hfault
  | setting s =>
      cases hfault

/-- An edit of one opcode that fits succeeds. -/
theorem Builder.apply_of_fits
    (hopen : b.frozen = false)
    (hsingle : e.IsSingle)
    (hfits : b.table.fault? e = none) :
    ∃ t', b.apply e = b.done t' ∧ b.table.Edited e t' := by
  simp only [Builder.apply, hopen, Bool.false_eq_true, if_false]
  cases hsingle with
  | remove name opcode =>
      have hname := opcodeOf_of_fits_remove hfits
      exact ⟨_, Builder.remove_of_named hname, edited_erase name opcode⟩
  | define d =>
      replace hfits : b.table.conflict? d = none := hfits
      exact ⟨_, by simp only [Builder.define, hfits], edited_insert d⟩
  | bind name binding =>
      obtain ⟨opcode, info, hname, hinfo⟩ := exists_of_fits_bind hfits
      exact ⟨_, by simp only [Builder.bind, hname, hinfo], edited_bind binding hname hinfo⟩

end Outcomes

section Views

variable {t t' : Table}

/-- A consistent table is determined by its views and its cover. -/
theorem Consistent.eq_of_views
    (h : t.Consistent) (h' : t'.Consistent)
    (hcover : t'.under t = t')
    (hsettings : t'.settings = t.settings)
    (hinfo : ∀ o, t'.info o = t.info o)
    (hopcode : ∀ n, t'.opcodeOf n = t.opcodeOf n)
    (his : ∀ o c, t'.is o c = t.is o c) :
    t' = t := by
  have hops : t'.ops = t.ops := Std.ExtTreeMap.ext_getElem? hinfo
  have hopcodes : t'.opcodes = t.opcodes := Std.ExtTreeMap.ext_getElem? hopcode
  have hclasses : t'.classes = t.classes := by
    refine Std.ExtTreeMap.ext_getElem? fun c => ?_
    obtain ⟨set, hset⟩ := h.present c
    obtain ⟨set', hset'⟩ := h'.present c
    have hsame : set' = set := by
      refine Std.ExtTreeSet.ext_contains fun o => ?_
      have hmember := his o c
      simpa only [Table.is, members, ClassSets.membersOf, hset, hset', Option.getD_some]
        using hmember
    rw [hset, hset', hsame]
  calc t' = t'.under t := hcover.symm
    _ = t := by rw [under, hsettings, hops, hopcodes, hclasses]

end Views

section Independence

variable {t t' : Table} {e e' : Edit}

/-- An edit that fits a consistent table finds its target under its name, or defines an opcode that
is free. -/
theorem Consistent.exists_target
    (h : t.Consistent)
    (hsingle : e.IsSingle)
    (hfits : t.fault? e = none) :
    ∃ o n, t.target? e = some o ∧ e.name? = some n ∧
      (t.opcodeOf n = some o ∨ (t.info o = none ∧ e.opcode? = some o)) := by
  cases hsingle with
  | remove name opcode =>
      exact ⟨opcode, name, rfl, rfl, Or.inl (opcodeOf_of_fits_remove hfits)⟩
  | define d =>
      refine ⟨d.opcode, d.name, rfl, rfl, ?_⟩
      cases hinfo : t.info d.opcode with
      | none =>
          exact Or.inr ⟨rfl, rfl⟩
      | some info =>
          have hname := (fits_of_conflict hfits).1 info hinfo
          rw [← hname]
          exact Or.inl (h.opcodeOf_name hinfo)
  | bind name binding =>
      obtain ⟨opcode, _, hname, _⟩ := exists_of_fits_bind hfits
      exact ⟨opcode, name, hname, rfl, Or.inl hname⟩

/-- Independent edits that fit a consistent table have different targets. -/
theorem Consistent.target_ne
    (h : t.Consistent)
    (hindependent : e.Independent e')
    (hfits : t.fault? e = none)
    (hfits' : t.fault? e' = none) :
    t.target? e ≠ t.target? e' := by
  obtain ⟨o, n, htarget, hname, howned⟩ := h.exists_target hindependent.single hfits
  obtain ⟨o', n', htarget', hname', howned'⟩ := h.exists_target hindependent.single' hfits'
  rw [htarget, htarget']
  intro heq
  cases heq
  rcases howned with hn | ⟨hfree, hopcode⟩
  · obtain ⟨info, hinfo, rfl⟩ := h.exists_info hn
    rcases howned' with hn' | ⟨hfree', _⟩
    · -- An opcode has one name only.
      obtain ⟨info', hinfo', rfl⟩ := h.exists_info hn'
      rw [hinfo] at hinfo'
      cases hinfo'
      exact hindependent.names (hname.trans hname'.symm)
    · rw [hinfo] at hfree'
      cases hfree'
  · rcases howned' with hn' | ⟨_, hopcode'⟩
    · obtain ⟨info', hinfo', _⟩ := h.exists_info hn'
      rw [hfree] at hinfo'
      cases hinfo'
    · exact hindependent.opcodes o hopcode hopcode'

theorem Edited.opcodeOf_of_ne
    {n : String}
    (h : t.Edited e t')
    (hne : e.name? ≠ some n) :
    t'.opcodeOf n = t.opcodeOf n := by
  rw [h.opcodeOf, if_neg hne]

/-- An edit leaves every opcode that it does not carry under its name. -/
theorem Edited.name_of_ne
    {o : Nat}
    (h : t.Edited e t')
    (hne : e.opcode? ≠ some o) :
    (t'.info o).map OpInfo.name = (t.info o).map OpInfo.name := by
  rw [h.info]
  split
  · rename_i htarget
    cases e with
    | bind name binding =>
        cases t.info o with
        | none =>
            rfl
        | some info =>
            cases binding <;> rfl
    | _ =>
        exact absurd htarget hne
  · rfl

theorem Edited.target_eq
    (h : t.Edited e' t')
    (hindependent : e.Independent e') :
    t'.target? e = t.target? e := by
  cases hindependent.single with
  | bind name binding =>
      exact h.opcodeOf_of_ne hindependent.names.symm
  | remove name opcode =>
      rfl
  | define d =>
      rfl

/-- Whether and why a definition does not fit depends on the name that its opcode has and on the
opcode that its name has. -/
theorem conflict?_congr
    {d : OpDef}
    (hopcode : (t'.info d.opcode).map OpInfo.name = (t.info d.opcode).map OpInfo.name)
    (hname : t'.opcodeOf d.name = t.opcodeOf d.name) :
    t'.conflict? d = t.conflict? d := by
  unfold conflict?
  rw [hname]
  cases hinfo : t.info d.opcode with
  | none =>
      have hnone : t'.info d.opcode = none := by
        simpa [hinfo] using hopcode
      rw [hnone]
  | some info =>
      have hsome : ∃ info', t'.info d.opcode = some info' ∧ info'.name = info.name := by
        simpa [hinfo] using hopcode
      obtain ⟨info', hinfo', hsame⟩ := hsome
      by_cases hother : info.name = d.name
      · simp [hinfo', Option.filter_some, hsame, hother]
      · simp [hinfo', Option.filter_some, hsame, hother]

theorem Consistent.fault?_bind
    (h : t.Consistent) (name : String) (binding : Binding) :
    t.fault? (.bind name binding) =
      if t.opcodeOf name = none then some (.bindUndefined binding name) else none := by
  simp only [fault?]
  cases hname : t.opcodeOf name with
  | none =>
      rfl
  | some opcode =>
      obtain ⟨info, hinfo, _⟩ := h.exists_info hname
      simp [hinfo]

/-- An edit fits, or fails to fit for the same reason, whether an independent one went before it or
not. -/
theorem Consistent.fault?_edited
    (h : t.Consistent) (h' : t'.Consistent)
    (hindependent : e.Independent e')
    (hedited : t.Edited e' t') :
    t'.fault? e = t.fault? e := by
  have hname : ∀ n, e.name? = some n → t'.opcodeOf n = t.opcodeOf n := by
    intro n hn
    exact hedited.opcodeOf_of_ne fun hn' => hindependent.names (hn.trans hn'.symm)
  cases hindependent.single with
  | remove name opcode =>
      simp only [fault?, hname name rfl]
  | define d =>
      have hopcode := hedited.name_of_ne (hindependent.opcodes d.opcode rfl)
      exact conflict?_congr hopcode (hname d.name rfl)
  | bind name binding =>
      rw [h.fault?_bind, h'.fault?_bind, hname name rfl]

/-- Changes under two conditions that exclude each other can be made in either order. -/
theorem change_comm
    {α : Type} {p q : Prop} [Decidable p] [Decidable q]
    (hnot : ¬ (p ∧ q)) (f g : α → α) (a : α) :
    (if q then g (if p then f a else a) else if p then f a else a) =
      if p then f (if q then g a else a) else if q then g a else a := by
  by_cases hp : p
  · have hq : ¬ q := fun hq => hnot ⟨hp, hq⟩
    simp only [if_pos hp, if_neg hq]
  · simp only [if_neg hp]

/-- Independent edits that fit a consistent table make the same table in either order. -/
theorem Consistent.edited_comm
    {t₁ t₂ t₁₂ t₂₁ : Table}
    (h : t.Consistent)
    (hindependent : e.Independent e')
    (hfits : t.fault? e = none) (hfits' : t.fault? e' = none)
    (hfirst : t.Edited e t₁) (hsecond : t₁.Edited e' t₁₂)
    (hfirst' : t.Edited e' t₂) (hsecond' : t₂.Edited e t₂₁)
    (hconsistent : t₁₂.Consistent) (hconsistent' : t₂₁.Consistent) :
    t₁₂ = t₂₁ := by
  have htargets := h.target_ne hindependent hfits hfits'
  have htarget : t₂.target? e = t.target? e := hfirst'.target_eq hindependent
  have htarget' : t₁.target? e' = t.target? e' := hfirst.target_eq hindependent.symm
  have hopcodes : ∀ o, ¬ (t.target? e = some o ∧ t.target? e' = some o) := by
    rintro o ⟨ho, ho'⟩
    exact htargets (ho.trans ho'.symm)
  have hnames : ∀ n, ¬ (e.name? = some n ∧ e'.name? = some n) := by
    rintro n ⟨hn, hn'⟩
    exact hindependent.names (hn.trans hn'.symm)
  have hcover : t₁₂.under t = t₁₂ := by
    calc t₁₂.under t = t₁₂.under (t₁.under t) := rfl
      _ = t₁₂ := by rw [hfirst.cover, hsecond.cover]
  have hcover' : t₂₁.under t = t₂₁ := by
    calc t₂₁.under t = t₂₁.under (t₂.under t) := rfl
      _ = t₂₁ := by rw [hfirst'.cover, hsecond'.cover]
  refine hconsistent'.eq_of_views hconsistent ?_ ?_ ?_ ?_ ?_
  · calc t₁₂.under t₂₁ = t₁₂.under (t₂₁.under t) := by rw [hcover']
      _ = t₁₂.under t := rfl
      _ = t₁₂ := hcover
  · rw [hsecond.settings, hfirst.settings, hsecond'.settings, hfirst'.settings]
  · intro o
    rw [hsecond.info, hfirst.info, hsecond'.info, hfirst'.info, htarget, htarget']
    exact change_comm (hopcodes o) e.infoAfter e'.infoAfter (t.info o)
  · intro n
    rw [hsecond.opcodeOf, hfirst.opcodeOf, hsecond'.opcodeOf, hfirst'.opcodeOf]
    exact change_comm (hnames n) e.opcodeAfter e'.opcodeAfter (t.opcodeOf n)
  · intro o c
    rw [hsecond.is, hfirst.is, hsecond'.is, hfirst'.is, htarget, htarget']
    exact change_comm (hopcodes o) (e.isAfter c) (e'.isAfter c) (t.is o c)

end Independence

section Orders

variable {b : Builder} {e e' : Edit}

/-- No edit changes the cover of a table. -/
theorem Builder.cover_apply
    (b : Builder) (e : Edit) :
    (b.apply e).builder.table.under b.table = (b.apply e).builder.table := by
  have hunder : b.apply e = (b.apply e).under b.table := b.apply_under b.table e
  exact (congrArg (fun o : Outcome => o.builder.table) hunder).symm

theorem Builder.error_apply
    (hopen : b.frozen = false)
    (hsingle : e.IsSingle) :
    (b.apply e).error = (b.table.fault? e).map (Error.inconsistentTable b.table.key) := by
  cases hfault : b.table.fault? e with
  | none =>
      obtain ⟨t', happly, _⟩ := Builder.apply_of_fits hopen hsingle hfault
      rw [happly]
      rfl
  | some fault =>
      rw [Builder.apply_of_fault hopen hfault]
      rfl

theorem Consistent.fault?_apply
    (h : b.table.Consistent) (hopen : b.frozen = false)
    (hindependent : e.Independent e') :
    (b.apply e').builder.table.fault? e = b.table.fault? e := by
  have hconsistent := h.changes (Builder.changes_apply b e')
  cases hfault' : b.table.fault? e' with
  | none =>
      obtain ⟨t', happly, hedited⟩ := Builder.apply_of_fits hopen hindependent.single' hfault'
      rw [happly] at hconsistent ⊢
      exact h.fault?_edited hconsistent hindependent hedited
  | some fault =>
      rw [Builder.apply_of_fault hopen hfault']
      rfl

/-- An edit has the same result whether an independent one went before it or not. -/
theorem Consistent.error_apply_apply
    (h : b.table.Consistent) (hopen : b.frozen = false)
    (hindependent : e.Independent e') :
    ((b.apply e').builder.apply e).error = (b.apply e).error := by
  have hopen' : (b.apply e').builder.frozen = false := by
    rw [b.frozen_apply, hopen]
  have hkey : (b.apply e').builder.table.key = b.table.key := by
    rw [← b.cover_apply e']
    rfl
  rw [Builder.error_apply hopen' hindependent.single, Builder.error_apply hopen hindependent.single,
    h.fault?_apply hopen hindependent, hkey]

/-- An edit that does not fit changes nothing, whether an independent one went before it or not. -/
theorem Consistent.builder_apply_apply_of_fault
    {fault : TableFault}
    (h : b.table.Consistent) (hopen : b.frozen = false)
    (hindependent : e.Independent e')
    (hfault : b.table.fault? e = some fault) :
    ((b.apply e).builder.apply e').builder = ((b.apply e').builder.apply e).builder := by
  have hopen' : (b.apply e').builder.frozen = false := by
    rw [b.frozen_apply, hopen]
  have hfault' := (h.fault?_apply hopen hindependent).trans hfault
  rw [Builder.apply_of_fault hopen hfault, Builder.apply_of_fault hopen' hfault']
  rfl

/-- Independent edits that both fit leave the same builder in either order. -/
theorem Reachable.builder_apply_apply_of_fits
    (h : Reachable b) (hopen : b.frozen = false)
    (hindependent : e.Independent e')
    (hfault : b.table.fault? e = none)
    (hfault' : b.table.fault? e' = none) :
    ((b.apply e).builder.apply e').builder = ((b.apply e').builder.apply e).builder := by
  have hconsistent := h.consistent
  obtain ⟨t₁, happly, hfirst⟩ := Builder.apply_of_fits hopen hindependent.single hfault
  obtain ⟨t₂, happly', hfirst'⟩ := Builder.apply_of_fits hopen hindependent.single' hfault'
  have hfits' := (hconsistent.fault?_apply hopen hindependent.symm).trans hfault'
  have hfits := (hconsistent.fault?_apply hopen hindependent).trans hfault
  have hreach := (h.apply e).apply e'
  have hreach' := (h.apply e').apply e
  rw [happly] at hfits' hreach ⊢
  rw [happly'] at hfits hreach' ⊢
  obtain ⟨t₁₂, hlast, hsecond⟩ :=
    Builder.apply_of_fits (b := (b.done t₁).builder) hopen hindependent.single' hfits'
  obtain ⟨t₂₁, hlast', hsecond'⟩ :=
    Builder.apply_of_fits (b := (b.done t₂).builder) hopen hindependent.single hfits
  rw [hlast] at hreach ⊢
  rw [hlast'] at hreach' ⊢
  have hsame : t₁₂ = t₂₁ := hconsistent.edited_comm hindependent hfault hfault'
    hfirst hsecond hfirst' hsecond' hreach.consistent hreach'.consistent
  rw [hsame]
  rfl

/-- Two edits of one opcode that carry different names and no common opcode, applied to a builder
that can be reached and is not finalized, succeed or fail alike in either order, with the same
errors, and leave the same builder. -/
theorem Reachable.independent_commute
    (h : Reachable b) (hopen : b.frozen = false)
    (hindependent : e.Independent e') :
    ((b.apply e').builder.apply e).error = (b.apply e).error ∧
    ((b.apply e).builder.apply e').error = (b.apply e').error ∧
    ((b.apply e).builder.apply e').builder = ((b.apply e').builder.apply e).builder := by
  have hconsistent := h.consistent
  refine ⟨hconsistent.error_apply_apply hopen hindependent,
    hconsistent.error_apply_apply hopen hindependent.symm, ?_⟩
  cases hfault : b.table.fault? e with
  | some fault =>
      exact hconsistent.builder_apply_apply_of_fault hopen hindependent hfault
  | none =>
      cases hfault' : b.table.fault? e' with
      | some fault =>
          exact (hconsistent.builder_apply_apply_of_fault hopen hindependent.symm hfault').symm
      | none =>
          exact h.builder_apply_apply_of_fits hopen hindependent hfault hfault'

/-- A builder with an opcode that does nothing. -/
def sampleIdle : Builder :=
  ((Builder.new ⟨⟨3, 11⟩, .cpython⟩).apply (.define ⟨"NOP", 9, 0, 0, .plain, []⟩)).builder

/-- A binding aims at the number that a definition with another name claims: the definition is
refused in either order, and the binding succeeds. -/
theorem independent_commute_sampleIdle :
    Reachable sampleIdle ∧ sampleIdle.frozen = false ∧
    ((sampleIdle.apply (.bind "NOP" (.cacheEntries 1))).builder.apply
        (.define ⟨"RESUME", 9, 0, 0, .plain, []⟩)).error =
      some (.inconsistentTable ⟨⟨3, 11⟩, .cpython⟩ (.defineOther "RESUME" 9 "NOP")) ∧
    ((sampleIdle.apply (.define ⟨"RESUME", 9, 0, 0, .plain, []⟩)).builder.apply
        (.bind "NOP" (.cacheEntries 1))).error = none ∧
    ((sampleIdle.apply (.bind "NOP" (.cacheEntries 1))).builder.apply
        (.define ⟨"RESUME", 9, 0, 0, .plain, []⟩)).builder =
      ((sampleIdle.apply (.define ⟨"RESUME", 9, 0, 0, .plain, []⟩)).builder.apply
        (.bind "NOP" (.cacheEntries 1))).builder := by
  have hreach : Reachable sampleIdle :=
    .apply _ (.new _)
  have hindependent : (Edit.bind "NOP" (.cacheEntries 1)).Independent
      (.define ⟨"RESUME", 9, 0, 0, .plain, []⟩) :=
    ⟨.bind _ _, .define _, by simp [Edit.name?], by simp [Edit.opcode?]⟩
  obtain ⟨hbind, hdefine, hsame⟩ := hreach.independent_commute rfl hindependent
  refine ⟨hreach, rfl, ?_, ?_, hsame⟩
  · rw [hdefine]
    decide
  · rw [hbind]
    decide

end Orders
end Table
end Disassembler
