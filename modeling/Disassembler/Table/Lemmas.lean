import Disassembler.Table.Builder

/-!
# What the changes of a table do to its views

A table is seen through `info`, `opcodeOf` and `is`.

**Results.** One equation for each change and each view: what an opcode, a name and a class
membership are after an opcode is erased, after all are cleared, and after one is defined. A failed
operation of a builder leaves the builder as it was where the operation is a single change.
-/

namespace Disassembler
namespace Table

theorem compare_beq
    (a b : Nat) :
    (compare a b == .eq) = (a == b) := by
  rw [Bool.eq_iff_iff]
  simp

section Erase

/-- An erased opcode has no information; every other one keeps its own. -/
@[simp] theorem info_erase
    (t : Table) (name : String) (opcode o : Nat) :
    (t.erase name opcode).info o = if opcode = o then none else t.info o := by
  simp [erase, info, Std.ExtTreeMap.getElem?_erase]

/-- An erased name has no opcode; every other one keeps its own. -/
@[simp] theorem opcodeOf_erase
    (t : Table) (name n : String) (opcode : Nat) :
    (t.erase name opcode).opcodeOf n = if name = n then none else t.opcodeOf n := by
  simp [erase, opcodeOf, Std.ExtTreeMap.getElem?_erase, Std.LawfulEqCmp.compare_eq_iff_eq]

/-- An erased opcode is in no class; every other one stays where it is. -/
@[simp] theorem is_erase
    (t : Table) (name : String) (opcode o : Nat) (c : OpClass) :
    (t.erase name opcode).is o c = (opcode != o && t.is o c) := by
  simp only [erase, is, members, ClassSets.membersOf, Std.ExtTreeMap.getElem?_map]
  cases t.classes[c]? with
  | none =>
      simp [Std.ExtTreeSet.contains_empty]
  | some set =>
      simp [Std.ExtTreeSet.contains_erase, bne, compare_beq]

end Erase

section Clear

@[simp] theorem info_clear
    (t : Table) (o : Nat) :
    t.clear.info o = none := by
  simp [clear, info]

@[simp] theorem opcodeOf_clear
    (t : Table) (n : String) :
    t.clear.opcodeOf n = none := by
  simp [clear, opcodeOf]

@[simp] theorem is_clear
    (t : Table) (o : Nat) (c : OpClass) :
    t.clear.is o c = false := by
  simp only [clear, is, members, ClassSets.membersOf, Std.ExtTreeMap.getElem?_map]
  cases t.classes[c]? <;> simp [Std.ExtTreeSet.contains_empty]

end Clear

section Insert

/-- A defined opcode has the information of its definition; every other one keeps its own. -/
@[simp] theorem info_insert
    (t : Table) (d : OpDef) (o : Nat) :
    (t.insert d).info o = if d.opcode = o then some (defineInfo (t.info o) d) else t.info o := by
  simp only [insert, info, Std.ExtTreeMap.getElem?_insert, Nat.compare_eq_eq]
  by_cases h : d.opcode = o <;> simp [h]

/-- A defined name has the opcode of its definition; every other one keeps its own. -/
@[simp] theorem opcodeOf_insert
    (t : Table) (d : OpDef) (n : String) :
    (t.insert d).opcodeOf n = if d.name = n then some d.opcode else t.opcodeOf n := by
  simp [insert, opcodeOf, Std.ExtTreeMap.getElem?_insert, Std.LawfulEqCmp.compare_eq_iff_eq]

theorem membersOf_insert
    (sets : ClassSets) (c d : OpClass) (set : OpcodeSet) :
    ClassSets.membersOf (Std.ExtTreeMap.insert sets c set) d =
      if c = d then set else sets.membersOf d := by
  simp only [ClassSets.membersOf, Std.ExtTreeMap.getElem?_insert,
    Std.LawfulEqCmp.compare_eq_iff_eq]
  split <;> rfl

/-- Adding an opcode to classes puts it into these and changes nothing else. -/
theorem contains_addToClasses
    (sets : ClassSets) (opcode : Nat) (cs : List OpClass) (o : Nat) (c : OpClass) :
    ((addToClasses sets opcode cs).membersOf c).contains o =
      ((opcode == o && cs.contains c) || (sets.membersOf c).contains o) := by
  induction cs generalizing sets with
  | nil =>
      simp [addToClasses]
  | cons d rest ih =>
      rw [addToClasses, ih, membersOf_insert]
      by_cases hd : d = c
      · subst hd
        cases h : opcode == o <;> simp [Std.ExtTreeSet.contains_insert, compare_beq, h]
      · simp [hd, Ne.symm hd]

/-- A defined opcode joins the classes of its definition; nothing else joins or leaves a class. -/
@[simp] theorem is_insert
    (t : Table) (d : OpDef) (o : Nat) (c : OpClass) :
    (t.insert d).is o c = ((d.opcode == o && d.classes.contains c) || t.is o c) := by
  simp only [insert, is, members]
  exact contains_addToClasses t.classes d.opcode d.classes o c

end Insert

section Failure

/-- A removal that fails leaves the builder as it was. -/
theorem builder_remove_of_error
    (b : Builder) (name : String) (opcode : Nat)
    (h : (b.remove name opcode).error ≠ none) :
    (b.remove name opcode).builder = b := by
  revert h
  unfold Builder.remove
  split
  · exact fun _ => rfl
  · split
    · exact fun h => absurd rfl h
    · exact fun _ => rfl

/-- A definition that fails leaves the builder as it was. -/
theorem builder_define_of_error
    (b : Builder) (d : OpDef)
    (h : (b.define d).error ≠ none) :
    (b.define d).builder = b := by
  revert h
  unfold Builder.define
  split
  · exact fun _ => rfl
  · exact fun h => absurd rfl h

/-- A binding that fails leaves the builder as it was. -/
theorem builder_bind_of_error
    (b : Builder) (name : String) (binding : Binding)
    (h : (b.bind name binding).error ≠ none) :
    (b.bind name binding).builder = b := by
  revert h
  unfold Builder.bind
  split
  · exact fun _ => rfl
  · split
    · exact fun _ => rfl
    · exact fun h => absurd rfl h

end Failure
end Table
end Disassembler
