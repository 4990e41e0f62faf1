import Disassembler.Proofs.Reachable

/-!
# Failed operations and finalized tables

A redefinition drops up to two opcodes before it defines its own.  It cannot stop halfway because in
a consistent table the opcode that has its number is dropped under its own name.

**Input.**  Any builder that can be reached, and any operations on it.

**Results.**
* `Consistent.redefine`: on a consistent table a redefinition succeeds.
* `Builder.run_of_frozen`: no operation changes a builder with a finalized table.
* `Reachable.atomic`: an operation that fails changes nothing, three kinds of edit never fail, and
  a finalized table stays as it is.
-/

namespace Disassembler
namespace Table

section Redefinition

theorem Builder.remove_of_named
    {b : Builder} {name : String} {opcode : Nat}
    (h : b.table.opcodeOf name = some opcode) :
    b.remove name opcode = b.done (b.table.erase name opcode) := by
  simp [Builder.remove, h]

theorem conflict_of_free
    {t : Table} {d : OpDef}
    (hopcode : t.info d.opcode = none)
    (hname : t.opcodeOf d.name = none) :
    t.conflict? d = none := by
  simp [conflict?, hopcode, hname]

variable {b : Builder}

/-- In a consistent table an opcode can be dropped by its number. -/
theorem Consistent.removeOpcode
    (h : b.table.Consistent) (opcode : Nat) :
    ∃ c : Builder, b.removeOpcode opcode = ⟨c, none⟩ ∧ c.table.info opcode = none := by
  cases hinfo : b.table.info opcode with
  | none =>
      exact ⟨b, by simp [Builder.removeOpcode, hinfo], hinfo⟩
  | some info =>
      have hname := h.opcodeOf_name hinfo
      refine ⟨{ b with table := b.table.erase info.name opcode }, ?_, ?_⟩
      · simp only [Builder.removeOpcode, hinfo, Builder.remove_of_named hname, Builder.done]
      · simp

/-- In any table an opcode can be dropped by its name, and no number is taken by that. -/
theorem Builder.removeName_cases
    (b : Builder) (name : String) :
    ∃ c : Builder, b.removeName name = ⟨c, none⟩ ∧ c.table.opcodeOf name = none ∧
      ∀ o, b.table.info o = none → c.table.info o = none := by
  cases hname : b.table.opcodeOf name with
  | none =>
      exact ⟨b, by simp [Builder.removeName, hname], hname, fun _ ho => ho⟩
  | some opcode =>
      refine ⟨{ b with table := b.table.erase name opcode }, ?_, ?_, ?_⟩
      · simp only [Builder.removeName, hname, Builder.remove_of_named hname, Builder.done]
      · simp
      · intro o ho
        simp [ho]

/-- On a consistent table a redefinition succeeds. -/
theorem Consistent.redefine
    (h : b.table.Consistent) (hopen : b.frozen = false) (d : OpDef) :
    (b.apply (.redefine d)).error = none := by
  obtain ⟨c, hc, hopcode⟩ := h.removeOpcode d.opcode
  obtain ⟨e, he, hname, hfree⟩ := c.removeName_cases d.name
  have hfits := conflict_of_free (hfree d.opcode hopcode) hname
  simp [Builder.apply, hopen, hc, he, Outcome.andThen, Builder.define, hfits, Builder.done]

end Redefinition

section Operations

/-- An operation on a builder. -/
inductive Operation where
  | edit (edit : Edit)
  | finalize
deriving DecidableEq, Repr

namespace Builder

/-- What an operation leaves behind. -/
def perform (b : Builder) : Operation → Outcome
  | .edit edit => b.apply edit
  | .finalize => b.finalize

/-- The builder after operations, those that fail included. -/
def run (b : Builder) : List Operation → Builder
  | [] => b
  | operation :: rest => (b.perform operation).builder.run rest

variable {b : Builder}

theorem apply_of_frozen
    (h : b.frozen = true) (edit : Edit) :
    b.apply edit = ⟨b, some (.frozenTable b.table.key)⟩ := by
  simp [apply, h]

theorem finalize_of_frozen
    (h : b.frozen = true) :
    b.finalize = ⟨b, none⟩ := by
  simp [finalize, h]

theorem perform_of_frozen
    (h : b.frozen = true) (operation : Operation) :
    (b.perform operation).builder = b := by
  cases operation with
  | edit edit =>
      rw [perform, apply_of_frozen h]
  | finalize =>
      rw [perform, finalize_of_frozen h]

/-- No operation changes a builder with a finalized table. -/
theorem run_of_frozen
    (h : b.frozen = true) (operations : List Operation) :
    b.run operations = b := by
  induction operations with
  | nil =>
      rfl
  | cons operation rest ih =>
      rw [run, perform_of_frozen h, ih]

/-- An attempt to finalize fails and changes nothing, or the table is finalized for the same key. -/
theorem finalize_cases
    (b : Builder) :
    (b.finalize.error ≠ none ∧ b.finalize.builder = b) ∨
      (b.finalize.error = none ∧ b.finalize.builder.frozen = true ∧
        b.finalize.builder.table.key = b.table.key) := by
  unfold finalize
  split
  · rename_i hfrozen
    exact Or.inr ⟨rfl, hfrozen, rfl⟩
  · split
    · exact Or.inl ⟨by simp [fail], rfl⟩
    · exact Or.inr ⟨rfl, rfl, rfl⟩

end Builder

/-- An edit of a consistent table that fails changes nothing. -/
theorem Consistent.apply_of_error
    {b : Builder}
    (h : b.table.Consistent) (edit : Edit)
    (herror : (b.apply edit).error ≠ none) :
    (b.apply edit).builder = b := by
  cases hfrozen : b.frozen with
  | true =>
      rw [Builder.apply_of_frozen hfrozen]
  | false =>
      cases edit with
      | remove name opcode =>
          simp only [Builder.apply, hfrozen] at herror ⊢
          exact builder_remove_of_error b name opcode herror
      | define d =>
          simp only [Builder.apply, hfrozen] at herror ⊢
          exact builder_define_of_error b d herror
      | redefine d =>
          exact absurd (h.redefine hfrozen d) herror
      | removeAll =>
          simp [Builder.apply, hfrozen, Builder.done] at herror
      | setting s =>
          simp [Builder.apply, hfrozen, Builder.done] at herror
      | bind name binding =>
          simp only [Builder.apply, hfrozen] at herror ⊢
          exact builder_bind_of_error b name binding herror

/-- On every builder that can be reached an operation that fails changes nothing; redefining an
opcode, removing all and changing a setting only fail on a finalized table; and once a table is
finalized, every edit fails, finalizing it again succeeds, and no operations change it. -/
theorem Reachable.atomic
    {b : Builder}
    (h : Reachable b) :
    (∀ edit, (b.apply edit).error ≠ none → (b.apply edit).builder = b) ∧
    (b.finalize.error ≠ none → b.finalize.builder = b) ∧
    (b.frozen = false →
      (∀ d, (b.apply (.redefine d)).error = none) ∧
      (b.apply .removeAll).error = none ∧
      (∀ s, (b.apply (.setting s)).error = none)) ∧
    (b.finalize.error = none → ∀ operations,
      (b.finalize.builder.run operations) = b.finalize.builder ∧
      (∀ edit, ((b.finalize.builder.run operations).apply edit).error =
        some (.frozenTable b.table.key)) ∧
      (b.finalize.builder.run operations).finalize.error = none) := by
  have hconsistent := h.consistent
  refine ⟨hconsistent.apply_of_error, ?_, ?_, ?_⟩
  · intro herror
    rcases b.finalize_cases with ⟨_, hsame⟩ | ⟨hnone, _⟩
    · exact hsame
    · exact absurd hnone herror
  · intro hopen
    refine ⟨hconsistent.redefine hopen, ?_, ?_⟩
    · simp [Builder.apply, hopen, Builder.done]
    · intro s
      simp [Builder.apply, hopen, Builder.done]
  · intro hnone operations
    rcases b.finalize_cases with ⟨herror, _⟩ | ⟨_, hfrozen, hkey⟩
    · exact absurd hnone herror
    · have hrun := Builder.run_of_frozen hfrozen operations
      rw [hrun]
      refine ⟨rfl, ?_, ?_⟩
      · intro edit
        rw [Builder.apply_of_frozen hfrozen, hkey]
      · rw [Builder.finalize_of_frozen hfrozen]

/-- A builder whose table can be finalized, with one more opcode. -/
def sampleOpen : Builder :=
  let first := ((Builder.new ⟨⟨3, 8⟩, .cpython⟩).apply
    (.define ⟨"EXTENDED_ARG", 144, 0, 0, .plain, []⟩)).builder
  (first.apply (.define ⟨"POP_TOP", 1, 1, 0, .plain, []⟩)).builder

/-- On the sample a name that has another number is refused, and a redefinition that takes both a
name and a number away succeeds; finalized, the sample stands what would clear it. -/
theorem atomic_sampleOpen :
    Reachable sampleOpen ∧
    (sampleOpen.apply (.define ⟨"POP_TOP", 2, 1, 0, .plain, []⟩)).builder = sampleOpen ∧
    (sampleOpen.apply (.redefine ⟨"POP_TOP", 144, 1, 0, .plain, []⟩)).error = none ∧
    sampleOpen.finalize.builder.run [.edit .removeAll, .finalize] = sampleOpen.finalize.builder := by
  have hreach : Reachable sampleOpen :=
    .apply _ (.apply _ (.new _))
  obtain ⟨hfailed, _, hopen, hfinal⟩ := hreach.atomic
  refine ⟨hreach, hfailed _ ?_, (hopen rfl).1 _, (hfinal ?_ _).1⟩
  · decide
  · decide

end Operations
end Table
end Disassembler
