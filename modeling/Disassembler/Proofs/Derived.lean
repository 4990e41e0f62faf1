import Disassembler.Table.Lemmas

/-!
# Tables derived from derived tables

The entries of a table are its settings, its opcodes with their names and its classes.  The rest is
its cover: what the table is for, what it was made from, and the sets computed when it was last
finalized.  Edits and checks read nothing of the cover but the key, and that only for messages.

**Input.**  A parent or none, two keys and two lists of edits.

**Results.**
* `Builder.applyAll_under`: edits do the same to the same entries under another cover.
* `build_chain`: a table made by the second edits from the table that the first edits make is the
  table that both make at once, but for the parent that it names; or both fail alike.
-/

namespace Disassembler
namespace Table

section Covers

/-- The entries of a table under the cover of another one. -/
def under (t cover : Table) : Table :=
  { cover with
    settings := t.settings
    ops := t.ops
    opcodes := t.opcodes
    classes := t.classes }

/-- The same error about the table for another key. -/
def errorUnder (key : TableKey) : Error → Error
  | .inconsistentTable _ fault => .inconsistentTable key fault
  | .frozenTable _ => .frozenTable key
  | other => other

/-- A builder with the same entries under another cover. -/
def Builder.under (b : Builder) (cover : Table) : Builder :=
  { b with table := b.table.under cover }

/-- What an operation leaves behind, under another cover. -/
def Outcome.under (o : Outcome) (cover : Table) : Outcome :=
  ⟨o.builder.under cover, o.error.map (errorUnder cover.key)⟩

theorem conflict?_under
    (t cover : Table) (d : OpDef) :
    (t.under cover).conflict? d = t.conflict? d := by
  rfl

theorem check_under
    (t cover : Table) :
    (t.under cover).check = t.check := by
  rfl

variable (b : Builder) (cover : Table)

theorem Builder.remove_under
    (name : String) (opcode : Nat) :
    (b.under cover).remove name opcode = (b.remove name opcode).under cover := by
  have hname : (b.under cover).table.opcodeOf name = b.table.opcodeOf name := rfl
  unfold Builder.remove
  rw [hname]
  split
  · rfl
  · split
    · rfl
    · rfl

theorem Builder.define_under
    (d : OpDef) :
    (b.under cover).define d = (b.define d).under cover := by
  unfold Builder.define
  rw [Builder.under, conflict?_under]
  split
  · rfl
  · rfl

theorem Builder.bind_under
    (name : String) (binding : Binding) :
    (b.under cover).bind name binding = (b.bind name binding).under cover := by
  have hname : (b.under cover).table.opcodeOf name = b.table.opcodeOf name := rfl
  have hinfo : ∀ o, (b.under cover).table.info o = b.table.info o := fun _ => rfl
  unfold Builder.bind
  rw [hname]
  split
  · rfl
  · rw [hinfo]
    split
    · rfl
    · rfl

theorem Builder.removeOpcode_under
    (opcode : Nat) :
    (b.under cover).removeOpcode opcode = (b.removeOpcode opcode).under cover := by
  have hinfo : (b.under cover).table.info opcode = b.table.info opcode := rfl
  unfold Builder.removeOpcode
  rw [hinfo]
  split
  · exact Builder.remove_under b cover _ opcode
  · rfl

theorem Builder.removeName_under
    (name : String) :
    (b.under cover).removeName name = (b.removeName name).under cover := by
  have hname : (b.under cover).table.opcodeOf name = b.table.opcodeOf name := rfl
  unfold Builder.removeName
  rw [hname]
  split
  · exact Builder.remove_under b cover name _
  · rfl

theorem Outcome.andThen_under
    {next : Builder → Outcome} (o : Outcome)
    (h : ∀ b : Builder, next (b.under cover) = (next b).under cover) :
    (o.under cover).andThen next = (o.andThen next).under cover := by
  obtain ⟨b, error⟩ := o
  cases error with
  | none =>
      exact h b
  | some e =>
      rfl

/-- An edit does the same to the same entries under another cover. -/
theorem Builder.apply_under
    (edit : Edit) :
    (b.under cover).apply edit = (b.apply edit).under cover := by
  have hfrozen : (b.under cover).frozen = b.frozen := rfl
  unfold Builder.apply
  rw [hfrozen]
  split
  · rfl
  · cases edit with
    | remove name opcode =>
        exact Builder.remove_under b cover name opcode
    | define d =>
        exact Builder.define_under b cover d
    | redefine d =>
        dsimp only
        rw [Builder.removeOpcode_under,
          Outcome.andThen_under cover _ fun c => Builder.removeName_under c cover d.name]
        exact Outcome.andThen_under cover _ fun c => Builder.define_under c cover d
    | removeAll =>
        rfl
    | setting s =>
        rfl
    | bind name binding =>
        exact Builder.bind_under b cover name binding

/-- Edits do the same to the same entries under another cover. -/
theorem Builder.applyAll_under
    (edits : List Edit) :
    (b.under cover).applyAll edits = (b.applyAll edits).under cover := by
  induction edits generalizing b with
  | nil =>
      rfl
  | cons edit rest ih =>
      rw [Builder.applyAll, Builder.applyAll, Builder.apply_under]
      exact Outcome.andThen_under cover _ ih

end Covers

section Runs

theorem Outcome.andThen_assoc
    (o : Outcome) (f g : Builder → Outcome) :
    (o.andThen f).andThen g = o.andThen fun b => (f b).andThen g := by
  obtain ⟨b, error⟩ := o
  cases error <;> rfl

theorem Builder.applyAll_append
    (b : Builder) (first second : List Edit) :
    b.applyAll (first ++ second) = (b.applyAll first).andThen fun c => c.applyAll second := by
  induction first generalizing b with
  | nil =>
      rfl
  | cons edit rest ih =>
      rw [List.cons_append, Builder.applyAll, Builder.applyAll, Outcome.andThen_assoc]
      congr 1
      funext c
      exact ih c

theorem Outcome.frozen_andThen
    {o : Outcome} {next : Builder → Outcome} {frozen : Bool}
    (hfirst : o.builder.frozen = frozen)
    (hnext : ∀ b : Builder, (next b).builder.frozen = b.frozen) :
    (o.andThen next).builder.frozen = frozen := by
  unfold Outcome.andThen
  split
  · exact hfirst
  · rw [hnext, hfirst]

theorem Builder.frozen_remove
    (b : Builder) (name : String) (opcode : Nat) :
    (b.remove name opcode).builder.frozen = b.frozen := by
  unfold Builder.remove
  split
  · rfl
  · split <;> rfl

theorem Builder.frozen_define
    (b : Builder) (d : OpDef) :
    (b.define d).builder.frozen = b.frozen := by
  unfold Builder.define
  split <;> rfl

theorem Builder.frozen_bind
    (b : Builder) (name : String) (binding : Binding) :
    (b.bind name binding).builder.frozen = b.frozen := by
  unfold Builder.bind
  split
  · rfl
  · split <;> rfl

/-- No edit finalizes a table. -/
theorem Builder.frozen_apply
    (b : Builder) (edit : Edit) :
    (b.apply edit).builder.frozen = b.frozen := by
  unfold Builder.apply
  split
  · rfl
  · cases edit with
    | remove name opcode =>
        exact b.frozen_remove name opcode
    | define d =>
        exact b.frozen_define d
    | redefine d =>
        have hopcode : (b.removeOpcode d.opcode).builder.frozen = b.frozen := by
          unfold Builder.removeOpcode
          split
          · exact b.frozen_remove _ _
          · rfl
        have hname : ∀ c : Builder, (c.removeName d.name).builder.frozen = c.frozen := by
          intro c
          unfold Builder.removeName
          split
          · exact c.frozen_remove _ _
          · rfl
        exact Outcome.frozen_andThen (Outcome.frozen_andThen hopcode hname)
          fun c => c.frozen_define d
    | removeAll =>
        rfl
    | setting s =>
        rfl
    | bind name binding =>
        exact b.frozen_bind name binding

theorem Builder.frozen_applyAll
    (b : Builder) (edits : List Edit) :
    (b.applyAll edits).builder.frozen = b.frozen := by
  induction edits generalizing b with
  | nil =>
      rfl
  | cons edit rest ih =>
      exact Outcome.frozen_andThen (b.frozen_apply edit) ih

theorem Builder.frozen_start
    (parent : Option Table) (key : TableKey) :
    (Builder.start parent key).frozen = false := by
  cases parent <;> rfl

end Runs

section Chains

/-- The table, without a record of what it was made from. -/
def forgetParent (t : Table) : Table :=
  { t with parent := none }

/-- The finalized table of what edits leave behind. -/
def Outcome.toTable (o : Outcome) : Except Error Table :=
  match o with
  | ⟨_, some e⟩ => .error e
  | ⟨b, none⟩ => b.toTable

theorem build_eq
    (parent : Option Table) (key : TableKey) (edits : List Edit) :
    build parent key edits = ((Builder.start parent key).applyAll edits).toTable := by
  rfl

/-- An open builder gives the table with its entries and computed sets, or an error of its check. -/
theorem Builder.toTable_of_open
    {b : Builder}
    (hopen : b.frozen = false) :
    b.toTable =
      match b.table.check with
      | .error fault => .error (.inconsistentTable b.table.key fault)
      | .ok extendedArg => .ok (b.table.withDerived extendedArg) := by
  simp only [Builder.toTable, Builder.finalize, hopen]
  cases b.table.check <;> rfl

/-- Without an error from the edits or from finalizing, the table is built. -/
theorem build_eq_ok
    {parent : Option Table} {key : TableKey} {edits : List Edit}
    (happly : ((Builder.start parent key).applyAll edits).error = none)
    (hfinalize : ((Builder.start parent key).applyAll edits).builder.finalize.error = none) :
    build parent key edits =
      .ok ((Builder.start parent key).applyAll edits).builder.finalize.builder.table := by
  rw [build_eq]
  generalize (Builder.start parent key).applyAll edits = o at happly hfinalize ⊢
  obtain ⟨b, error⟩ := o
  subst happly
  rw [Outcome.toTable, Builder.toTable]
  generalize b.finalize = o at hfinalize ⊢
  obtain ⟨c, error⟩ := o
  subst hfinalize
  rfl

/-- Finalizing replaces every computed set of the cover. -/
theorem Builder.toTable_under
    {b : Builder} (cover : Table)
    (hopen : b.frozen = false) :
    (b.under cover).toTable.map forgetParent =
      match b.table.check with
      | .error fault => .error (.inconsistentTable cover.key fault)
      | .ok extendedArg =>
        .ok { b.table.withDerived extendedArg with key := cover.key, parent := none } := by
  have hopen' : (b.under cover).frozen = false := hopen
  have hcheck : (b.under cover).table.check = b.table.check := check_under b.table cover
  rw [Builder.toTable_of_open hopen', hcheck]
  cases b.table.check <;> rfl

/-- What edits leave behind of the same entries under two covers for one key gives, finalized, the
same table but for the parent, or the same error. -/
theorem Outcome.toTable_under
    {o : Outcome} {cover cover' : Table}
    (hopen : o.builder.frozen = false)
    (hkey : cover.key = cover'.key) :
    (o.under cover).toTable.map forgetParent = (o.under cover').toTable.map forgetParent := by
  obtain ⟨b, error⟩ := o
  cases error with
  | some e =>
      simp only [Outcome.under, Outcome.toTable, Option.map_some, hkey, Except.map]
  | none =>
      have htable : ∀ c : Table, (Outcome.under ⟨b, none⟩ c).toTable = (b.under c).toTable :=
        fun _ => rfl
      rw [htable, htable, Builder.toTable_under cover hopen, Builder.toTable_under cover' hopen,
        hkey]

/-- A successful build leaves an open builder behind; the table is the one of the builder with its
computed sets. -/
theorem exists_withDerived_of_build
    {parent : Option Table} {key : TableKey} {edits : List Edit} {t : Table}
    (h : build parent key edits = .ok t) :
    ∃ (b : Builder) (opcode : Nat), (Builder.start parent key).applyAll edits = ⟨b, none⟩ ∧
      b.frozen = false ∧ t = b.table.withDerived opcode := by
  have hopen := (Builder.start parent key).frozen_applyAll edits
  rw [Builder.frozen_start] at hopen
  rw [build_eq] at h
  generalize (Builder.start parent key).applyAll edits = o at h hopen ⊢
  obtain ⟨b, error⟩ := o
  cases error with
  | some e =>
      cases h
  | none =>
      replace h : b.toTable = .ok t := h
      rw [Builder.toTable_of_open hopen] at h
      split at h
      · cases h
      · cases h
        exact ⟨b, _, rfl, hopen, rfl⟩

/-- A successful build leaves an open builder behind, whose entries the table has. -/
theorem exists_of_build
    {parent : Option Table} {key : TableKey} {edits : List Edit} {t : Table}
    (h : build parent key edits = .ok t) :
    ∃ b : Builder, (Builder.start parent key).applyAll edits = ⟨b, none⟩ ∧ b.frozen = false ∧
      ∀ cover, t.under cover = b.table.under cover := by
  obtain ⟨b, opcode, happly, hopen, rfl⟩ := exists_withDerived_of_build h
  exact ⟨b, happly, hopen, fun _ => rfl⟩

/-- A builder for another key has the same entries. -/
theorem Builder.start_under
    (parent : Option Table) (key key' : TableKey) :
    Builder.start parent key' =
      (Builder.start parent key).under (Builder.start parent key').table := by
  cases parent <;> rfl

/-- A table made by edits from a table that other edits make is the one that both make at once, but
for the parent that it names; or both fail with the same error. -/
theorem build_chain
    (parent : Option Table) (key key' : TableKey) (first second : List Edit) {middle : Table}
    (h : build parent key first = .ok middle) :
    (build (some middle) key' second).map forgetParent =
      (build parent key' (first ++ second)).map forgetParent := by
  obtain ⟨b, hfirst, hopen, hentries⟩ := exists_of_build h
  have hsecond : (b.applyAll second).builder.frozen = false := by
    rw [b.frozen_applyAll, hopen]
  have hchain : Builder.start (some middle) key' =
      b.under (Builder.start (some middle) key').table := by
    have hsame := hentries (Builder.start (some middle) key').table
    rw [Builder.under, ← hsame, hopen]
    rfl
  have hflat : (Builder.start parent key').applyAll first =
      (⟨b, none⟩ : Outcome).under (Builder.start parent key').table := by
    rw [Builder.start_under parent key key', Builder.applyAll_under, hfirst]
    rfl
  have hkey : (Builder.start (some middle) key').table.key =
      (Builder.start parent key').table.key := by
    cases parent <;> rfl
  calc (build (some middle) key' second).map forgetParent
      = ((b.applyAll second).under (Builder.start (some middle) key').table).toTable.map
          forgetParent := by
        rw [build_eq, hchain, Builder.applyAll_under]
        rfl
    _ = ((b.applyAll second).under (Builder.start parent key').table).toTable.map
          forgetParent := Outcome.toTable_under hsecond hkey
    _ = (build parent key' (first ++ second)).map forgetParent := by
        rw [build_eq, Builder.applyAll_append, hflat, ← Builder.applyAll_under]
        rfl

end Chains

section Sample

/-- Edits for a small table with loads, operators, collections, calls and jumps. -/
def sampleEdits : List Edit :=
  [.setting (.wordcode true),
   .setting (.extendedArgShift 8),
   .define ⟨"PUSH_NULL", 2, 0, 1, .plain, []⟩,
   .define ⟨"NOP", 9, 0, 0, .plain, []⟩,
   .define ⟨"UNARY_NEGATIVE", 11, 1, 1, .unary, []⟩,
   .bind "UNARY_NEGATIVE" (.fold (some .negate)),
   .define ⟨"BINARY_ADD", 23, 2, 1, .binary, []⟩,
   .bind "BINARY_ADD" (.fold (some (.infixOp ⟨0⟩))),
   .define ⟨"RETURN_VALUE", 83, 1, 0, .plain, []⟩,
   .bind "RETURN_VALUE" (.fold (some .returnValue)),
   .define ⟨"LOAD_CONST", 100, 0, 1, .const, [.nullaryLoad]⟩,
   .define ⟨"LOAD_NAME", 101, 0, 1, .name, [.nullaryLoad]⟩,
   .define ⟨"BUILD_LIST", 103, -1, 1, .varargs, []⟩,
   .bind "BUILD_LIST" (.fold (some .buildList)),
   .define ⟨"BUILD_MAP", 105, -1, 1, .varargs, []⟩,
   .bind "BUILD_MAP" (.stackRule (some .mapPairs)),
   .bind "BUILD_MAP" (.fold (some .buildMap)),
   .define ⟨"LOAD_ATTR", 106, 1, 1, .name, []⟩,
   .bind "LOAD_ATTR" (.fold (some .attr)),
   .bind "LOAD_ATTR" (.cacheEntries 1),
   .define ⟨"JUMP_FORWARD", 110, 0, 0, .jumpRel, []⟩,
   .define ⟨"JUMP_IF_TRUE_OR_POP", 112, 0, 0, .jumpAbs, []⟩,
   .define ⟨"IS_OP", 117, 2, 1, .binary, []⟩,
   .bind "IS_OP" (.format (some .isOp)),
   .bind "IS_OP" (.fold (some .isOp)),
   .define ⟨"CALL_FUNCTION", 131, -2, 1, .call, []⟩,
   .bind "CALL_FUNCTION" (.fold (some .callFunction)),
   .define ⟨"CALL_FUNCTION_KW", 141, -3, 1, .call, []⟩,
   .bind "CALL_FUNCTION_KW" (.fold (some .callFunctionKw)),
   .define ⟨"EXTENDED_ARG", 144, 0, 0, .plain, []⟩,
   .define ⟨"CALL_KW", 170, -4, 1, .call, []⟩,
   .bind "CALL_KW" (.fold (some .callKw)),
   .define ⟨"CALL", 171, -3, 1, .call, []⟩,
   .bind "CALL" (.fold (some .call)),
   .define ⟨"KW_NAMES", 172, 0, 0, .const, []⟩]

/-- The builder of the small table, finalized. -/
def Builder.sample : Builder :=
  ((Builder.new ⟨⟨3, 8⟩, .cpython⟩).applyAll sampleEdits).builder.finalize.builder

/-- A small table with loads, operators, collections, calls and jumps. -/
def sample : Table :=
  Builder.sample.table

/-- A child that drops a jump its parent was finalized with is the table that never had it. -/
theorem build_chain_sample :
    build none ⟨⟨3, 8⟩, .cpython⟩ sampleEdits = .ok sample ∧
    sample.isJump 110 = true ∧
    (build (some sample) ⟨⟨3, 9⟩, .cpython⟩ [.remove "JUMP_FORWARD" 110]).map forgetParent =
      (build none ⟨⟨3, 9⟩, .cpython⟩ (sampleEdits ++ [.remove "JUMP_FORWARD" 110])).map
        forgetParent := by
  have hbuild : build none ⟨⟨3, 8⟩, .cpython⟩ sampleEdits = .ok sample :=
    build_eq_ok (by decide +kernel) (by decide +kernel)
  refine ⟨hbuild, ?_, build_chain none _ _ sampleEdits _ hbuild⟩
  decide +kernel

end Sample
end Table
end Disassembler
