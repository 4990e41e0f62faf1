import Disassembler.Catalog
import Disassembler.Proofs.Balance

/-!
# The tables of this library

**Input.**  A table of this library, and faultless bytecode without imports and definitions of
functions.

**Results.**
* `regular_of_find`: the tables of this library are regular.
* `annotate_balance`: over a folded range the stack effects are known, and they add up to one more
  than the surpluses.
-/

namespace Disassembler
namespace Fold

section Registered

/-- A store between two loads, and then an addition: the first operand is not the text of the
store but the value loaded before it. -/
def storeCode : List UInt8 :=
  [101, 0, 101, 1, 90, 2, 101, 3, 23, 0]

def storeNames : Environment :=
  { names := ["z", "a", "x", "b"] }

/-- What a table makes of the sample. -/
def StoreFolded (t : Table) : Prop :=
  (decode t storeNames false storeCode).faults = [] ∧
  (∀ j ∈ (decode t storeNames false storeCode).instructions,
    ∀ rule ∈ ruleOf t j, rule ∉ definitionRules) ∧
  ((annotate? t (decode t storeNames false storeCode).instructions).bind fun notes =>
      ((decode t storeNames false storeCode).instructions.zip notes)[4]?).map
    (fun p => (p.1.offset, ruleOf t p.1, p.2)) =
    some (8, some (.infixOp ⟨0⟩), ⟨some "x = a + b", some 2, some "x = a + b"⟩) ∧
  heightChange (range (decode t storeNames false storeCode).instructions 2 8) = some 0

instance (t : Table) : Decidable (StoreFolded t) :=
  inferInstanceAs (Decidable (_ ∧ _))

set_option maxRecDepth 100000 in
/-- The tables of this library are regular, and the one for 3.8 folds the sample as expected.
Both are found out together, so that the registry is evaluated once. -/
theorem registry_evaluated :
    (Catalog.registry.toList.all fun p => (p.2.toOption.map isRegular).getD true) = true ∧
    (Catalog.find ⟨3, 8⟩ .cpython).toOption.any (fun t => decide (StoreFolded t)) = true := by
  decide +kernel

/-- The tables of this library are regular. -/
theorem regular_of_find
    {version : Version} {implementation : Implementation} {t : Table}
    (h : Catalog.find version implementation = .ok t) :
    Regular t := by
  apply regular_of_isRegular
  rw [Catalog.find, Registry.get] at h
  split at h
  · rename_i entry hentry
    subst h
    have hmem : (_, Except.ok t) ∈ Catalog.registry.toList :=
      Std.ExtTreeMap.mem_toList_iff_getElem?_eq_some.mpr hentry
    exact List.all_eq_true.mp registry_evaluated.1 _ hmem
  · cases h

theorem exists_storeFolded :
    ∃ t, Catalog.find ⟨3, 8⟩ .cpython = .ok t ∧ StoreFolded t := by
  have hany := registry_evaluated.2
  cases hfind : Catalog.find ⟨3, 8⟩ .cpython with
  | error e =>
      rw [hfind] at hany
      cases hany
  | ok t =>
      rw [hfind] at hany
      exact ⟨t, rfl, of_decide_eq_true hany⟩

end Registered

section Account

variable {t : Table} {env : Environment} {code : List UInt8}

/-- Over a folded range the stack effects are known, and they add up to one more than the
surpluses.  No list of names in memory reaches the bound on their number; beyond it the operand of a
name would have no stack effect. -/
theorem annotate_balance
    {version : Version} {implementation : Implementation} {showCaches : Bool}
    {notes : List Note} {i : Instruction} {note : Note} {rule : FoldRule} {start : Nat}
    (htable : Catalog.find version implementation = .ok t)
    (hfaults : (decode t env showCaches code).faults = [])
    (hnames : env.names.length < 0x4000000000000000)
    (hdefinitions : ∀ j ∈ (decode t env showCaches code).instructions,
      ∀ rule ∈ ruleOf t j, rule ∉ definitionRules)
    (hnotes : annotate? t (decode t env showCaches code).instructions = some notes)
    (hnote : (i, note) ∈ (decode t env showCaches code).instructions.zip notes)
    (hrule : ruleOf t i = some rule)
    (hfolded : note.expression ≠ none)
    (hstart : note.start = some start) :
    heightChange (range (decode t env showCaches code).instructions start i.offset) =
      some (1 + total (surplus t (decode t env showCaches code).instructions)
        (range (decode t env showCaches code).instructions start i.offset)) := by
  have hregular := regular_of_find htable
  have hplain := Decode.plain_decode t env showCaches code
  have hclean : Clean t env (decode t env false code).instructions := by
    apply clean_decode hregular _ hnames
    · intro j hj
      rw [← hplain] at hj
      exact hdefinitions j (List.mem_of_mem_filter hj)
    · rw [← Decode.faults_decode t env showCaches code]
      exact hfaults
  have hi : i ∈ (decode t env showCaches code).instructions := (List.of_mem_zip hnote).1
  have hcache : i.isCache = false := by
    cases hcache : i.isCache with
    | false =>
        rfl
    | true =>
        have hnone := hregular.2
        rw [PlainCaches, ← opcode_of_isCache hi hcache] at hnone
        rw [ruleOf, hnone] at hrule
        cases hrule
  have hzip := mem_zip_plain hnote hcache
  have hplainNotes := annotate?_plain (Decode.pairwise_decode t env showCaches code)
    (Decode.expression_decode t env showCaches code)
    (fun j hj hcache => Decode.hasRoom_of_isCache t env hj hcache)
  rw [hnotes, Option.map_some] at hplainNotes
  rw [eq_annotate hplainNotes.symm] at hzip
  rw [← range_plain, ← surplus_plain, hplain] at *
  exact hclean.heightChange_range hzip hfolded hstart

end Account

section Sample

/-- The addition of the sample is folded over a range that leaves no value. -/
theorem heightChange_storeCode :
    ∃ t notes i note, Catalog.find ⟨3, 8⟩ .cpython = .ok t ∧
      (decode t storeNames false storeCode).faults = [] ∧
      (∀ j ∈ (decode t storeNames false storeCode).instructions,
        ∀ rule ∈ ruleOf t j, rule ∉ definitionRules) ∧
      annotate? t (decode t storeNames false storeCode).instructions = some notes ∧
      (i, note) ∈ (decode t storeNames false storeCode).instructions.zip notes ∧
      ruleOf t i = some (.infixOp ⟨0⟩) ∧ note.expression = some "x = a + b" ∧
      note.start = some 2 ∧
      heightChange (range (decode t storeNames false storeCode).instructions 2 i.offset) =
        some 0 := by
  obtain ⟨t, hfind, hfaults, hdefinitions, hnote, hheight⟩ := exists_storeFolded
  obtain ⟨⟨i, note⟩, hget, hfacts⟩ := Option.map_eq_some_iff.mp hnote
  obtain ⟨notes, hnotes, hget⟩ := Option.bind_eq_some_iff.mp hget
  simp only [Prod.mk.injEq] at hfacts
  obtain ⟨hoffset, hrule, rfl⟩ := hfacts
  rw [← hoffset] at hheight
  exact ⟨t, notes, i, _, hfind, hfaults, hdefinitions, hnotes, List.mem_of_getElem? hget, hrule,
    rfl, rfl, hheight⟩

/-- The surpluses of the sample say that one value is missing: the store leaves none. -/
theorem annotate_balance_storeCode :
    ∃ t notes i note, Catalog.find ⟨3, 8⟩ .cpython = .ok t ∧
      annotate? t (decode t storeNames false storeCode).instructions = some notes ∧
      (i, note) ∈ (decode t storeNames false storeCode).instructions.zip notes ∧
      note.start = some 2 ∧ i.offset = 8 ∧
      heightChange (range (decode t storeNames false storeCode).instructions 2 8) = some 0 ∧
      total (surplus t (decode t storeNames false storeCode).instructions)
        (range (decode t storeNames false storeCode).instructions 2 8) = -1 := by
  obtain ⟨t, hfind, hfaults, hdefinitions, hnote, hheight⟩ := exists_storeFolded
  obtain ⟨⟨i, note⟩, hget, hfacts⟩ := Option.map_eq_some_iff.mp hnote
  obtain ⟨notes, hnotes, hget⟩ := Option.bind_eq_some_iff.mp hget
  simp only [Prod.mk.injEq] at hfacts
  obtain ⟨hoffset, hrule, rfl⟩ := hfacts
  have hmem := List.mem_of_getElem? hget
  have hbalance := annotate_balance hfind hfaults (by decide) hdefinitions hnotes hmem hrule
    (Option.some_ne_none _) rfl
  rw [hoffset, hheight, Option.some.injEq] at hbalance
  exact ⟨t, notes, i, _, hfind, hnotes, hmem, rfl, hoffset, hheight, by omega⟩

end Sample
end Fold
end Disassembler
