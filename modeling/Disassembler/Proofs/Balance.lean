import Disassembler.Proofs.Accounts
import Disassembler.Proofs.Caches

/-!
# Folded ranges and the stack

**Input.**  A regular table, and faultless bytecode without imports and definitions of functions.

**Results.**
* `Clean.balanced_seen`: all through the pass a folded instruction settles for one value.
* `Clean.heightChange_range`: over a folded range the stack effects are known, and they add up to
  one more than the surpluses.  So the range is the code of one value exactly when the surpluses
  cancel.
* `clean_decode`: faultless bytecode is such that this holds of it.
-/

namespace Disassembler
namespace Fold

open Decode (plain)

section Pass

variable {t : Table} {env : Environment} {js : List Instruction} {past : Past} {i : Instruction}

/-- One more note keeps the account. -/
theorem Clean.balanced_of_noteOf
    (h : Clean t env js)
    (hplace : ⟨i, noteOf t past i⟩ :: past <:+ seen t [] js)
    (hbalanced : ∀ q rest, q :: rest <:+ past → Balanced t js q rest) :
    Balanced t js ⟨i, noteOf t past i⟩ past := by
  have hi : i ∈ js := mem_of_mem_seen (hplace.subset List.mem_cons_self)
  have hdescending : Descending (⟨i, noteOf t past i⟩ :: past) :=
    (descending_seen t h.ascending).sublist hplace.sublist
  obtain ⟨info, hfaultless, hregular⟩ := h.exists_info hi
  have hunique : ∀ info', t.info i.opcode = some info' → info' = info := by
    intro info' hinfo
    rw [hfaultless.known, Option.some.injEq] at hinfo
    exact hinfo.symm
  intro hexpression
  rcases takes_of_noteOf (h.fresh i hi) hdescending with
    ⟨hown, hnone | ⟨hrule, hload⟩⟩ | ⟨rule, parts, hrule, _, htakes, hasked⟩
  · exact absurd hnone hexpression
  · rw [ruleOf_eq hfaultless] at hrule
    simp only [isLoad, Bool.and_eq_true] at hload
    have hloads : Loads t i.opcode info := Or.inl ⟨hrule, hload.2⟩
    have hsettled := h.settled_of_leaf (p := ⟨i, noteOf t past i⟩) past hfaultless hregular
      (hregular.load hloads) (by simp [hrule])
    rw [counted_of_value hfaultless hregular (Or.inr hloads)] at hsettled
    rw [hown]
    refine ⟨hsettled, ?_⟩
    intro info' hinfo
    rw [hunique info' hinfo]
    exact Or.inr hloads
  · refine ⟨h.settled_of_asked hplace hbalanced hrule htakes hasked, ?_⟩
    intro info' hinfo
    rw [hunique info' hinfo, ← ruleOf_eq hfaultless, hrule]
    exact Or.inl (Option.some_ne_none rule)

/-- The whole pass keeps the account. -/
theorem Clean.balanced_seen
    (h : Clean t env js) :
    ∀ q rest, q :: rest <:+ seen t [] js → Balanced t js q rest := by
  refine everywhere_seen ?_
  intro i past hplace hbalanced
  exact h.balanced_of_noteOf hplace hbalanced

end Pass

section Ranges

/-- The change of the stack height by instructions whose effects are all known. -/
def heightChange : List Instruction → Option Int
  | [] => some 0
  | j :: rest =>
    match j.stackEffect, heightChange rest with
    | some e, some n => some (e + n)
    | _, _ => none

/-- The instructions from one offset through another, without cache words. -/
def range (is : List Instruction) (first last : Nat) : List Instruction :=
  is.filter fun j => !j.isCache && decide (first ≤ j.offset) && decide (j.offset ≤ last)

variable {t : Table} {env : Environment} {js : List Instruction}

theorem total_reverse
    (f : Instruction → Int) (xs : List Instruction) :
    total f xs.reverse = total f xs := by
  induction xs with
  | nil =>
      rfl
  | cons j xs ih =>
      rw [List.reverse_cons, total_append, ih]
      simp only [total]
      omega

/-- Known effects add up to the credits and the surpluses. -/
theorem heightChange_eq
    (t : Table) (is : List Instruction) {xs : List Instruction}
    (h : ∀ j ∈ xs, j.stackEffect ≠ none) :
    heightChange xs = some (total (credit t is) xs + total (surplus t is) xs) := by
  induction xs with
  | nil =>
      rfl
  | cons j xs ih =>
      obtain ⟨e, he⟩ := Option.ne_none_iff_exists'.mp (h j List.mem_cons_self)
      rw [heightChange, he, ih (fun k hk => h k (List.mem_cons_of_mem j hk))]
      simp only [total, credit, he, Option.getD_some, Option.some.injEq]
      omega

theorem filter_middle
    {f : Instruction → Bool} {xs ys zs : List Instruction}
    (hxs : ∀ j ∈ xs, f j = false)
    (hys : ∀ j ∈ ys, f j = true)
    (hzs : ∀ j ∈ zs, f j = false) :
    (xs ++ (ys ++ zs)).filter f = ys := by
  rw [List.filter_append, List.filter_append, List.filter_eq_self.mpr hys,
    List.filter_eq_nil_iff.mpr (by simpa using hxs),
    List.filter_eq_nil_iff.mpr (by simpa using hzs), List.nil_append, List.append_nil]

/-- What lies from a place of the past on is a range of the instructions. -/
theorem range_of_seen
    {past above before : Past} {p q : Noted}
    (hplain : ∀ j ∈ js, j.isCache = false)
    (hascending : js.Pairwise fun i j => i.offset < j.offset)
    (hseen : p :: past <:+ seen t [] js)
    (hplace : p :: past = above ++ q :: before) :
    range js q.instruction.offset p.instruction.offset =
      ((above ++ [q]).map Noted.instruction).reverse := by
  have hdescending : Descending (p :: past) := (descending_seen t hascending).sublist hseen.sublist
  have htop := (List.pairwise_cons.mp hdescending).1
  obtain ⟨after, hafter⟩ := exists_of_suffix_seen hseen
  have hjs : js = (before.map Noted.instruction).reverse ++
      (((above ++ [q]).map Noted.instruction).reverse ++ after) := by
    rw [hafter, hplace]
    simp
  rw [hplace, Descending, List.pairwise_append, List.pairwise_cons] at hdescending
  obtain ⟨_, ⟨hbefore, _⟩, hcross⟩ := hdescending
  have hinside : ∀ r ∈ above ++ [q], q.instruction.offset ≤ r.instruction.offset ∧
      r.instruction.offset ≤ p.instruction.offset := by
    intro r hr
    constructor
    · rcases List.mem_append.mp hr with hr | hr
      · exact Nat.le_of_lt (hcross r hr q List.mem_cons_self)
      · rw [List.mem_singleton.mp hr]
    · have hmem : r ∈ p :: past := by
        rw [hplace, List.append_cons]
        exact List.mem_append_left before hr
      rcases List.mem_cons.mp hmem with rfl | hmem
      · exact Nat.le_refl _
      · exact Nat.le_of_lt (htop r hmem)
  have hbeyond : ∀ k ∈ after, p.instruction.offset < k.offset := by
    intro k hk
    rw [hafter] at hascending
    exact (List.pairwise_append.mp hascending).2.2 _ (by simp) k hk
  rw [range]
  nth_rewrite 1 [hjs]
  apply filter_middle
  · intro j hj
    obtain ⟨r, hr, rfl⟩ := List.mem_map.mp (List.mem_reverse.mp hj)
    have hlt := hbefore r hr
    simp only [Bool.and_eq_false_iff, decide_eq_false_iff_not]
    omega
  · intro j hj
    have hcache : j.isCache = false := by
      apply hplain
      rw [hjs]
      exact List.mem_append_right _ (List.mem_append_left _ hj)
    obtain ⟨r, hr, rfl⟩ := List.mem_map.mp (List.mem_reverse.mp hj)
    simp [hcache, hinside r hr]
  · intro j hj
    have hlt := hbeyond j hj
    simp only [Bool.and_eq_false_iff, decide_eq_false_iff_not]
    omega

/-- Over a folded range of clean instructions the stack height grows by one and the surpluses. -/
theorem Clean.heightChange_range
    {i : Instruction} {note : Note} {start : Nat}
    (h : Clean t env js)
    (hnote : (i, note) ∈ js.zip (annotate t js))
    (hfolded : note.expression ≠ none)
    (hstart : note.start = some start) :
    heightChange (range js start i.offset) =
      some (1 + total (surplus t js) (range js start i.offset)) := by
  have hdescending := descending_seen t h.ascending
  obtain ⟨front, rest, hseen⟩ := List.append_of_mem (mem_seen_iff.mpr hnote)
  have hplace : ⟨i, note⟩ :: rest <:+ seen t [] js := ⟨front, hseen.symm⟩
  obtain ⟨hsettled, _⟩ := h.balanced_seen _ _ hplace hfolded
  have hfirst := offset_origin_seen hdescending h.fresh _ _ hplace start hstart
  obtain ⟨above, habove⟩ := origin_suffix ⟨i, note⟩ rest
  have hrange := range_of_seen h.plain h.ascending hplace habove.symm
  rw [hfirst] at hrange
  generalize (origin ⟨i, note⟩ rest).1 = q at habove hrange
  generalize (origin ⟨i, note⟩ rest).2 = before at habove hsettled
  have hsplit : ⟨i, note⟩ :: rest = (above ++ [q]) ++ before := by
    rw [← habove]
    simp
  -- The places of the range are not those before it, so that all their effects are known.
  have hknown : ∀ j ∈ ((above ++ [q]).map Noted.instruction).reverse, j.stackEffect ≠ none := by
    intro j hj
    obtain ⟨r, hr, rfl⟩ := List.mem_map.mp (List.mem_reverse.mp hj)
    have hnext := hdescending.sublist hplace.sublist
    rw [hsplit, List.pairwise_append] at hnext
    rcases hsettled.known r (by rw [hsplit]; exact List.mem_append_left _ hr) with hr' | hknown
    · exact absurd (hnext.2.2 r hr r hr') (Nat.lt_irrefl _)
    · exact hknown
  have hadds := hsettled.adds
  rw [hsplit, List.map_append, total_append] at hadds
  rw [hrange, heightChange_eq t js hknown, total_reverse, total_reverse]
  congr 1
  omega

end Ranges

section Caches

variable {t : Table}

theorem range_plain
    (is : List Instruction) (first last : Nat) :
    range (plain is) first last = range is first last := by
  rw [range, range, plain, List.filter_filter]
  apply List.filter_congr
  intro j _
  cases j.isCache <;> simp

theorem surplus_plain
    (t : Table) (is : List Instruction) :
    surplus t (plain is) = surplus t is := by
  funext j
  have hfilter : (plain is).filter (fun k => !k.isCache && decide (k.offset < j.offset)) =
      is.filter fun k => !k.isCache && decide (k.offset < j.offset) := by
    rw [plain, List.filter_filter]
    apply List.filter_congr
    intro k _
    cases k.isCache <;> simp
  rw [surplus, surplus, announced, announced, hfilter]

theorem mem_zip_plain
    {is : List Instruction} {notes : List Note} {i : Instruction} {note : Note}
    (h : (i, note) ∈ is.zip notes)
    (hcache : i.isCache = false) :
    (i, note) ∈ (plain is).zip (plainNotes is notes) := by
  induction is generalizing notes with
  | nil =>
      cases h
  | cons j is ih =>
      cases notes with
      | nil =>
          cases h
      | cons other notes =>
          rw [List.zip_cons_cons] at h
          cases hj : j.isCache with
          | true =>
              rw [Decode.plain_cons_of_isCache is hj, plainNotes_cons_of_isCache is other notes hj]
              rcases List.mem_cons.mp h with heq | h
              · obtain ⟨rfl, rfl⟩ := Prod.mk.inj heq
                rw [hcache] at hj
                cases hj
              · exact ih h
          | false =>
              rw [Decode.plain_cons_of_not_isCache is hj,
                plainNotes_cons_of_not_isCache is other notes hj, List.zip_cons_cons]
              rcases List.mem_cons.mp h with heq | h
              · exact heq ▸ List.mem_cons_self
              · exact List.mem_cons_of_mem _ (ih h)

theorem opcode_of_mem_cacheWords
    (opcode offset : Nat) (bytes : List UInt8) :
    ∀ i ∈ Decode.cacheWords opcode offset bytes, i.opcode = opcode := by
  fun_induction Decode.cacheWords opcode offset bytes with
  | case1 offset b content rest ih =>
      intro i hi
      rcases List.mem_cons.mp hi with rfl | hi
      · rfl
      · exact ih i hi
  | case2 =>
      simp

/-- A cache word has the opcode of cache words. -/
theorem opcode_of_isCache
    {env : Environment} {showCaches : Bool} {code : List UInt8} {i : Instruction}
    (h : i ∈ (decode t env showCaches code).instructions)
    (hcache : i.isCache = true) :
    i.opcode = Decode.cacheOpcode t := by
  obtain ⟨c, hi⟩ := Decode.exists_listedCaches t env h hcache
  cases showCaches with
  | false =>
      cases hi
  | true =>
      exact opcode_of_mem_cacheWords _ _ _ i hi

end Caches

section Decoding

/-- The rules of imports and of new functions. -/
def definitionRules : List FoldRule :=
  [.importName, .importFrom, .makeFunction, .makeFunctionOld]

variable {t : Table} {env : Environment} {code : List UInt8}

theorem demand_ne_none
    {rule : FoldRule}
    (h : rule ∉ definitionRules) :
    demand rule ≠ none := by
  cases rule with
  | importName | importFrom | makeFunction | makeFunctionOld =>
      simp [definitionRules] at h
  | _ =>
      simp [demand]

theorem clean_decode
    (hregular : Regular t)
    (hfaults : (decode t env false code).faults = [])
    (hnames : env.names.length < 0x4000000000000000)
    (hdefinitions : ∀ j ∈ (decode t env false code).instructions,
      ∀ rule ∈ ruleOf t j, rule ∉ definitionRules) :
    Clean t env (decode t env false code).instructions := by
  constructor
  case regular =>
    exact hregular
  case names =>
    exact hnames
  case plain =>
    intro j hj
    rw [← Decode.plain_decode t env false code] at hj
    simpa using (List.mem_filter.mp hj).2
  case fresh =>
    exact Decode.expression_decode t env false code
  case ascending =>
    exact Decode.pairwise_decode t env false code
  case faultless =>
    exact Decode.faultless_decode hfaults
  case short =>
    exact Decode.isChain_short_decode
  case values =>
    intro j hj rule hrule
    exact demand_ne_none (hdefinitions j hj rule hrule)

end Decoding

end Fold
end Disassembler
