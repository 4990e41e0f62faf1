import Disassembler.Disassembly.Basic
import Disassembler.Proofs.Derived
import Disassembler.Proofs.Room
import Mathlib.Data.List.Forall2
import Mathlib.Logic.Relation

/-!
# Nested code objects and their workers

The code objects among the constants of another one are disassembled by workers, if there are
several, which finish in any order.  Their results are put together in the order of the constants.

**Input.**  Any table, options and code object.

**Results.**
* `CodeObject.preorder` lists a code object and all that are nested in it, each before those inside
  it; it holds what can be reached through constants (`mem_preorder_iff`).
* `disassemble_eq_overflow_iff`: there is an overflow just if a code object that is reached has
  instructions whose operands there is no room for.
* `disassemble_eq_error_iff`: without one, the error is that of the first code object in this order
  that has one.
* `walk_of_disassemble`: the disassemblies are those of the single code objects, in this order.
* `Finishes` is a run with workers; `finishes_iff`: whatever the order in which they finish, the
  result is the same.
* `disassemble_nested`: all of this together.
-/

namespace Disassembler

section Preorder

mutual

/-- The code object and all that are nested in it, each before those inside it. -/
def CodeObject.preorder : CodeObject → List CodeObject
  | ⟨name, argcount, firstLine, code, consts, names, varnames, cellvars, freevars, lineTable,
      exceptionTable⟩ =>
    ⟨name, argcount, firstLine, code, consts, names, varnames, cellvars, freevars, lineTable,
      exceptionTable⟩ :: preorderAll consts

/-- The code objects among constants and all that are nested in them. -/
def CodeObject.preorderAll : List Constant → List CodeObject
  | [] => []
  | .code c :: rest => preorder c ++ preorderAll rest
  | _ :: rest => preorderAll rest

end

theorem Constant.eq_code_of_code?
    {k : Constant} {c : CodeObject}
    (h : k.code? = some c) :
    k = .code c := by
  unfold Constant.code? at h
  split at h
  · cases h
    rfl
  · cases h

theorem Constant.ne_code_of_code?
    {k : Constant}
    (h : k.code? = .none) (c : CodeObject) (hk : k = .code c) :
    False := by
  subst hk
  cases h

theorem CodeObject.preorderAll_eq
    (consts : List Constant) :
    preorderAll consts = (consts.filterMap Constant.code?).flatMap preorder := by
  induction consts with
  | nil =>
      rfl
  | cons k rest ih =>
      cases hk : k.code? with
      | some c =>
          rw [List.filterMap_cons_some hk, List.flatMap_cons, ← ih, Constant.eq_code_of_code? hk,
            preorderAll]
      | none =>
          rw [List.filterMap_cons_none hk, ← ih,
            preorderAll.eq_3 k rest (Constant.ne_code_of_code? hk)]

/-- A code object comes before those directly among its constants, with all inside them. -/
theorem CodeObject.preorder_eq
    (c : CodeObject) :
    c.preorder = c :: c.nested.flatMap preorder := by
  cases c
  rw [preorder, preorderAll_eq]
  rfl

/-- What holds of a code object whenever it holds of those directly among its constants holds of all
code objects. -/
theorem CodeObject.induction_nested
    {P : CodeObject → Prop}
    (h : ∀ c : CodeObject, (∀ k ∈ c.nested, P k) → P c) (c : CodeObject) :
    P c := by
  refine CodeObject.preorder.induct P (fun consts => ∀ k ∈ consts.filterMap Constant.code?, P k)
    ?whole ?nil ?code ?other c
  case whole =>
    intro name argcount firstLine code consts names varnames cellvars freevars lines table ih
    exact h _ ih
  case nil =>
    intro k hk
    cases hk
  case code =>
    intro c rest hc hrest k hk
    have hcons : k ∈ c :: rest.filterMap Constant.code? := hk
    rcases List.mem_cons.mp hcons with rfl | hk
    · exact hc
    · exact hrest k hk
  case other =>
    intro k rest hcode hrest
    cases hk : k.code? with
    | some c =>
        exact absurd (Constant.eq_code_of_code? hk) (hcode c)
    | none =>
        rw [List.filterMap_cons_none hk]
        exact hrest

/-- One code object is directly among the constants of the other. -/
def Nests (c k : CodeObject) : Prop :=
  k ∈ c.nested

/-- The order lists the code objects that can be reached through constants. -/
theorem mem_preorder_iff
    {c k : CodeObject} :
    k ∈ c.preorder ↔ Relation.ReflTransGen Nests c k := by
  induction c using CodeObject.induction_nested with
  | h c ih =>
      rw [CodeObject.preorder_eq, List.mem_cons, List.mem_flatMap,
        Relation.ReflTransGen.cases_head_iff]
      constructor
      · rintro (rfl | ⟨m, hm, hk⟩)
        · exact Or.inl rfl
        · exact Or.inr ⟨m, hm, (ih m hm).mp hk⟩
      · rintro (rfl | ⟨m, hm, hk⟩)
        · exact Or.inl rfl
        · exact Or.inr ⟨m, hm, (ih m hm).mpr hk⟩

theorem Disassembly.walk_eq
    (d : Disassembly) :
    d.walk = d :: d.children.flatMap walk := by
  have hall : ∀ ds : List Disassembly, walkAll ds = ds.flatMap walk := by
    intro ds
    induction ds with
    | nil =>
        rfl
    | cons d rest ih =>
        rw [walkAll, ih, List.flatMap_cons]
  cases d
  rw [walk, hall]

end Preorder

section Sequence

variable {first : Except Failure Disassembly} {more : Except Failure (List Disassembly)}

theorem consResult_eq_ok_iff
    {ds : List Disassembly} :
    consResult first more = .ok ds ↔ ∃ d ds', first = .ok d ∧ more = .ok ds' ∧ d :: ds' = ds := by
  rcases first with (_ | _) | _ <;> rcases more with (_ | _) | _ <;> simp [consResult]

theorem consResult_eq_overflow_iff :
    consResult first more = .error .overflow ↔
      first = .error .overflow ∨ more = .error .overflow := by
  rcases first with (_ | _) | _ <;> rcases more with (_ | _) | _ <;> simp [consResult]

/-- Without an overflow the first error counts. -/
theorem consResult_eq_error_iff
    {e : Error}
    (hfirst : first ≠ .error .overflow)
    (hmore : more ≠ .error .overflow) :
    consResult first more = .error (.error e) ↔
      first = .error (.error e) ∨ ((∃ d, first = .ok d) ∧ more = .error (.error e)) := by
  revert hfirst hmore
  rcases first with (_ | _) | _ <;> rcases more with (_ | _) | _ <;> simp [consResult]

/-- The disassemblies among results, or why there are none. -/
def collect : List (Except Failure Disassembly) → Except Failure (List Disassembly)
  | [] => .ok []
  | r :: rest => consResult r (collect rest)

variable {results : List (Except Failure Disassembly)}

theorem collect_eq_ok_iff
    {ds : List Disassembly} :
    collect results = .ok ds ↔ results = ds.map Except.ok := by
  induction results generalizing ds with
  | nil =>
      cases ds <;> simp [collect]
  | cons r rest ih =>
      rw [collect, consResult_eq_ok_iff]
      cases ds <;> simp [ih]

theorem collect_eq_overflow_iff :
    collect results = .error .overflow ↔ .error .overflow ∈ results := by
  induction results with
  | nil =>
      simp [collect]
  | cons r rest ih =>
      rw [collect, consResult_eq_overflow_iff, ih, List.mem_cons, eq_comm]

theorem map_collect_singleton
    (d : Disassembly) (r : Except Failure Disassembly) :
    ((collect [r]).map fun children => { d with children := children }) =
      r.map fun child => { d with children := [child] } := by
  rcases r with (_ | _) | _ <;> rfl

variable (t : Table) (options : Options)

theorem disassembleNested_eq
    (consts : List Constant) :
    disassembleNested t options consts =
      collect ((consts.filterMap Constant.code?).map (disassemble t options)) := by
  induction consts with
  | nil =>
      rfl
  | cons k rest ih =>
      cases hk : k.code? with
      | some c =>
          rw [List.filterMap_cons_some hk, List.map_cons, Constant.eq_code_of_code? hk,
            disassembleNested, ih]
          rfl
      | none =>
          rw [List.filterMap_cons_none hk, ← ih,
            disassembleNested.eq_3 t options k rest (Constant.ne_code_of_code? hk)]

/-- A code object is disassembled alone, and then those directly among its constants. -/
theorem disassemble_eq
    (c : CodeObject) :
    disassemble t options c =
      match disassembleAlone t options c with
      | .error e => .error e
      | .ok d =>
        (collect (c.nested.map (disassemble t options))).map fun children =>
          { d with children := children } := by
  cases c
  rw [disassemble, disassembleNested_eq]
  cases disassembleAlone t options _ with
  | error e =>
      rfl
  | ok d =>
      dsimp only [CodeObject.nested]
      cases collect _ <;> rfl

/-- The error of a code object alone: its line table or its exception table cannot be read. -/
def failureOf (c : CodeObject) : Option Error :=
  match Environment.ofCode c t.settings options.dupLines with
  | .error e => some e
  | .ok _ => none

/-- The tables of a code object can be read, expressions are put together, and there is no room for
the operands of one of its instructions. -/
def Crowded (c : CodeObject) : Prop :=
  options.extended = true ∧
    ∃ env, Environment.ofCode c t.settings options.dupLines = .ok env ∧
      annotate? t (decode t env options.showCaches c.code).instructions = none

/-- There is room for the operands of all instructions of a code object. -/
def Roomy (c : CodeObject) : Prop :=
  ∀ env, Environment.ofCode c t.settings options.dupLines = .ok env →
    ∀ i ∈ (decode t env options.showCaches c.code).instructions, Fold.HasRoom t i

/-- One code object is directly among the constants of the other, whose tables can be read. -/
def Opens (c k : CodeObject) : Prop :=
  k ∈ c.nested ∧ ∃ env, Environment.ofCode c t.settings options.dupLines = .ok env

/-- A disassembly, children aside, is the decoding and the annotation of a code object alone. -/
structure AloneIs (d : Disassembly) (c : CodeObject) : Prop where
  name : d.name = c.name
  table : d.table = t.key
  code : d.code = c.code
  decoded : ∃ env, Environment.ofCode c t.settings options.dupLines = .ok env ∧
    d.exceptionEntries = env.exceptionEntries ∧
    d.faults = (decode t env options.showCaches c.code).faults ∧
    if options.extended then
      annotate? t (decode t env options.showCaches c.code).instructions = some d.notes ∧
        d.instructions = applyNotes (decode t env options.showCaches c.code).instructions d.notes
    else
      d.notes = [] ∧ d.instructions = (decode t env options.showCaches c.code).instructions

variable {t options} {c : CodeObject} {d : Disassembly} {e : Error}

theorem Roomy.not_crowded
    (h : Roomy t options c) :
    ¬ Crowded t options c := by
  rintro ⟨_, env, henv, hnone⟩
  rw [Fold.annotate?_of_hasRoom (h env henv)] at hnone
  cases hnone

/-- All operands of a code object are small. -/
def isRoomy (t : Table) (options : Options) (c : CodeObject) : Bool :=
  (Environment.ofCode c t.settings options.dupLines).toOption.all fun env =>
    (decode t env options.showCaches c.code).instructions.all Fold.isSmall

theorem roomy_of_isRoomy
    (h : isRoomy t options c = true) :
    Roomy t options c := by
  intro env henv
  rw [isRoomy, henv, Except.toOption, Option.all_some] at h
  exact Fold.forall_hasRoom_of_isSmall h

theorem failureOf_eq_some_iff :
    failureOf t options c = some e ↔
      Environment.ofCode c t.settings options.dupLines = .error e := by
  unfold failureOf
  cases Environment.ofCode c t.settings options.dupLines <;> simp

theorem disassembleAlone_eq_error_iff :
    disassembleAlone t options c = .error (.error e) ↔ failureOf t options c = some e := by
  rw [failureOf_eq_some_iff]
  unfold disassembleAlone
  cases Environment.ofCode c t.settings options.dupLines with
  | error e' =>
      simp
  | ok env =>
      dsimp only
      cases notesFor t options _ <;> simp

theorem notesFor_eq_none_iff
    {instructions : List Instruction} :
    notesFor t options instructions = none ↔
      options.extended = true ∧ annotate? t instructions = none := by
  unfold notesFor
  cases options.extended <;> simp

theorem disassembleAlone_eq_overflow_iff :
    disassembleAlone t options c = .error .overflow ↔ Crowded t options c := by
  unfold disassembleAlone Crowded
  cases Environment.ofCode c t.settings options.dupLines with
  | error e =>
      simp
  | ok env =>
      simp only [Except.ok.injEq, exists_eq_left', ← notesFor_eq_none_iff]
      cases notesFor t options _ <;> simp

theorem exists_env_of_disassembleAlone
    (h : disassembleAlone t options c = .ok d) :
    ∃ env, Environment.ofCode c t.settings options.dupLines = .ok env := by
  unfold disassembleAlone at h
  split at h
  · cases h
  · rename_i env henv
    exact ⟨env, henv⟩

theorem aloneIs_of_disassembleAlone
    (h : disassembleAlone t options c = .ok d) (children : List Disassembly) :
    AloneIs t options { d with children := children } c := by
  unfold disassembleAlone at h
  split at h
  · cases h
  · rename_i env henv
    dsimp only at h
    split at h
    · cases h
    · rename_i notes hnotes
      cases h
      refine ⟨rfl, rfl, rfl, env, henv, rfl, rfl, ?_⟩
      unfold notesFor at hnotes
      cases hextended : options.extended with
      | false =>
          simp only [hextended, Bool.false_eq_true, if_false, Option.some.injEq] at hnotes ⊢
          exact ⟨hnotes.symm, trivial⟩
      | true =>
          simp only [hextended, if_true] at hnotes ⊢
          exact ⟨hnotes, trivial⟩

/-- What holds of a code object or of one that it leads to holds of one that is reached from it. -/
theorem exists_reached_iff
    {R : CodeObject → CodeObject → Prop} {P : CodeObject → Prop} (c : CodeObject) :
    (∃ k, Relation.ReflTransGen R c k ∧ P k) ↔
      P c ∨ ∃ m, R c m ∧ ∃ k, Relation.ReflTransGen R m k ∧ P k := by
  constructor
  · rintro ⟨k, hreached, hk⟩
    rcases Relation.ReflTransGen.cases_head hreached with rfl | ⟨m, hm, hrest⟩
    · exact Or.inl hk
    · exact Or.inr ⟨m, hm, k, hrest, hk⟩
  · rintro (hc | ⟨m, hm, k, hreached, hk⟩)
    · exact ⟨c, .refl, hc⟩
    · exact ⟨k, .head hm hreached, hk⟩

/-- There is an overflow just if there is no room for the operands of a code object that is reached
through others whose tables can be read. -/
theorem disassemble_eq_overflow_iff
    (c : CodeObject) :
    disassemble t options c = .error .overflow ↔
      ∃ k, Relation.ReflTransGen (Opens t options) c k ∧ Crowded t options k := by
  induction c using CodeObject.induction_nested with
  | h c ih =>
      rw [disassemble_eq, exists_reached_iff, ← disassembleAlone_eq_overflow_iff]
      cases halone : disassembleAlone t options c with
      | error failure =>
          cases failure with
          | overflow =>
              simp
          | error e =>
              have hclosed : ∀ m, ¬ Opens t options c m := by
                rintro m ⟨_, env, henv⟩
                rw [disassembleAlone_eq_error_iff, failureOf_eq_some_iff, henv] at halone
                cases halone
              simp [hclosed]
      | ok d =>
          have henv := exists_env_of_disassembleAlone halone
          have hnested : collect (c.nested.map (disassemble t options)) = .error .overflow ↔
              ∃ m, Opens t options c m ∧
                ∃ k, Relation.ReflTransGen (Opens t options) m k ∧ Crowded t options k := by
            rw [collect_eq_overflow_iff, List.mem_map]
            constructor
            · rintro ⟨m, hm, hoverflow⟩
              exact ⟨m, ⟨hm, henv⟩, (ih m hm).mp hoverflow⟩
            · rintro ⟨m, ⟨hm, _⟩, hreached⟩
              exact ⟨m, hm, (ih m hm).mpr hreached⟩
          rw [← hnested]
          cases collect (c.nested.map (disassemble t options)) <;> simp [Except.map]

/-- The error of a sequence of code objects without an overflow is the first one in the order of all
inside them. -/
theorem collect_eq_error_iff
    {ks : List CodeObject}
    (hroom : ∀ k ∈ ks, disassemble t options k ≠ .error .overflow)
    (h : ∀ k ∈ ks, ∀ e, disassemble t options k = .error (.error e) ↔
      k.preorder.findSome? (failureOf t options) = some e)
    (e : Error) :
    collect (ks.map (disassemble t options)) = .error (.error e) ↔
      (ks.flatMap CodeObject.preorder).findSome? (failureOf t options) = some e := by
  induction ks with
  | nil =>
      simp [collect]
  | cons k rest ih =>
      rw [List.forall_mem_cons] at hroom h
      have hmore : collect (rest.map (disassemble t options)) ≠ .error .overflow := by
        rw [ne_eq, collect_eq_overflow_iff, List.mem_map]
        rintro ⟨m, hm, hoverflow⟩
        exact hroom.2 m hm hoverflow
      rw [List.map_cons, collect, consResult_eq_error_iff hroom.1 hmore, ih hroom.2 h.2, h.1,
        List.flatMap_cons, List.findSome?_append]
      cases hfirst : k.preorder.findSome? (failureOf t options) with
      | some e' =>
          have hd := (h.1 e').mpr hfirst
          simp [hd]
      | none =>
          have hok : ∃ d, disassemble t options k = .ok d := by
            rcases hd : disassemble t options k with (e' | _) | d
            · rw [h.1, hfirst] at hd
              cases hd
            · exact absurd hd hroom.1
            · exact ⟨d, rfl⟩
          simp [hok]

/-- Without an overflow, the error of a disassembly is that of the first code object that has
one. -/
theorem disassemble_eq_error_iff
    (c : CodeObject)
    (hroom : disassemble t options c ≠ .error .overflow)
    (e : Error) :
    disassemble t options c = .error (.error e) ↔
      c.preorder.findSome? (failureOf t options) = some e := by
  induction c using CodeObject.induction_nested generalizing e with
  | h c ih =>
      rw [disassemble_eq] at hroom
      rw [disassemble_eq, CodeObject.preorder_eq, List.findSome?_cons]
      cases halone : disassembleAlone t options c with
      | error failure =>
          cases failure with
          | overflow =>
              rw [halone] at hroom
              exact absurd rfl hroom
          | error e' =>
              rw [disassembleAlone_eq_error_iff.mp halone]
              simp
      | ok d =>
          rw [halone] at hroom
          have hnone : failureOf t options c = none := by
            rw [Option.eq_none_iff_forall_ne_some]
            intro e' he'
            rw [← disassembleAlone_eq_error_iff, halone] at he'
            cases he'
          have hnested : ∀ k ∈ c.nested, disassemble t options k ≠ .error .overflow := by
            intro k hk hoverflow
            have hmem : .error .overflow ∈ c.nested.map (disassemble t options) :=
              List.mem_map.mpr ⟨k, hk, hoverflow⟩
            rw [← collect_eq_overflow_iff] at hmem
            rw [hmem] at hroom
            exact hroom rfl
          rw [hnone, ← collect_eq_error_iff hnested (fun k hk => ih k hk (hnested k hk))]
          cases collect (c.nested.map (disassemble t options)) <;> simp [Except.map]

theorem walk_of_collect
    {ks : List CodeObject} {ds : List Disassembly}
    (h : ∀ k ∈ ks, ∀ d, disassemble t options k = .ok d →
      List.Forall₂ (AloneIs t options) d.walk k.preorder)
    (hall : ks.map (disassemble t options) = ds.map Except.ok) :
    List.Forall₂ (AloneIs t options) (ds.flatMap Disassembly.walk)
      (ks.flatMap CodeObject.preorder) := by
  induction ks generalizing ds with
  | nil =>
      rw [List.map_nil, eq_comm, List.map_eq_nil_iff] at hall
      subst hall
      exact List.Forall₂.nil
  | cons k rest ih =>
      obtain ⟨d, ds, rfl, hd, hds⟩ := List.map_eq_cons_iff.mp hall.symm
      rw [List.flatMap_cons, List.flatMap_cons]
      exact List.rel_append (h k List.mem_cons_self d hd.symm)
        (ih (fun m hm => h m (List.mem_cons_of_mem k hm)) hds.symm)

/-- The disassemblies are those of the single code objects, in the same order. -/
theorem walk_of_disassemble
    {c : CodeObject} {d : Disassembly}
    (h : disassemble t options c = .ok d) :
    List.Forall₂ (AloneIs t options) d.walk c.preorder := by
  induction c using CodeObject.induction_nested generalizing d with
  | h c ih =>
      rw [disassemble_eq] at h
      cases halone : disassembleAlone t options c with
      | error e =>
          rw [halone] at h
          cases h
      | ok alone =>
          rw [halone] at h
          cases hall : collect (c.nested.map (disassemble t options)) with
          | error e =>
              rw [hall] at h
              cases h
          | ok children =>
              rw [hall] at h
              cases h
              rw [Disassembly.walk_eq, CodeObject.preorder_eq]
              exact List.Forall₂.cons (aloneIs_of_disassembleAlone halone children)
                (walk_of_collect (fun k hk d => ih k hk) (collect_eq_ok_iff.mp hall))

end Sequence

section Workers

mutual

/-- Disassembling a code object can finish with a result, where several code objects among the
constants are left to workers. -/
inductive Finishes (t : Table) (options : Options) :
    CodeObject → Except Failure Disassembly → Prop
  | fails {c : CodeObject} {e : Failure}
      (halone : disassembleAlone t options c = .error e) :
      Finishes t options c (.error e)
  | childless {c : CodeObject} {d : Disassembly}
      (halone : disassembleAlone t options c = .ok d)
      (hnested : c.nested = []) :
      Finishes t options c (.ok { d with children := [] })
  | single {c k : CodeObject} {d : Disassembly} {r : Except Failure Disassembly}
      (halone : disassembleAlone t options c = .ok d)
      (hnested : c.nested = [k])
      (hchild : Finishes t options k r) :
      Finishes t options c (r.map fun child => { d with children := [child] })
  | several {c : CodeObject} {d : Disassembly} {results : List (Except Failure Disassembly)}
      (halone : disassembleAlone t options c = .ok d)
      (hnested : 2 ≤ c.nested.length)
      (hworkers : Working t options c.nested (results.map some)) :
      Finishes t options c
        ((collect results).map fun children => { d with children := children })

/-- The slots of the workers for some code objects, of which some have finished. -/
inductive Working (t : Table) (options : Options) :
    List CodeObject → List (Option (Except Failure Disassembly)) → Prop
  | start (ks : List CodeObject) :
      Working t options ks (List.replicate ks.length none)
  | finish {ks : List CodeObject} {slots : List (Option (Except Failure Disassembly))}
      {k : CodeObject} {r : Except Failure Disassembly} (worker : Nat)
      (hworking : Working t options ks slots)
      (hk : ks[worker]? = some k)
      (hbusy : slots[worker]? = some none)
      (hresult : Finishes t options k r) :
      Working t options ks (slots.set worker (some r))

end

variable {t : Table} {options : Options}

/-- The slot is empty, or holds the disassembly of the code object. -/
def SlotOf (t : Table) (options : Options) (k : CodeObject)
    (slot : Option (Except Failure Disassembly)) : Prop :=
  slot = none ∨ slot = some (disassemble t options k)

theorem slotOf_start
    (ks : List CodeObject) :
    List.Forall₂ (SlotOf t options) ks (List.replicate ks.length none) := by
  induction ks with
  | nil =>
      exact List.Forall₂.nil
  | cons k rest ih =>
      exact List.Forall₂.cons (Or.inl rfl) ih

/-- A worker writes into its own slot only. -/
theorem slotOf_set
    {ks : List CodeObject} {slots : List (Option (Except Failure Disassembly))} {k : CodeObject}
    {worker : Nat}
    (h : List.Forall₂ (SlotOf t options) ks slots)
    (hk : ks[worker]? = some k) :
    List.Forall₂ (SlotOf t options) ks (slots.set worker (some (disassemble t options k))) := by
  induction h generalizing worker with
  | nil =>
      exact List.Forall₂.nil
  | cons hslot hrest ih =>
      cases worker with
      | zero =>
          rw [List.getElem?_cons_zero, Option.some.injEq] at hk
          subst hk
          exact List.Forall₂.cons (Or.inr rfl) hrest
      | succ worker =>
          exact List.Forall₂.cons hslot (ih hk)

theorem results_eq_of_slotOf
    {ks : List CodeObject} {results : List (Except Failure Disassembly)}
    (h : List.Forall₂ (SlotOf t options) ks (results.map some)) :
    results = ks.map (disassemble t options) := by
  induction ks generalizing results with
  | nil =>
      cases results with
      | nil => rfl
      | cons r rest => cases h
  | cons k ks ih =>
      cases results with
      | nil => cases h
      | cons r rest =>
          obtain ⟨hslot, hrest⟩ := List.forall₂_cons.mp h
          have hr : r = disassemble t options k := by
            simpa [SlotOf] using hslot
          rw [List.map_cons, hr, ih hrest]

mutual

/-- Workers give what is found without them. -/
theorem Finishes.eq_disassemble
    {c : CodeObject} {r : Except Failure Disassembly} :
    Finishes t options c r → r = disassemble t options c
  | .fails halone => by
      rw [disassemble_eq, halone]
  | .childless halone hnested => by
      rw [disassemble_eq, halone, hnested]
      rfl
  | .single halone hnested hchild => by
      rw [disassemble_eq, halone, hnested, List.map_singleton, ← hchild.eq_disassemble]
      exact (map_collect_singleton _ _).symm
  | .several halone _ hworking => by
      rw [disassemble_eq, halone, ← results_eq_of_slotOf hworking.slotOf]

/-- What has been left in a slot is the disassembly of the code object of its worker. -/
theorem Working.slotOf
    {ks : List CodeObject} {slots : List (Option (Except Failure Disassembly))} :
    Working t options ks slots → List.Forall₂ (SlotOf t options) ks slots
  | .start ks =>
      slotOf_start ks
  | .finish worker hworking hk _ hresult => by
      rw [hresult.eq_disassemble]
      exact slotOf_set hworking.slotOf hk

end

/-- Workers can finish one after the other. -/
theorem working_all
    {ks : List CodeObject}
    (h : ∀ k ∈ ks, Finishes t options k (disassemble t options k))
    (done todo : List CodeObject) (hks : ks = done ++ todo)
    (hworking : Working t options ks
      (done.map (fun k => some (disassemble t options k)) ++ List.replicate todo.length none)) :
    Working t options ks (ks.map fun k => some (disassemble t options k)) := by
  induction todo generalizing done with
  | nil =>
      rw [List.append_nil] at hks
      subst hks
      simpa using hworking
  | cons k todo ih =>
      apply ih (done ++ [k]) (by simp [hks])
      have hk : ks[done.length]? = some k := by
        simp [hks]
      have hnext := Working.finish done.length hworking hk (by simp)
        (h k (List.mem_of_getElem? hk))
      simpa [List.replicate_succ] using hnext

/-- A run with workers can finish with what is found without them. -/
theorem finishes_disassemble
    (c : CodeObject) :
    Finishes t options c (disassemble t options c) := by
  induction c using CodeObject.induction_nested with
  | h c ih =>
      rw [disassemble_eq]
      cases halone : disassembleAlone t options c with
      | error e =>
          exact .fails halone
      | ok d =>
          dsimp only
          rcases hnested : c.nested with _ | ⟨k, _ | ⟨k', rest⟩⟩
          · exact .childless halone hnested
          · rw [List.map_singleton, map_collect_singleton]
            exact .single halone hnested (ih k (by simp [hnested]))
          · rw [← hnested]
            refine .several halone (by simp [hnested]) ?_
            rw [List.map_map]
            exact working_all ih [] c.nested rfl (.start c.nested)

/-- Whatever the order in which workers finish, the result is the same. -/
theorem finishes_iff
    {c : CodeObject} {r : Except Failure Disassembly} :
    Finishes t options c r ↔ r = disassemble t options c := by
  constructor
  · exact Finishes.eq_disassemble
  · rintro rfl
    exact finishes_disassemble c

variable (t options)

/-- A disassembly with workers is the one without them.  With room for all operands there is no
overflow; there is one just if the operands of a code object that is reached are too many.  Without
an overflow it fails exactly when the tables of a code object that can be reached through constants
cannot be read, with the error of the first such code object, each coming before those inside it.
When it succeeds, it lists the decodings and annotations of the single code objects in this
order. -/
theorem disassemble_nested
    (c : CodeObject) :
    (∀ r, Finishes t options c r ↔ r = disassemble t options c) ∧
    (disassemble t options c = .error .overflow ↔
      ∃ k, Relation.ReflTransGen (Opens t options) c k ∧ Crowded t options k) ∧
    ((∀ k, Relation.ReflTransGen Nests c k → Roomy t options k) →
      disassemble t options c ≠ .error .overflow) ∧
    (disassemble t options c ≠ .error .overflow →
      ((∃ failure, disassemble t options c = .error failure) ↔
        ∃ k, Relation.ReflTransGen Nests c k ∧
          ∃ e, Environment.ofCode k t.settings options.dupLines = .error e) ∧
      ∀ e, disassemble t options c = .error (.error e) ↔
        c.preorder.findSome? (failureOf t options) = some e) ∧
    (∀ d, disassemble t options c = .ok d →
      List.Forall₂ (AloneIs t options) d.walk c.preorder) := by
  refine ⟨fun r => finishes_iff, disassemble_eq_overflow_iff c, ?_, ?_,
    fun d => walk_of_disassemble⟩
  · intro hroomy
    rw [ne_eq, disassemble_eq_overflow_iff]
    rintro ⟨k, hreached, hcrowded⟩
    have hnests : Relation.ReflTransGen Nests c k :=
      Relation.ReflTransGen.mono (fun _ _ h => h.1) c k hreached
    exact (hroomy k hnests).not_crowded hcrowded
  · intro hroom
    refine ⟨?_, disassemble_eq_error_iff c hroom⟩
    have hfails : (∃ failure, disassemble t options c = .error failure) ↔
        ∃ e, disassemble t options c = .error (.error e) := by
      constructor
      · rintro ⟨e | _, hfailure⟩
        · exact ⟨e, hfailure⟩
        · exact absurd hfailure hroom
      · rintro ⟨e, he⟩
        exact ⟨_, he⟩
    simp only [hfails, disassemble_eq_error_iff c hroom, ← mem_preorder_iff,
      ← failureOf_eq_some_iff, ← Option.isSome_iff_exists, List.findSome?_isSome_iff]

end Workers

section Sample

/-- Two code objects among the constants of another one; the first has a further one inside. -/
def sampleFamily (inner second : List UInt8) : CodeObject where
  name := "outer"
  code := [101, 0, 101, 1, 23, 0]
  names := ["a", "b"]
  consts :=
    [.code { name := "first", code := [101, 0, 83, 0], names := ["a"]
             consts := [.none, .code { name := "inner", code := [1, 0, 9], lineTable := inner }] },
      .code { name := "second", code := [103, 0], lineTable := second }]

/-- Of two line tables of an odd length, the one further inside is reported, since it comes first;
with none, there are four disassemblies, of which that of the innermost code object has faults. -/
theorem disassemble_nested_sampleFamily :
    (Finishes .sample { extended := true } (sampleFamily [0, 0, 0] [0])
        (.error (.error (.lineTable 2))) ∧
      disassemble .sample { extended := true } (sampleFamily [0, 0, 0] [0]) =
        .error (.error (.lineTable 2))) ∧
    ∃ d, disassemble .sample { extended := true } (sampleFamily [] []) = .ok d ∧
      List.Forall₂ (AloneIs .sample { extended := true }) d.walk (sampleFamily [] []).preorder ∧
      d.walk.map (fun e => (e.name, e.faults.length, e.notes.map Note.expression)) =
        [("outer", 0, [some "a", some "b", some "a + b"]), ("first", 0, [some "a", some "return a"]),
          ("inner", 2, [none]), ("second", 0, [some "[]"])] := by
  have hbroken := disassemble_nested .sample { extended := true } (sampleFamily [0, 0, 0] [0])
  have hsound := disassemble_nested .sample { extended := true } (sampleFamily [] [])
  have hroom : disassemble .sample { extended := true } (sampleFamily [0, 0, 0] [0]) ≠
      .error .overflow := by
    apply hbroken.2.2.1
    intro k hk
    rw [← mem_preorder_iff] at hk
    have hall : (sampleFamily [0, 0, 0] [0]).preorder.all (isRoomy .sample { extended := true }) =
        true := by
      decide +kernel
    exact roomy_of_isRoomy (List.all_eq_true.mp hall k hk)
  have herror : disassemble .sample { extended := true } (sampleFamily [0, 0, 0] [0]) =
      .error (.error (.lineTable 2)) :=
    ((hbroken.2.2.2.1 hroom).2 _).mpr (by decide +kernel)
  refine ⟨⟨(hbroken.1 _).mpr herror.symm, herror⟩, ?_⟩
  have hlisted : (disassemble .sample { extended := true } (sampleFamily [] [])).toOption.map
      (fun d => d.walk.map fun e => (e.name, e.faults.length, e.notes.map Note.expression)) =
      some [("outer", 0, [some "a", some "b", some "a + b"]),
        ("first", 0, [some "a", some "return a"]), ("inner", 2, [none]),
        ("second", 0, [some "[]"])] := by
    decide +kernel
  cases hd : disassemble .sample { extended := true } (sampleFamily [] []) with
  | error failure =>
      rw [hd] at hlisted
      cases hlisted
  | ok d =>
      rw [hd] at hlisted
      exact ⟨d, rfl, hsound.2.2.2.2 d hd, Option.some.inj hlisted⟩

/-- A map of `2 ^ 62` pairs, and nothing else. -/
def crowdedMap : CodeObject where
  name := "crowded"
  code := [144, 64, 144, 0, 144, 0, 144, 0, 144, 0, 144, 0, 144, 0, 105, 0]

/-- The tables of the sample can be read, but there is no room for the values of its map. -/
theorem disassemble_crowdedMap :
    crowdedMap.preorder.findSome? (failureOf .sample { extended := true }) = none ∧
    disassemble .sample { extended := true } crowdedMap = .error .overflow := by
  have hread : (Environment.ofCode crowdedMap Table.sample.settings false).toOption.any
      (fun env =>
        (annotate? .sample (decode .sample env false crowdedMap.code).instructions).isNone) =
      true := by
    decide +kernel
  refine ⟨by decide +kernel, (disassemble_eq_overflow_iff _).mpr ⟨_, .refl, rfl, ?_⟩⟩
  cases henv : Environment.ofCode crowdedMap Table.sample.settings false with
  | error e =>
      rw [henv] at hread
      cases hread
  | ok env =>
      rw [henv] at hread
      exact ⟨env, rfl, Option.isNone_iff_eq_none.mp hread⟩

end Sample
end Disassembler
