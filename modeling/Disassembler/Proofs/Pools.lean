import Disassembler.Proofs.Derived
import Disassembler.Proofs.Jumps

/-!
# Decoding against any pools

Operands are looked up in pools that may be too short, and lines and handlers come from tables that
may be damaged.  What an instruction is and where it stands does not depend on any of them.

**Input.**  Any table and bytecode, with cache words listed or not, and two environments that need
have nothing in common.

**Results.**
* `resolve_outside`: where an operand leads to, and what is wrong with it outside the pools, is the
  same against every environment.
* `step_outside`: two steps from the same carry agree in shape, in faults outside the pools, and in
  what they hand on.
* `decodeChunks_outside`: hence so do the instructions of any chunks.
* `decode_outside`: two listings agree in shape and in the faults outside the pools; where the
  handlers start at the same offsets, they agree in the marks.
-/

namespace Disassembler

/-- What of an instruction the environment has no part in. -/
structure Shape where
  offset : Nat
  opcode : Nat
  opname : String
  arg : Option Nat
  hasArg : Bool
  hasExtendedArg : Bool
  size : Nat
  isCache : Bool
  stackEffect : Option Int
  jumpTarget : Option Nat
deriving DecidableEq, Repr

def Instruction.shape (i : Instruction) : Shape where
  offset := i.offset
  opcode := i.opcode
  opname := i.opname
  arg := i.arg
  hasArg := i.hasArg
  hasExtendedArg := i.hasExtendedArg
  size := i.size
  isCache := i.isCache
  stackEffect := i.stackEffect
  jumpTarget := i.jumpTarget

/-- Whether a problem is other than that an operand indexes nothing. -/
def Malformed.outside : Malformed → Bool
  | .indexOutOfRange .. => false
  | .unknownOpcode _ => true
  | .truncated .. => true
  | .operandOverflow => true
  | .jumpOutOfRange => true

namespace Decode

section Resolution

/-- Where a resolved operand leads to. -/
def leadsTo : Except Malformed Resolved → Option Nat
  | .ok ⟨.target o, _, .jumpRel⟩ => some o
  | .ok ⟨.target o, _, .jumpAbs⟩ => some o
  | _ => none

/-- What is wrong with an operand, other than that it indexes nothing. -/
def outsideProblems : Except Malformed Resolved → List Malformed
  | .ok _ => []
  | .error p => [p].filter Malformed.outside

/-- A result that is an entry of a pool, or that there is none. -/
inductive FromPool : Except Malformed Resolved → Prop
  | found {r : Resolved}
      (hvalue : ∀ o, r.value ≠ .target o) :
      FromPool (.ok r)
  | missing (pool : Pool) (index length : Nat) :
      FromPool (.error (.indexOutOfRange pool index length))

theorem FromPool.outside
    {r : Except Malformed Resolved}
    (h : FromPool r) :
    leadsTo r = none ∧ outsideProblems r = [] := by
  cases h with
  | found hvalue =>
      refine ⟨?_, rfl⟩
      unfold leadsTo
      split
      · rename_i heq
        cases heq
        exact absurd rfl (hvalue _)
      · rename_i heq
        cases heq
        exact absurd rfl (hvalue _)
      · rfl
  | missing pool index length =>
      exact ⟨rfl, rfl⟩

theorem fromPool_resolveConst
    (env : Environment) (a : Nat) :
    FromPool (resolveConst env a) := by
  unfold resolveConst entry
  cases env.consts[a]? with
  | none =>
      exact .missing _ _ _
  | some c =>
      exact .found (by simp)

theorem fromPool_resolveName
    (env : Environment) (encoding : OperandEncoding) (a : Nat) :
    FromPool (resolveName env encoding a) := by
  simp only [resolveName, entry]
  cases env.names[(nameIndex encoding a).1]? with
  | none =>
      exact .missing _ _ _
  | some name =>
      exact .found (by simp)

theorem fromPool_resolveVariable
    (pool : Pool) (kind : OperandKind) (items : List String) (encoding : OperandEncoding)
    (a : Nat) :
    FromPool (resolveVariable pool kind items encoding a) := by
  unfold resolveVariable entry
  split
  · cases items[a / 16]? with
    | none =>
        exact .missing _ _ _
    | some first =>
        cases items[a % 16]? with
        | none =>
            exact .missing _ _ _
        | some second =>
            exact .found (by simp)
  · cases items[a]? with
    | none =>
        exact .missing _ _ _
    | some name =>
        exact .found (by simp)

/-- Two environments resolve an operand in the same way, or both look it up in a pool. -/
theorem resolve_cases
    (t : Table) (env env' : Environment) (info : OpInfo) (opcode a next : Nat) :
    resolve t env info opcode a next = resolve t env' info opcode a next ∨
      FromPool (resolve t env info opcode a next) ∧
        FromPool (resolve t env' info opcode a next) := by
  unfold resolve
  split
  · exact .inr ⟨fromPool_resolveConst env a, fromPool_resolveConst env' a⟩
  · split
    · exact .inr ⟨fromPool_resolveName env _ a, fromPool_resolveName env' _ a⟩
    · split
      · exact .inr ⟨fromPool_resolveVariable _ _ _ _ a, fromPool_resolveVariable _ _ _ _ a⟩
      · split
        · exact .inr ⟨fromPool_resolveVariable _ _ _ _ a, fromPool_resolveVariable _ _ _ _ a⟩
        · exact .inl rfl

/-- An operand leads to the same place, or has the same fault outside the pools. -/
theorem resolve_outside
    (t : Table) (env env' : Environment) (info : OpInfo) (opcode a next : Nat) :
    leadsTo (resolve t env info opcode a next) = leadsTo (resolve t env' info opcode a next) ∧
    outsideProblems (resolve t env info opcode a next) =
      outsideProblems (resolve t env' info opcode a next) := by
  rcases resolve_cases t env env' info opcode a next with h | ⟨h, h'⟩
  · rw [h]
    exact ⟨rfl, rfl⟩
  · rw [h.outside.1, h'.outside.1, h.outside.2, h'.outside.2]
    exact ⟨rfl, rfl⟩

theorem shape_withOperand
    (i : Instruction) (a : Nat) (r : Except Malformed Resolved) :
    (withOperand i a r).1.shape =
      { i.shape with arg := some a, hasArg := true, jumpTarget := leadsTo r } := by
  cases r with
  | error p =>
      rfl
  | ok r =>
      obtain ⟨value, repr, kind⟩ := r
      cases kind <;> cases value <;> rfl

theorem outside_withOperand
    (i : Instruction) (a : Nat) (r : Except Malformed Resolved) :
    (withOperand i a r).2.filter Malformed.outside = outsideProblems r := by
  cases r <;> rfl

end Resolution

section Steps

variable (t : Table) (env env' : Environment)

theorem knownStep_outside
    (info : OpInfo) (carry : Carry) (c : Chunk) :
    (knownStep t env info carry c).instruction.shape =
      (knownStep t env' info carry c).instruction.shape ∧
    (knownStep t env info carry c).problems.filter Malformed.outside =
      (knownStep t env' info carry c).problems.filter Malformed.outside := by
  simp only [knownStep]
  cases (operandOf t c carry).filter (· < UInt64.size) with
  | none =>
      exact ⟨rfl, rfl⟩
  | some a =>
      obtain ⟨hleads, hproblems⟩ := resolve_outside t env env' info c.opcode a c.next
      constructor
      · rw [shape_withOperand, shape_withOperand, hleads]
        rfl
      · simp only [List.filter_append, outside_withOperand, hproblems]

/-- Two steps from the same carry agree in shape, in what is wrong outside the pools, and in what
they hand on. -/
theorem step_outside
    (carry : Carry) (c : Chunk) :
    (step t env carry c).instruction.shape = (step t env' carry c).instruction.shape ∧
    (step t env carry c).problems.filter Malformed.outside =
      (step t env' carry c).problems.filter Malformed.outside ∧
    (step t env carry c).carry = (step t env' carry c).carry := by
  unfold step
  cases t.info c.opcode with
  | none =>
      exact ⟨rfl, rfl, rfl⟩
  | some info =>
      obtain ⟨hshape, hproblems⟩ := knownStep_outside t env env' info carry c
      exact ⟨hshape, hproblems, rfl⟩

theorem filter_map_fault
    (o : Nat) (problems : List Malformed) :
    (problems.map (Fault.mk o)).filter (fun f => f.problem.outside) =
      (problems.filter Malformed.outside).map (Fault.mk o) := by
  rw [List.filter_map]
  rfl

/-- The instructions of chunks have the same shapes, whatever the pools hold. -/
theorem decodeChunks_outside
    (showCaches : Bool) (carry : Carry) (cs : List Chunk) :
    (decodeChunks t env showCaches carry cs).instructions.map Instruction.shape =
      (decodeChunks t env' showCaches carry cs).instructions.map Instruction.shape ∧
    (decodeChunks t env showCaches carry cs).faults.filter (fun f => f.problem.outside) =
      (decodeChunks t env' showCaches carry cs).faults.filter (fun f => f.problem.outside) := by
  induction cs generalizing carry with
  | nil =>
      exact ⟨rfl, rfl⟩
  | cons c cs ih =>
      -- The carry is the same in both runs, so the rest starts alike.
      obtain ⟨hshape, hproblems, hcarry⟩ := step_outside t env env' carry c
      obtain ⟨hshapes, hfaults⟩ := ih (step t env carry c).carry
      rw [decodeChunks_cons, decodeChunks_cons, ← hcarry]
      constructor
      · simp only [List.map_cons, List.map_append, hshape, hshapes]
      · simp only [List.filter_append, filter_map_fault, hproblems, hfaults]

end Steps

section Listings

variable {t : Table} {env env' : Environment} {showCaches : Bool} {code : List UInt8}

theorem shape_mark
    (offsets : List Nat) (i : Instruction) :
    (mark offsets i).shape = i.shape := by
  obtain ⟨m, hm⟩ := exists_mark offsets i
  rw [hm]
  rfl

theorem map_shape_decode
    (t : Table) (env : Environment) (showCaches : Bool) (code : List UInt8) :
    (decode t env showCaches code).instructions.map Instruction.shape =
      (decodeChunks t env showCaches {} (chunks t 0 code).1).instructions.map
        Instruction.shape := by
  simp only [decode, markTargets_eq_map, List.map_map]
  exact List.map_congr_left fun i _ => shape_mark _ i

/-- Whether an instruction is marked, of the shapes of a listing and where handlers start. -/
def marked (shapes : List Shape) (handlers : List Nat) (s : Shape) : Bool :=
  !s.isCache && decide (s.offset ∈ shapes.filterMap Shape.jumpTarget ++ handlers)

/-- The marks of a listing follow from its shapes and where the handlers start. -/
theorem map_isJumpTarget_decode
    (t : Table) (env : Environment) (showCaches : Bool) (code : List UInt8) :
    (decode t env showCaches code).instructions.map Instruction.isJumpTarget =
      ((decode t env showCaches code).instructions.map Instruction.shape).map
        (marked ((decode t env showCaches code).instructions.map Instruction.shape)
          (env.exceptionEntries.map ExceptionEntry.target)) := by
  rw [List.map_map]
  refine List.map_congr_left fun i hi => ?_
  rw [Function.comp_apply, marked]
  cases hcache : i.isCache with
  | true =>
      rw [(cacheWord_of_mem_decode hi hcache).2, Instruction.shape, hcache]
      rfl
  | false =>
      rw [Bool.eq_iff_iff, isJumpTarget_iff hi hcache]
      simp [Instruction.shape, hcache, List.filterMap_map]

theorem marked_congr
    {handlers handlers' : List Nat}
    (shapes : List Shape)
    (h : ∀ o, o ∈ handlers ↔ o ∈ handlers') :
    marked shapes handlers = marked shapes handlers' := by
  funext s
  simp [marked, h]

/-- Two listings of the same bytecode have the same shapes and the same faults outside the pools,
whatever the environments hold; and the same marks, where the handlers start at the same offsets. -/
theorem decode_outside
    (t : Table) (env env' : Environment) (showCaches : Bool) (code : List UInt8) :
    (decode t env showCaches code).instructions.map Instruction.shape =
      (decode t env' showCaches code).instructions.map Instruction.shape ∧
    (decode t env showCaches code).faults.filter (fun f => f.problem.outside) =
      (decode t env' showCaches code).faults.filter (fun f => f.problem.outside) ∧
    ((∀ o, o ∈ env.exceptionEntries.map ExceptionEntry.target ↔
        o ∈ env'.exceptionEntries.map ExceptionEntry.target) →
      (decode t env showCaches code).instructions.map Instruction.isJumpTarget =
        (decode t env' showCaches code).instructions.map Instruction.isJumpTarget) := by
  obtain ⟨hshapes, hfaults⟩ := decodeChunks_outside t env env' showCaches {} (chunks t 0 code).1
  have hlisted : (decode t env showCaches code).instructions.map Instruction.shape =
      (decode t env' showCaches code).instructions.map Instruction.shape := by
    rw [map_shape_decode, map_shape_decode, hshapes]
  refine ⟨hlisted, ?_, ?_⟩
  · simp only [decode, List.filter_append, hfaults]
  · intro hhandlers
    rw [map_isJumpTarget_decode t env, map_isJumpTarget_decode t env', hlisted,
      marked_congr _ hhandlers]

end Listings

section Sample

/-- An extended load, a jump over one instruction to a second load, and half an instruction. -/
def loadCode : List UInt8 :=
  [144, 1, 101, 2, 110, 2, 9, 0, 101, 0, 9]

/-- No pools and no lines, and two handlers that start together. -/
def bareNames : Environment :=
  { exceptionEntries := [⟨0, 2, 6, 0, false⟩, ⟨2, 4, 6, 1, true⟩] }

/-- One name, one line and one handler. -/
def oneName : Environment :=
  { names := ["a"],
    lineStarts := Lines.StartMap.ofStarts [(4, 7)],
    exceptionEntries := [⟨0, 4, 6, 0, false⟩] }

/-- Without names both loads of the sample fail, with one name only the extended one does; the rest
of the two listings agrees. -/
theorem decode_outside_loadCode :
    (∀ o, o ∈ bareNames.exceptionEntries.map ExceptionEntry.target ↔
      o ∈ oneName.exceptionEntries.map ExceptionEntry.target) ∧
    (decode .sample bareNames true loadCode).faults =
      [⟨2, .indexOutOfRange .names 258 0⟩, ⟨8, .indexOutOfRange .names 0 0⟩,
        ⟨10, .truncated 2 1⟩] ∧
    (decode .sample oneName true loadCode).faults =
      [⟨2, .indexOutOfRange .names 258 1⟩, ⟨10, .truncated 2 1⟩] ∧
    (decode .sample bareNames true loadCode).instructions.map Instruction.shape =
      (decode .sample oneName true loadCode).instructions.map Instruction.shape ∧
    (decode .sample bareNames true loadCode).instructions.map Instruction.isJumpTarget =
      (decode .sample oneName true loadCode).instructions.map Instruction.isJumpTarget := by
  have hhandlers : ∀ o, o ∈ bareNames.exceptionEntries.map ExceptionEntry.target ↔
      o ∈ oneName.exceptionEntries.map ExceptionEntry.target := by
    simp [bareNames, oneName]
  obtain ⟨hshapes, _, hmarks⟩ := decode_outside .sample bareNames oneName true loadCode
  exact ⟨hhandlers, by decide +kernel, by decide +kernel, hshapes, hmarks hhandlers⟩

end Sample
end Decode
end Disassembler
