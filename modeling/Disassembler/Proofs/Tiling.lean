import Disassembler.Proofs.Cut

/-!
# Decoding tiles the bytecode

**Input.**  Any table, environment and bytecode, with cache words listed or not.

**Results.**
* `step_frame`: the instruction of a chunk stands at its offset, and nothing is folded yet.
* `plain_decodeChunks`: without its cache words, a listing is the one that never had them.
* `decode_tiles`: the instructions lie one after the other from the first byte on, up to the end of
  the bytecode or to the first place that does not fit, which is then the one truncation; with the
  cache words they cover every byte up to there once.
-/

namespace Disassembler
namespace Decode

section Steps

variable (t : Table) (env : Environment) (carry : Carry) (c : Chunk)

theorem withOperand_frame
    (i : Instruction) (arg : Nat) (resolved : Except Malformed Resolved) :
    (withOperand i arg resolved).1.offset = i.offset ∧
    (withOperand i arg resolved).1.opcode = i.opcode ∧
    (withOperand i arg resolved).1.isCache = i.isCache ∧
    (withOperand i arg resolved).1.expression = i.expression ∧
    (withOperand i arg resolved).1.foldStart = i.foldStart := by
  cases resolved <;> exact ⟨rfl, rfl, rfl, rfl, rfl⟩

/-- The instruction of a chunk stands at its offset under its opcode, is no cache word, and nothing
is folded yet. -/
theorem step_frame :
    (step t env carry c).instruction.offset = c.offset ∧
    (step t env carry c).instruction.opcode = c.opcode ∧
    (step t env carry c).instruction.isCache = false ∧
    (step t env carry c).instruction.expression = none ∧
    (step t env carry c).instruction.foldStart = none := by
  unfold step
  split
  · simp only [knownStep]
    split
    · exact ⟨rfl, rfl, rfl, rfl, rfl⟩
    · exact withOperand_frame _ _ _
  · exact ⟨rfl, rfl, rfl, rfl, rfl⟩

/-- A problem is not that the bytecode ends too early. -/
def NotTruncated (p : Malformed) : Prop :=
  ∀ needed remaining, p ≠ .truncated needed remaining

theorem notTruncated_entry
    {α : Type} {pool : Pool} {items : List α} {index : Nat} {p : Malformed}
    (h : entry pool items index = .error p) :
    NotTruncated p := by
  unfold entry at h
  split at h
  · cases h
  · cases h
    intro needed remaining
    simp

theorem notTruncated_resolveVariable
    {pool : Pool} {kind : OperandKind} {items : List String} {encoding : OperandEncoding}
    {arg : Nat} {p : Malformed}
    (h : resolveVariable pool kind items encoding arg = .error p) :
    NotTruncated p := by
  unfold resolveVariable at h
  split at h
  · split at h
    · rename_i hfirst
      cases h
      exact notTruncated_entry hfirst
    · split at h
      · rename_i hsecond
        cases h
        exact notTruncated_entry hsecond
      · cases h
  · split at h
    · rename_i hentry
      cases h
      exact notTruncated_entry hentry
    · cases h

theorem notTruncated_resolve
    {t : Table} {env : Environment} {info : OpInfo} {opcode arg next : Nat} {p : Malformed}
    (h : resolve t env info opcode arg next = .error p) :
    NotTruncated p := by
  unfold resolve at h
  split at h
  · unfold resolveConst at h
    split at h
    · rename_i hentry
      cases h
      exact notTruncated_entry hentry
    · cases h
  split at h
  · simp only [resolveName] at h
    split at h
    · rename_i hentry
      cases h
      exact notTruncated_entry hentry
    · cases h
  split at h
  · exact notTruncated_resolveVariable h
  split at h
  · exact notTruncated_resolveVariable h
  split at h
  · unfold resolveJump at h
    split at h
    · cases h
      intro needed remaining
      simp
    · cases h
  split at h
  · simp only [resolveComparison] at h
    split at h
    · rename_i hentry
      cases h
      exact notTruncated_entry hentry
    · cases h
  · cases h

theorem notTruncated_withOperand
    {i : Instruction} {arg : Nat} {resolved : Except Malformed Resolved}
    (h : ∀ p, resolved = .error p → NotTruncated p) :
    ∀ p ∈ (withOperand i arg resolved).2, NotTruncated p := by
  cases resolved with
  | ok r =>
      simp [withOperand]
  | error e =>
      intro p hp
      have hpe : p = e := by
        simpa [withOperand] using hp
      subst hpe
      exact h p rfl

theorem notTruncated_extend
    (arg : Option Nat) :
    ∀ p ∈ (extend t arg).2, NotTruncated p := by
  unfold extend
  split
  · simp
  · split <;> simp [NotTruncated]

/-- What is wrong with the instruction of a chunk is no truncation. -/
theorem notTruncated_step :
    ∀ p ∈ (step t env carry c).problems, NotTruncated p := by
  unfold step
  split
  · intro p hp
    simp only [knownStep, List.mem_append] at hp
    rcases hp with (hp | hp) | hp
    · split at hp
      · rw [List.mem_singleton] at hp
        subst hp
        simp [NotTruncated]
      · cases hp
    · split at hp
      · exact notTruncated_extend t _ p hp
      · cases hp
    · split at hp
      · cases hp
      · exact notTruncated_withOperand (fun q hq => notTruncated_resolve hq) p hp
  · simp [unknownStep, NotTruncated]

end Steps

section Words

/-- The cache words of an even number of bytes. -/
theorem map_cacheWords
    (opcode offset n : Nat) (bytes : List UInt8)
    (hlength : bytes.length = 2 * n) :
    (cacheWords opcode offset bytes).map (fun i => (i.offset, i.isCache)) =
      (List.range n).map fun k => (offset + 2 * k, true) := by
  induction n generalizing offset bytes with
  | zero =>
      have hnil : bytes = [] := List.eq_nil_of_length_eq_zero hlength
      subst hnil
      rfl
  | succ n ih =>
      match bytes with
      | [] =>
          simp at hlength
      | [b] =>
          simp only [List.length_singleton] at hlength
          omega
      | _ :: content :: rest =>
          simp only [List.length_cons] at hlength
          rw [cacheWords, List.map_cons, ih (offset + 2) rest (by omega),
            List.range_succ_eq_map, List.map_cons, List.map_map]
          congr 1
          apply List.map_congr_left
          intro k _
          simp only [Function.comp_apply, Prod.mk.injEq, and_true]
          omega

/-- A cache word is marked as such and is no jump, and nothing is folded into it. -/
theorem cacheWords_frame
    (opcode offset : Nat) (bytes : List UInt8) :
    ∀ i ∈ cacheWords opcode offset bytes,
      i.isCache = true ∧ i.jumpTarget = none ∧ i.expression = none := by
  fun_induction cacheWords opcode offset bytes with
  | case1 offset b content rest ih =>
      intro i hi
      rcases List.mem_cons.mp hi with rfl | hi
      · exact ⟨rfl, rfl, rfl⟩
      · exact ih i hi
  | case2 =>
      simp

end Words

section Listings

variable (t : Table) (env : Environment)

/-- The instructions that are no cache words. -/
def plain (instructions : List Instruction) : List Instruction :=
  instructions.filter fun i => !i.isCache

theorem plain_cons_of_isCache
    {i : Instruction} (rest : List Instruction)
    (h : i.isCache = true) :
    plain (i :: rest) = plain rest := by
  simp [plain, h]

theorem plain_cons_of_not_isCache
    {i : Instruction} (rest : List Instruction)
    (h : i.isCache = false) :
    plain (i :: rest) = i :: plain rest := by
  simp [plain, h]

/-- The cache words of a chunk, where these are listed. -/
def listedCaches (showCaches : Bool) (c : Chunk) : List Instruction :=
  if showCaches then cacheWords (cacheOpcode t) c.next c.caches else []

theorem listedCaches_frame
    (showCaches : Bool) (c : Chunk) :
    ∀ i ∈ listedCaches t showCaches c,
      i.isCache = true ∧ i.jumpTarget = none ∧ i.expression = none := by
  intro i hi
  cases showCaches with
  | false =>
      cases hi
  | true =>
      exact cacheWords_frame _ _ _ i hi

/-- A cache word holds one byte. -/
theorem arg_of_mem_listedCaches
    (showCaches : Bool) (c : Chunk) :
    ∀ i ∈ listedCaches t showCaches c, ∀ n ∈ i.arg, n < 256 := by
  have hwords : ∀ (opcode offset : Nat) (bytes : List UInt8),
      ∀ i ∈ cacheWords opcode offset bytes, ∀ n ∈ i.arg, n < 256 := by
    intro opcode offset bytes
    fun_induction cacheWords opcode offset bytes with
    | case1 offset b content rest ih =>
        intro i hi n hn
        rcases List.mem_cons.mp hi with rfl | hi
        · cases hn
          exact content.toNat_lt
        · exact ih i hi n hn
    | case2 =>
        simp
  intro i hi
  cases showCaches with
  | false =>
      cases hi
  | true =>
      exact hwords _ _ _ i hi

theorem decodeChunks_cons
    (showCaches : Bool) (carry : Carry) (c : Chunk) (cs : List Chunk) :
    decodeChunks t env showCaches carry (c :: cs) =
      ⟨(step t env carry c).instruction :: (listedCaches t showCaches c ++
          (decodeChunks t env showCaches (step t env carry c).carry cs).instructions),
        (step t env carry c).problems.map (Fault.mk c.offset) ++
          (decodeChunks t env showCaches (step t env carry c).carry cs).faults⟩ :=
  rfl

/-- Where an instruction stands, and whether it is a cache word. -/
def place (i : Instruction) : Nat × Bool :=
  (i.offset, i.isCache)

/-- Without its cache words, a listing is the one that never had them. -/
theorem plain_decodeChunks
    (showCaches : Bool) (carry : Carry) (cs : List Chunk) :
    plain (decodeChunks t env showCaches carry cs).instructions =
      (decodeChunks t env false carry cs).instructions := by
  induction cs generalizing carry with
  | nil =>
      rfl
  | cons c cs ih =>
      have hcaches : plain (listedCaches t showCaches c) = [] := by
        rw [plain, List.filter_eq_nil_iff]
        intro i hi
        simp [(listedCaches_frame t showCaches c i hi).1]
      have hinstruction := (step_frame t env carry c).2.2.1
      rw [decodeChunks_cons, decodeChunks_cons, plain_cons_of_not_isCache _ hinstruction]
      unfold plain at hcaches ih ⊢
      rw [List.filter_append, hcaches, ih]
      rfl

theorem faults_decodeChunks
    (showCaches : Bool) (carry : Carry) (cs : List Chunk) :
    (decodeChunks t env showCaches carry cs).faults =
      (decodeChunks t env false carry cs).faults := by
  induction cs generalizing carry with
  | nil =>
      rfl
  | cons c cs ih =>
      rw [decodeChunks_cons, decodeChunks_cons, ih]

/-- No fault of a chunk is a truncation. -/
theorem notTruncated_decodeChunks
    (showCaches : Bool) (carry : Carry) (cs : List Chunk) :
    ∀ f ∈ (decodeChunks t env showCaches carry cs).faults, NotTruncated f.problem := by
  induction cs generalizing carry with
  | nil =>
      intro f hf
      cases hf
  | cons c cs ih =>
      intro f hf
      rcases List.mem_append.mp hf with hf | hf
      · obtain ⟨p, hp, rfl⟩ := List.mem_map.mp hf
        exact notTruncated_step t env carry c p hp
      · exact ih _ f hf

/-- Each chunk gives its instruction, and its cache words where these are listed. -/
theorem map_place_decodeChunks
    (showCaches : Bool) (carry : Carry) (cs : List Chunk) :
    (decodeChunks t env showCaches carry cs).instructions.map place =
      cs.flatMap fun c => (c.offset, false) ::
        if showCaches then (cacheWords (cacheOpcode t) c.next c.caches).map place else [] := by
  induction cs generalizing carry with
  | nil =>
      rfl
  | cons c cs ih =>
      obtain ⟨hoffset, _, hplain, _⟩ := step_frame t env carry c
      have hplace : place (step t env carry c).instruction = (c.offset, false) := by
        rw [place, hoffset, hplain]
      rw [decodeChunks_cons, List.map_cons, List.map_append, hplace, ih, List.flatMap_cons]
      cases showCaches <;> rfl

/-- The instructions that are no cache words are those of the chunks, in order. -/
theorem map_plain_decodeChunks
    (showCaches : Bool) (carry : Carry) (cs : List Chunk) :
    (plain (decodeChunks t env showCaches carry cs).instructions).map
        (fun i => (i.offset, i.opcode)) =
      cs.map fun c => (c.offset, c.opcode) := by
  rw [plain_decodeChunks]
  induction cs generalizing carry with
  | nil =>
      rfl
  | cons c cs ih =>
      obtain ⟨hoffset, hopcode, _⟩ := step_frame t env carry c
      rw [decodeChunks_cons, List.map_cons, List.map_append, ih, hoffset, hopcode]
      rfl

/-- Marking jump targets changes nothing but the mark. -/
theorem map_markTargets
    {α : Type} (g : Instruction → α)
    (hg : ∀ i mark, g { i with isJumpTarget := mark } = g i)
    (offsets : List Nat) (instructions : List Instruction) :
    (markTargets offsets instructions).map g = instructions.map g := by
  rw [markTargets, List.map_map]
  apply List.map_congr_left
  intro i _
  simp only [Function.comp_apply]
  split
  · rfl
  · exact hg i _

theorem plain_markTargets
    (offsets : List Nat) (instructions : List Instruction) :
    plain (markTargets offsets instructions) = markTargets offsets (plain instructions) := by
  rw [plain, markTargets, List.filter_map, markTargets, plain]
  congr 1
  apply List.filter_congr
  intro i _
  simp only [Function.comp_apply]
  split <;> rfl

end Listings

section Tiles

variable (t : Table) (code : List UInt8)

/-- Where the cache words after an instruction stand. -/
def cachePlaces (a : Nat) : List (Nat × Bool) :=
  (List.range (cachesAt t code a / 2)).map fun k => (a + widthAt t code a + 2 * k, true)

/-- Where an instruction and its cache words stand.  Cache words that do not fit are not listed. -/
def tile (showCaches : Bool) (a : Nat) : List (Nat × Bool) :=
  (a, false) ::
    if showCaches ∧ after t code a ≤ code.length then cachePlaces t code a else []

/-- The number of bytes of an instruction or a cache word at a place. -/
def extent (p : Nat × Bool) : Nat :=
  if p.2 then 2 else widthAt t code p.1

def bytesAt (p : Nat × Bool) : List Nat :=
  List.range' p.1 (extent t code p)

/-- The offset where decoding stops. -/
def stopAt (stop : Option Fault) : Nat :=
  (stop.map Fault.offset).getD code.length

/-- Where the instructions start that are no cache words. -/
def starts (d : Decoded) : List Nat :=
  (plain d.instructions).map Instruction.offset

/-- Decoded instructions tile the bytecode up to where decoding stops. -/
structure Tiles (showCaches : Bool) (d : Decoded) (stop : Option Fault) : Prop where
  -- The first instruction starts at the first byte.
  first : ∀ a ∈ (starts d).head?, a = 0
  -- Each starts where the one before it and its cache words end.
  follows : (starts d).IsChain fun a b => b = after t code a
  -- Its opcode is the byte where it starts.
  opcodes : ∀ i ∈ plain d.instructions, ∃ b, code[i.offset]? = some b ∧ i.opcode = b.toNat
  -- All but the last are followed by all of their cache words.
  fits : ∀ a ∈ (starts d).dropLast, after t code a ≤ code.length
  -- They end at the end of the bytecode, or before the first thing that does not fit.
  ends : Ends t code 0 (starts d) stop
  -- The fault that ends them early is the only truncation.
  faults : ∃ others, d.faults = others ++ stop.toList ∧ ∀ f ∈ others, NotTruncated f.problem
  -- Each is followed by its cache words, where these are listed.
  placed : d.instructions.map place = (starts d).flatMap (tile t code showCaches)
  -- With the cache words, every byte before the stop belongs to just one.
  covered : showCaches = true →
    d.instructions.flatMap (fun i => bytesAt t code (place i)) = List.range (stopAt code stop)
  -- None reaches past the stop, nor the stop past the end.
  inside : ∀ i ∈ d.instructions,
    i.offset + extent t code (place i) ≤ stopAt code stop ∧ stopAt code stop ≤ code.length

end Tiles

section Covering

variable {t : Table} {code : List UInt8} {o : Nat} {cs : List Chunk} {stop : Option Fault}

theorem two_mul_cachesAt_div
    (t : Table) (code : List UInt8) (a : Nat) :
    2 * (cachesAt t code a / 2) = cachesAt t code a := by
  unfold cachesAt
  split
  · split
    · rw [Nat.mul_div_cancel_left _ Nat.two_pos]
    · rfl
  · rfl

/-- Cache words in a row cover the bytes from the first of them on. -/
theorem flatMap_bytesAt_words
    (o n : Nat) :
    ((List.range n).map fun k => (o + 2 * k, true)).flatMap (bytesAt t code) =
      List.range' o (2 * n) := by
  induction n with
  | zero =>
      rfl
  | succ n ih =>
      rw [List.range_succ, List.map_append, List.flatMap_append, ih, Nat.mul_add, Nat.mul_one,
        ← List.range'_append_1]
      rfl

/-- An instruction and its cache words cover the bytes from it up to the next one. -/
theorem flatMap_bytesAt_tile
    (t : Table) (code : List UInt8) (a : Nat) :
    (tile t code true a).flatMap (bytesAt t code) =
      List.range' a (widthAt t code a +
        if after t code a ≤ code.length then cachesAt t code a else 0) := by
  rw [tile, List.flatMap_cons]
  have hown : bytesAt t code (a, false) = List.range' a (widthAt t code a) := rfl
  rw [hown]
  by_cases hfits : after t code a ≤ code.length
  · rw [if_pos ⟨rfl, hfits⟩, if_pos hfits, cachePlaces, flatMap_bytesAt_words,
      two_mul_cachesAt_div, List.range'_append_1]
  · rw [if_neg (fun h => hfits h.2), if_neg hfits, List.flatMap_nil, List.append_nil, Nat.add_zero]

theorem extent_le_of_mem_tile
    {showCaches : Bool} {a : Nat} {p : Nat × Bool}
    (hp : p ∈ tile t code showCaches a) :
    p.1 + extent t code p ≤ a + (widthAt t code a +
      if after t code a ≤ code.length then cachesAt t code a else 0) := by
  rcases List.mem_cons.mp hp with rfl | hp
  · simp only [extent, Bool.false_eq_true, if_false]
    omega
  · split at hp
    · rename_i hfits
      obtain ⟨k, hk, rfl⟩ := List.mem_map.mp hp
      have heven := two_mul_cachesAt_div t code a
      rw [List.mem_range] at hk
      simp only [extent, if_true, if_pos hfits.2]
      omega
    · cases hp

theorem Cut.length_caches
    (h : Cut t code o cs stop) :
    ∀ c ∈ cs, c.caches.length =
      if after t code c.offset ≤ code.length then cachesAt t code c.offset else 0 := by
  induction h with
  | done =>
      simp
  | short =>
      simp
  | shortCaches _ _ hshort hchunk hcaches =>
      intro c hc
      rw [List.mem_singleton] at hc
      subst hc
      rw [hchunk.offset, hcaches, if_neg (by omega)]
      rfl
  | next _ hfits hchunk hcaches _ ih =>
      intro c hc
      rcases List.mem_cons.mp hc with rfl | hc
      · rw [hchunk.offset, hcaches, if_pos hfits, List.length_take, List.length_drop]
        unfold after at hfits
        omega
      · exact ih c hc

/-- Cutting stops within the bytecode, or at its end. -/
theorem Cut.stopAt_bounds
    (h : Cut t code o cs stop) :
    o ≤ stopAt code stop ∧ stopAt code stop ≤ code.length := by
  induction h with
  | done =>
      exact ⟨Nat.le_refl _, Nat.le_refl _⟩
  | short hinside =>
      exact ⟨Nat.le_refl _, Nat.le_of_lt hinside⟩
  | shortCaches _ hfits =>
      exact ⟨Nat.le_add_right _ _, hfits⟩
  | next _ _ _ _ _ ih =>
      unfold after at ih
      omega

/-- The tiles of the chunks cover the bytes up to the stop. -/
theorem Cut.covers
    (h : Cut t code o cs stop) :
    cs.flatMap (fun c => (tile t code true c.offset).flatMap (bytesAt t code)) =
      List.range' o (stopAt code stop - o) := by
  induction h with
  | done =>
      simp [stopAt]
  | short =>
      simp [stopAt]
  | shortCaches _ _ hshort hchunk =>
      rw [List.flatMap_singleton, hchunk.offset, flatMap_bytesAt_tile, if_neg (by omega)]
      simp [stopAt]
  | next _ hfits hchunk _ hrest ih =>
      rw [List.flatMap_cons, ih, hchunk.offset, flatMap_bytesAt_tile, if_pos hfits]
      -- The tile ends where the rest is cut from, so the two ranges join.
      have hbound := hrest.stopAt_bounds.1
      unfold after at hbound ⊢
      rw [Nat.add_assoc, List.range'_append_1]
      congr 1
      omega

theorem Cut.le_stopAt
    (h : Cut t code o cs stop) :
    ∀ c ∈ cs, c.offset + (widthAt t code c.offset +
      if after t code c.offset ≤ code.length then cachesAt t code c.offset else 0) ≤
        stopAt code stop := by
  induction h with
  | done =>
      simp
  | short =>
      simp
  | shortCaches _ _ hshort hchunk =>
      intro c hc
      rw [List.mem_singleton] at hc
      subst hc
      rw [hchunk.offset, if_neg (by omega)]
      simp [stopAt]
  | next _ hfits hchunk _ hrest ih =>
      intro c hc
      rcases List.mem_cons.mp hc with rfl | hc
      · rw [hchunk.offset, if_pos hfits]
        have hbound := hrest.stopAt_bounds.1
        unfold after at hbound
        omega
      · exact ih c hc

theorem map_place_chunk
    (showCaches : Bool) {c : Chunk}
    (hchunk : IsChunk t code c.offset c)
    (hcaches : c.caches.length =
      if after t code c.offset ≤ code.length then cachesAt t code c.offset else 0) :
    ((c.offset, false) ::
      if showCaches then (cacheWords (cacheOpcode t) c.next c.caches).map place else []) =
      tile t code showCaches c.offset := by
  rw [tile]
  congr 1
  cases showCaches with
  | false =>
      simp
  | true =>
      by_cases hfits : after t code c.offset ≤ code.length
      · rw [if_pos hfits, ← two_mul_cachesAt_div] at hcaches
        have hwords := map_cacheWords (cacheOpcode t) c.next (cachesAt t code c.offset / 2)
          c.caches hcaches
        rw [if_pos rfl, if_pos ⟨rfl, hfits⟩, cachePlaces, ← hchunk.width]
        exact hwords
      · rw [if_neg hfits] at hcaches
        rw [if_pos rfl, if_neg (fun h => hfits h.2), List.eq_nil_of_length_eq_zero hcaches]
        rfl

/-- The chunks of a cut give their tiles, one after the other. -/
theorem Cut.map_place_decodeChunks
    (h : Cut t code o cs stop)
    (env : Environment) (showCaches : Bool) (carry : Carry) :
    (decodeChunks t env showCaches carry cs).instructions.map place =
      (cs.map Chunk.offset).flatMap (tile t code showCaches) := by
  rw [Decode.map_place_decodeChunks, List.flatMap_map]
  apply List.flatMap_congr
  intro c hc
  exact map_place_chunk showCaches (h.isChunk c hc).1 (h.length_caches c hc)

end Covering

section Decoding

variable (t : Table) (env : Environment) (showCaches : Bool) (code : List UInt8)

theorem starts_decode :
    starts (decode t env showCaches code) = (chunks t 0 code).1.map Chunk.offset := by
  have hmap := congrArg (List.map Prod.fst)
    (map_plain_decodeChunks t env showCaches {} (chunks t 0 code).1)
  rw [List.map_map, List.map_map] at hmap
  simp only [starts, decode]
  rw [plain_markTargets, map_markTargets Instruction.offset (fun _ _ => rfl)]
  exact hmap

/-- The places of the instructions are the tiles of their starts. -/
theorem map_place_decode :
    (decode t env showCaches code).instructions.map place =
      (starts (decode t env showCaches code)).flatMap (tile t code showCaches) := by
  rw [starts_decode, ← (cut_chunks t code).map_place_decodeChunks env showCaches {}]
  exact map_markTargets place (fun _ _ => rfl) _ _

theorem opcode_of_mem_plain_decode
    {i : Instruction}
    (hi : i ∈ plain (decode t env showCaches code).instructions) :
    ∃ b, code[i.offset]? = some b ∧ i.opcode = b.toNat := by
  have hpairs : (plain (decode t env showCaches code).instructions).map
      (fun i => (i.offset, i.opcode)) = (chunks t 0 code).1.map fun c => (c.offset, c.opcode) := by
    simp only [decode]
    rw [plain_markTargets, map_markTargets (fun i => (i.offset, i.opcode)) (fun _ _ => rfl)]
    exact map_plain_decodeChunks t env showCaches {} _
  have hpair : (i.offset, i.opcode) ∈ (chunks t 0 code).1.map fun c => (c.offset, c.opcode) := by
    rw [← hpairs]
    exact List.mem_map.mpr ⟨i, hi, rfl⟩
  obtain ⟨c, hc, heq⟩ := List.mem_map.mp hpair
  obtain ⟨hoffset, hopcode⟩ := Prod.mk.inj heq
  obtain ⟨hchunk, hinside, _⟩ := (cut_chunks t code).isChunk c hc
  rw [← hoffset, ← hopcode, hchunk.opcode, opcodeAt]
  refine ⟨code[c.offset], List.getElem?_eq_getElem hinside, ?_⟩
  simp [List.getD, hinside]

theorem covered_decode :
    (decode t env true code).instructions.flatMap (fun i => bytesAt t code (place i)) =
      List.range (stopAt code (chunks t 0 code).2) := by
  have hcovers := (cut_chunks t code).covers
  rw [Nat.sub_zero, ← List.range_eq_range'] at hcovers
  rw [← hcovers, ← List.flatMap_map place, map_place_decode, starts_decode, List.flatMap_assoc,
    List.flatMap_map]

theorem extent_le_of_mem_decode
    {i : Instruction}
    (hi : i ∈ (decode t env showCaches code).instructions) :
    i.offset + extent t code (place i) ≤ stopAt code (chunks t 0 code).2 := by
  have hplace : place i ∈ (starts (decode t env showCaches code)).flatMap
      (tile t code showCaches) := by
    rw [← map_place_decode]
    exact List.mem_map.mpr ⟨i, hi, rfl⟩
  obtain ⟨a, ha, htile⟩ := List.mem_flatMap.mp hplace
  rw [starts_decode] at ha
  obtain ⟨c, hc, rfl⟩ := List.mem_map.mp ha
  exact Nat.le_trans (extent_le_of_mem_tile htile) ((cut_chunks t code).le_stopAt c hc)

/-- Decoding tiles the bytecode up to its end, or up to the first place that does not fit. -/
theorem decode_tiles :
    ∃ stop, Tiles t code showCaches (decode t env showCaches code) stop := by
  have hcut := cut_chunks t code
  have hstarts := starts_decode t env showCaches code
  refine ⟨(chunks t 0 code).2, ?_⟩
  constructor
  case first =>
    intro a ha
    rw [hstarts, List.head?_map, Option.mem_def, Option.map_eq_some_iff] at ha
    obtain ⟨c, hc, rfl⟩ := ha
    exact hcut.head hc
  case follows =>
    rw [hstarts]
    exact hcut.follows
  case opcodes =>
    intro i hi
    exact opcode_of_mem_plain_decode t env showCaches code hi
  case fits =>
    rw [hstarts]
    exact hcut.fits
  case ends =>
    rw [hstarts]
    exact hcut.ends
  case faults =>
    exact ⟨_, rfl, notTruncated_decodeChunks t env showCaches {} _⟩
  case placed =>
    exact map_place_decode t env showCaches code
  case covered =>
    intro hshow
    subst hshow
    exact covered_decode t env code
  case inside =>
    intro i hi
    exact ⟨extent_le_of_mem_decode t env showCaches code hi, hcut.stopAt_bounds.2⟩

end Decoding
end Decode
end Disassembler
