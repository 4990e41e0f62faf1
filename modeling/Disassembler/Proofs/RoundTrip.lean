import Disassembler.Code.Json
import Mathlib.Data.List.Basic

/-!
# Reading back what was written

**Input.**  A constant or a code object whose numbers have their widths, whose long integers are
decimal digits, and whose doubles JSON can write, nested to any depth.

**Results.**
* `Constant.Storable` and `CodeObject.Storable` say this of a constant and of a code object.
* `Json.Exact` says of a JSON value what its text keeps: integers of sixty-four bits with sign and
  finite doubles.
* `storable_survives_json`: a storable constant or code object is written as exact JSON, and reading
  it gives the same one.
-/

namespace Disassembler

section Exactness

/-- The integers have sixty-four bits with sign, and the doubles are finite. -/
inductive Json.Exact : Json → Prop
  | null :
      Exact .null
  | bool (b : Bool) :
      Exact (.bool b)
  | int {n : Int}
      (hwidth : -(Width.signed64 : Int) ≤ n ∧ n < (Width.signed64 : Int)) :
      Exact (.int n)
  | float {x : Binary64}
      (hfinite : x.isFinite = true) :
      Exact (.float x)
  | str (s : String) :
      Exact (.str s)
  | arr {items : List Json}
      (hitems : ∀ j ∈ items, Exact j) :
      Exact (.arr items)
  | obj {members : List (String × Json)}
      (hmembers : ∀ m ∈ members, Exact m.2) :
      Exact (.obj members)

/-- An optional minus sign before one or more digits. -/
def IsDecimal (text : String) : Prop :=
  ∃ digits : List Char, digits ≠ [] ∧ (∀ c ∈ digits, c.isDigit = true) ∧
    (text.toList = digits ∨ text.toList = '-' :: digits)

mutual

/-- JSON can write the constant: its integers have sixty-four bits with sign or are decimal digits,
its doubles are numbers, and the parts of its complex numbers are finite. -/
inductive Constant.Storable : Constant → Prop
  | none :
      Constant.Storable .none
  | ellipsis :
      Constant.Storable .ellipsis
  | bool (b : Bool) :
      Constant.Storable (.bool b)
  | int {n : Int}
      (hwidth : -(Width.signed64 : Int) ≤ n ∧ n < (Width.signed64 : Int)) :
      Constant.Storable (.int n)
  | bigInt {digits : String}
      (hdigits : IsDecimal digits) :
      Constant.Storable (.bigInt digits)
  | float {x : Binary64}
      (hnumber : x.isNaN = false) :
      Constant.Storable (.float x)
  | complex {real imag : Binary64}
      (hreal : real.isFinite = true)
      (himag : imag.isFinite = true) :
      Constant.Storable (.complex real imag)
  | str (s : String) :
      Constant.Storable (.str s)
  | bytes (value : List UInt8) :
      Constant.Storable (.bytes value)
  | tuple {items : List Constant}
      (hitems : ∀ k ∈ items, Constant.Storable k) :
      Constant.Storable (.tuple items)
  | frozenSet {items : List Constant}
      (hitems : ∀ k ∈ items, Constant.Storable k) :
      Constant.Storable (.frozenSet items)
  | code {c : CodeObject}
      (hcode : CodeObject.Storable c) :
      Constant.Storable (.code c)

/-- JSON can write the code object: its two numbers have thirty-two bits, and its constants can be
written. -/
inductive CodeObject.Storable : CodeObject → Prop
  | mk {c : CodeObject}
      (hargcount : c.argcount < UInt32.size)
      (hfirstLine : c.firstLine < UInt32.size)
      (hconsts : ∀ k ∈ c.consts, Constant.Storable k) :
      CodeObject.Storable c

end

end Exactness

section Scalars

theorem isBigInt_of_isDecimal
    {text : String}
    (h : IsDecimal text) :
    Constant.isBigInt text = true := by
  obtain ⟨digits, hne, hdigits, htext⟩ := h
  have hall : digits.all Char.isDigit = true := List.all_eq_true.mpr hdigits
  have hbody : (!digits.isEmpty && digits.all Char.isDigit) = true := by
    rw [hall]
    simpa using hne
  unfold Constant.isBigInt
  rcases htext with htext | htext
  · -- A digit is no minus sign, so nothing is taken away.
    rw [htext]
    split
    · rename_i rest
      exact absurd (hdigits '-' List.mem_cons_self) (by decide)
    · exact hbody
  · rw [htext]
    exact hbody

/-- A double without a finite value that is a number is one of the two infinite ones. -/
theorem infinite_cases
    {x : Binary64}
    (hnumber : x.isNaN = false) (hfinite : x.isFinite = false) :
    x = Binary64.infinity ∨ x = Binary64.negInfinity := by
  have hbiased : x.biased = 2047 := by
    simpa [Binary64.isFinite] using hfinite
  have hfraction : x.fraction = 0 := by
    simpa [Binary64.isNaN, hbiased] using hnumber
  obtain ⟨bits⟩ := x
  have hbits := bits.toNat_lt
  simp only [Binary64.biased, Binary64.fraction, Binary64.fractions] at hbiased hfraction
  have hcases : bits.toNat = 2047 * 0x10000000000000 ∨
      bits.toNat = 0x8000000000000000 + 2047 * 0x10000000000000 := by
    omega
  rw [← UInt64.ofNat_toNat (x := bits)]
  rcases hcases with h | h
  · left
    rw [h]
    rfl
  · right
    rw [h]
    rfl

/-- The text of an infinite double reads back. -/
theorem ofFloatText_write
    {x : Binary64}
    (hnumber : x.isNaN = false) (hfinite : x.isFinite = false) :
    Constant.ofFloatText (Constant.floatFormat.write x) = .ok (.float x) := by
  have hread : Decimal.readFloat? (Constant.floatFormat.write x) = some x := by
    rcases infinite_cases hnumber hfinite with rfl | rfl
    · decide
    · decide
  rw [Constant.ofFloatText, hread]

theorem ofInteger_of_width
    {n : Int}
    (h : -(Width.signed64 : Int) ≤ n ∧ n < (Width.signed64 : Int)) :
    Constant.ofInteger n = .int n := by
  rw [Constant.ofInteger, Width.within?_eq_some_iff.mpr ⟨h, rfl⟩]

theorem nat?_nat
    {bound n : Nat}
    (h : n < bound) :
    (Json.nat n).nat? bound = some n :=
  if_pos h

theorem Json.exact_nat
    {n : Nat}
    (h : n < UInt32.size) :
    (Json.nat n).Exact := by
  have hsize : UInt32.size ≤ Width.signed64 := by decide
  exact .int ⟨by omega, by omega⟩

theorem Json.exact_strings
    (items : List String) :
    (Json.list .str items).Exact := by
  refine .arr fun j hj => ?_
  obtain ⟨s, -, rfl⟩ := List.mem_map.mp hj
  exact .str s

theorem bytes?_ofBytes
    (bytes : List UInt8) :
    (Json.ofBytes bytes).bytes? = some bytes :=
  Text.Hex.decode?_encode bytes

theorem list?_list
    {α : Type} {read : Json → Option α} {write : α → Json}
    (h : ∀ a, read (write a) = some a) (items : List α) :
    (Json.list write items).list? read = some items := by
  change (items.map write).mapM read = some items
  induction items with
  | nil =>
      rfl
  | cons a rest ih =>
      rw [List.map_cons, List.mapM_cons, h, ih]
      rfl

end Scalars

section Trees

theorem exact_toItems
    {items : List Constant}
    (h : ∀ k ∈ items, k.toJson.Exact) :
    ∀ j ∈ Constant.toItems items, j.Exact := by
  induction items with
  | nil =>
      exact List.forall_mem_nil _
  | cons k rest ih =>
      exact List.forall_mem_cons.mpr
        ⟨h k List.mem_cons_self, ih fun m hm => h m (List.mem_cons_of_mem k hm)⟩

/-- Constants that read back one by one read back as a list. -/
theorem ofItems_toItems
    {items : List Constant}
    (h : ∀ k ∈ items, Constant.ofJson k.toJson = .ok k) :
    Constant.ofItems (Constant.toItems items) = .ok items := by
  induction items with
  | nil =>
      rfl
  | cons k rest ih =>
      have hrest := ih fun m hm => h m (List.mem_cons_of_mem k hm)
      rw [Constant.toItems, Constant.ofItems, h k List.mem_cons_self, hrest]

namespace CodeObject

/-- The JSON forms of the fields, in their order. -/
def values (c : CodeObject) : List Json :=
  [.str c.name, .nat c.argcount, .nat c.firstLine, .ofBytes c.code,
    .arr (Constant.toItems c.consts), .list .str c.names, .list .str c.varnames,
    .list .str c.cellvars, .list .str c.freevars, .ofBytes c.lineTable, .ofBytes c.exceptionTable]

/-- The members under which a code object is written, one for each field. -/
def members (c : CodeObject) : List (String × Json) :=
  fieldNames.zip c.values

theorem toJson_eq_members
    (c : CodeObject) :
    c.toJson = .obj c.members := by
  cases c
  rfl

theorem ofMembers_members
    (c : CodeObject) :
    Constant.ofMembers c.members = Constant.ofItems (Constant.toItems c.consts) :=
  rfl

theorem Draft.field_eq_ok
    {α : Type} {d a : α} {read : Json → Option α} {found : Option Json} {value : Json}
    (hfound : found = some value) (hread : read value = some a) :
    Draft.field d read found = .ok a := by
  rw [hfound, Draft.field, hread, InputError.require]

/-- Every field of a code object reads back, whatever is read of its constants. -/
theorem draft_members
    {c : CodeObject} (consts : Except InputError (List Constant))
    (hargcount : c.argcount < UInt32.size) (hfirstLine : c.firstLine < UInt32.size) :
    Draft.ofJson (.obj c.members) consts =
      ⟨.ok c.name, .ok c.argcount, .ok c.firstLine, some (.ok c.code), consts, .ok c.names,
        .ok c.varnames, .ok c.cellvars, .ok c.freevars, .ok c.lineTable, .ok c.exceptionTable⟩ := by
  have hstrings : ∀ items : List String, (Json.list .str items).list? Json.str? = some items :=
    list?_list fun _ => rfl
  rw [Draft.ofJson, Draft.mk.injEq]
  refine ⟨Draft.field_eq_ok rfl rfl, Draft.field_eq_ok rfl (nat?_nat hargcount),
    Draft.field_eq_ok rfl (nat?_nat hfirstLine), ?_, rfl, Draft.field_eq_ok rfl (hstrings c.names),
    Draft.field_eq_ok rfl (hstrings c.varnames), Draft.field_eq_ok rfl (hstrings c.cellvars),
    Draft.field_eq_ok rfl (hstrings c.freevars), Draft.field_eq_ok rfl (bytes?_ofBytes c.lineTable),
    Draft.field_eq_ok rfl (bytes?_ofBytes c.exceptionTable)⟩
  exact congrArg (some <| InputError.require ·) (bytes?_ofBytes c.code)

/-- A code object reads back when its constants do. -/
theorem ofJson_toJson
    {c : CodeObject}
    (hargcount : c.argcount < UInt32.size) (hfirstLine : c.firstLine < UInt32.size)
    (hconsts : ∀ k ∈ c.consts, Constant.ofJson k.toJson = .ok k) :
    ofJson c.toJson = .ok c := by
  have hrepeated : Json.hasRepeated fieldNames c.members = false := rfl
  have hmembers : Constant.ofMembers c.members = .ok c.consts := by
    rw [ofMembers_members, ofItems_toItems hconsts]
  rw [toJson_eq_members, ofJson, hrepeated, if_neg Bool.false_ne_true, hmembers,
    draft_members _ hargcount hfirstLine]
  cases c
  rfl

theorem exact_toJson
    {c : CodeObject}
    (hargcount : c.argcount < UInt32.size) (hfirstLine : c.firstLine < UInt32.size)
    (hconsts : ∀ k ∈ c.consts, k.toJson.Exact) :
    c.toJson.Exact := by
  have hvalues : ∀ j ∈ c.values, j.Exact := by
    simp only [values, List.forall_mem_cons]
    exact ⟨.str _, Json.exact_nat hargcount, Json.exact_nat hfirstLine, .str _,
      .arr (exact_toItems hconsts), Json.exact_strings c.names, Json.exact_strings c.varnames,
      Json.exact_strings c.cellvars, Json.exact_strings c.freevars, .str _, .str _,
      List.forall_mem_nil _⟩
  rw [toJson_eq_members]
  exact .obj fun m hm => hvalues m.2 (List.of_mem_zip hm).2

end CodeObject

/-- The constant is written as exact JSON, which reads back as the same constant. -/
structure Constant.ReadsBack (k : Constant) : Prop where
  exact : k.toJson.Exact
  reads : Constant.ofJson k.toJson = .ok k

/-- The code object is written as exact JSON, which reads back as the same code object. -/
structure CodeObject.ReadsBack (c : CodeObject) : Prop where
  exact : c.toJson.Exact
  reads : CodeObject.ofJson c.toJson = .ok c

namespace Constant.ReadsBack

theorem ofJson_member
    (kind : String) (content : Json) :
    ofJson (.obj [(kind, content)]) =
      if kind = "tuple" then InputError.swallow (Constant.tuple <$> listOfJson content)
      else if kind = "frozenset" then
        InputError.swallow (Constant.frozenSet <$> listOfJson content)
      else if kind = "code" then
        InputError.swallow (Constant.code <$> CodeObject.ofJson content)
      else ofMember kind content :=
  rfl

theorem of_scalar
    {k : Constant} {j : Json}
    (hwritten : k.toJson = j) (hexact : j.Exact) (hreads : ofJson j = .ok k) :
    ReadsBack k := by
  rw [← hwritten] at hexact hreads
  exact ⟨hexact, hreads⟩

theorem of_tagged
    {k : Constant} {kind : String} {content : Json}
    (hwritten : k.toJson = .tagged kind content) (hexact : content.Exact)
    (hreads : ofJson (.obj [(kind, content)]) = .ok k) :
    ReadsBack k := by
  refine of_scalar hwritten (.obj fun m hm => ?_) hreads
  rw [List.mem_singleton.mp hm]
  exact hexact

/-- The kinds that hold no constants are read apart. -/
theorem of_member
    {k : Constant} {kind : String} {content : Json}
    (hwritten : k.toJson = .tagged kind content) (hexact : content.Exact)
    (hkind : kind ≠ "tuple" ∧ kind ≠ "frozenset" ∧ kind ≠ "code")
    (hreads : ofMember kind content = .ok k) :
    ReadsBack k := by
  refine of_tagged hwritten hexact ?_
  rw [ofJson_member, if_neg hkind.1, if_neg hkind.2.1, if_neg hkind.2.2, hreads]

theorem bigInt
    {digits : String}
    (hdigits : IsDecimal digits) :
    ReadsBack (.bigInt digits) := by
  have hwritten : toJson (.bigInt digits) = .tagged "bigint" (.str digits) := rfl
  exact of_member hwritten (.str _) (by decide) (if_pos (isBigInt_of_isDecimal hdigits))

theorem float
    {x : Binary64}
    (hnumber : x.isNaN = false) :
    ReadsBack (.float x) := by
  cases hfinite : x.isFinite with
  | true =>
      exact of_scalar (if_pos hfinite) (.float hfinite) rfl
  | false =>
      have hwritten : toJson (.float x) = .tagged "float" (.str (floatFormat.write x)) :=
        if_neg (by rw [hfinite]; exact Bool.false_ne_true)
      exact of_member hwritten (.str _) (by decide) (ofFloatText_write hnumber hfinite)

theorem complex
    {real imag : Binary64}
    (hreal : real.isFinite = true) (himag : imag.isFinite = true) :
    ReadsBack (.complex real imag) := by
  refine of_member rfl (.obj ?_) (by decide) rfl
  simp only [List.forall_mem_cons]
  exact ⟨.float hreal, .float himag, List.forall_mem_nil _⟩

theorem bytes
    (value : List UInt8) :
    ReadsBack (.bytes value) := by
  have hwritten : toJson (.bytes value) = .tagged "bytes" (.ofBytes value) := rfl
  refine of_member hwritten (.str _) (by decide) ?_
  exact congrArg (Constant.bytes <$> InputError.require ·) (bytes?_ofBytes value)

theorem tuple
    {items : List Constant}
    (h : ∀ k ∈ items, ReadsBack k) :
    ReadsBack (.tuple items) := by
  have hitems : listOfJson (.arr (toItems items)) = .ok items :=
    ofItems_toItems fun k hk => (h k hk).reads
  refine of_tagged rfl (.arr (exact_toItems fun k hk => (h k hk).exact)) ?_
  rw [ofJson_member, if_pos rfl, hitems]
  rfl

theorem frozenSet
    {items : List Constant}
    (h : ∀ k ∈ items, ReadsBack k) :
    ReadsBack (.frozenSet items) := by
  have hitems : listOfJson (.arr (toItems items)) = .ok items :=
    ofItems_toItems fun k hk => (h k hk).reads
  refine of_tagged rfl (.arr (exact_toItems fun k hk => (h k hk).exact)) ?_
  rw [ofJson_member, if_neg (by decide), if_pos rfl, hitems]
  rfl

theorem code
    {c : CodeObject}
    (h : c.ReadsBack) :
    ReadsBack (.code c) := by
  refine of_tagged rfl h.exact ?_
  rw [ofJson_member, if_neg (by decide), if_neg (by decide), if_pos rfl, h.reads]
  rfl

end Constant.ReadsBack

mutual

-- By recursion on the derivations, of which an item of a tuple and the code object of a constant
-- have smaller ones.
theorem Constant.Storable.readsBack : ∀ {k : Constant}, k.Storable → k.ReadsBack
  | _, .none => .of_scalar rfl .null rfl
  | _, .ellipsis => .of_member rfl (.bool true) (by decide) rfl
  | _, .bool b => .of_scalar rfl (.bool b) rfl
  | _, .int hwidth =>
      .of_scalar rfl (.int hwidth) (congrArg Except.ok (ofInteger_of_width hwidth))
  | _, .bigInt hdigits => .bigInt hdigits
  | _, .float hnumber => .float hnumber
  | _, .complex hreal himag => .complex hreal himag
  | _, .str s => .of_scalar rfl (.str s) rfl
  | _, .bytes value => .bytes value
  | _, .tuple hitems => .tuple fun k hk => (hitems k hk).readsBack
  | _, .frozenSet hitems => .frozenSet fun k hk => (hitems k hk).readsBack
  | _, .code hcode => .code hcode.readsBack

theorem CodeObject.Storable.readsBack : ∀ {c : CodeObject}, c.Storable → c.ReadsBack
  | _, .mk hargcount hfirstLine hconsts =>
      ⟨CodeObject.exact_toJson hargcount hfirstLine fun k hk => (hconsts k hk).readsBack.exact,
        CodeObject.ofJson_toJson hargcount hfirstLine fun k hk => (hconsts k hk).readsBack.reads⟩

end

end Trees

section Survival

/-- A text of two lower-case hexadecimal digits a byte. -/
def Json.IsHexOf (j : Json) (bytes : List UInt8) : Prop :=
  ∃ text : String, j = .str text ∧ text.toList.length = 2 * bytes.length ∧
    ∀ d ∈ text.toList, d ∈ Text.Hex.digits

/-- The byte fields of a code object with their names. -/
def CodeObject.byteFields (c : CodeObject) : List (String × List UInt8) :=
  [("code", c.code), ("linetable", c.lineTable), ("exceptiontable", c.exceptionTable)]

theorem isHexOf_ofBytes
    (bytes : List UInt8) :
    (Json.ofBytes bytes).IsHexOf bytes := by
  refine ⟨Text.Hex.encode bytes, rfl, ?_⟩
  rw [Text.Hex.encode, String.toList_ofList]
  induction bytes with
  | nil =>
      exact ⟨rfl, List.forall_mem_nil _⟩
  | cons b rest ih =>
      have hdigit : ∀ n < 16, Text.Hex.digit n ∈ Text.Hex.digits := by decide
      have hb := b.toNat_lt
      rw [Text.Hex.encodeChars, List.length_cons, List.length_cons, List.length_cons, ih.1]
      refine ⟨by omega, ?_⟩
      simp only [List.forall_mem_cons]
      exact ⟨hdigit _ (by omega), hdigit _ (by omega), ih.2⟩

theorem CodeObject.isHexOf_byteFields
    (c : CodeObject) :
    ∀ f ∈ c.byteFields, ∃ j, fieldIn c.toJson f.1 = some j ∧ j.IsHexOf f.2 := by
  rw [toJson_eq_members]
  simp only [byteFields, List.forall_mem_cons]
  exact ⟨⟨_, rfl, isHexOf_ofBytes c.code⟩, ⟨_, rfl, isHexOf_ofBytes c.lineTable⟩,
    ⟨_, rfl, isHexOf_ofBytes c.exceptionTable⟩, List.forall_mem_nil _⟩

/-- Every storable constant and every storable code object is written as exact JSON, and reading it
back gives the same one; the byte fields of a code object are written in lower-case hexadecimal. -/
theorem storable_survives_json :
    (∀ k : Constant, k.Storable → k.toJson.Exact ∧ Constant.ofJson k.toJson = .ok k) ∧
      ∀ c : CodeObject, c.Storable →
        c.toJson.Exact ∧ CodeObject.ofJson c.toJson = .ok c ∧
          ∀ f ∈ c.byteFields, ∃ j, CodeObject.fieldIn c.toJson f.1 = some j ∧ j.IsHexOf f.2 := by
  constructor
  · intro k hk
    exact ⟨hk.readsBack.exact, hk.readsBack.reads⟩
  · intro c hc
    exact ⟨hc.readsBack.exact, hc.readsBack.reads, c.isHexOf_byteFields⟩

/-- Constants that are hard to keep: numbers at the ends of their range or without a finite value, a
negative zero, a text that spells null, and containers in one another. -/
def hardConstants : List Constant :=
  [.ellipsis, .int (-9223372036854775808), .bigInt "-18446744073709551616",
    .float Binary64.negInfinity, .complex ⟨0x8000000000000000⟩ (Binary64.ofInt 2), .str "null",
    .tuple [.frozenSet [.bytes [0x0a, 0xff], .none], .bool true]]

/-- The hard constants in a code object that is itself a constant of another one. -/
def sampleNest : CodeObject where
  name := "outer"
  argcount := 2
  code := [0x97, 0x00]
  consts :=
    [.tuple [.code
      ⟨"inner", 0, 4294967295, [0x53], hardConstants, ["x"], [], [], ["y"], [0x80], []⟩]]

theorem storable_survives_json_sampleNest :
    sampleNest.Storable ∧ sampleNest.toJson.Exact ∧
      CodeObject.ofJson sampleNest.toJson = .ok sampleNest ∧
      ∀ f ∈ sampleNest.byteFields,
        ∃ j, CodeObject.fieldIn sampleNest.toJson f.1 = some j ∧ j.IsHexOf f.2 := by
  have hdigits : IsDecimal "-18446744073709551616" :=
    ⟨"18446744073709551616".toList, by decide, List.all_eq_true.mp rfl, Or.inr rfl⟩
  have hhard : ∀ k ∈ hardConstants, k.Storable := by
    simp only [hardConstants, List.forall_mem_cons]
    refine ⟨.ellipsis, .int (by decide), .bigInt hdigits, .float (by decide),
      .complex (by decide) (by decide), .str _, .tuple ?_, List.forall_mem_nil _⟩
    simp only [List.forall_mem_cons]
    refine ⟨.frozenSet ?_, .bool true, List.forall_mem_nil _⟩
    simp only [List.forall_mem_cons]
    exact ⟨.bytes _, .none, List.forall_mem_nil _⟩
  have hstorable : sampleNest.Storable := by
    refine .mk (by decide) (by decide) ?_
    simp only [sampleNest, List.forall_mem_cons]
    refine ⟨.tuple ?_, List.forall_mem_nil _⟩
    simp only [List.forall_mem_cons]
    exact ⟨.code (.mk (by decide) (by decide) hhard), List.forall_mem_nil _⟩
  exact ⟨hstorable, storable_survives_json.2 sampleNest hstorable⟩

end Survival
end Disassembler
