import Disassembler.Text.Literal
import Mathlib.Data.List.Basic

/-!
# Literals are read back

**Input.**  Any text, with either mark preferred, and any bytes.

**Results.**
* `unescape` undoes the escapes of what stands between the marks of a literal.
* `literals_readBack`: a literal is a body between two marks.  No control character stands in the
  body, the mark stands there only behind a backslash that escapes it, and undoing the escapes gives
  what the literal was written for.  Hence different texts have different literals, and so have
  different bytes.

**Argument.**  `Spelling` lists the ways to write one character.  A spelling is read as its character
whatever follows it, and leaves no backslash open that would escape what follows
(`Spelling.unescape_append`, `Spelling.escapesNext`).  So spellings can be put one after another
(`Says.cons`, `says_flatMap`).
-/

namespace Disassembler
namespace Text
namespace Literal

section Reading

/-- What a backslash and one more character stand for. -/
def short? : Char → Option Char
  | '\\' => some '\\'
  | 'n' => some '\n'
  | 'r' => some '\r'
  | 't' => some '\t'
  | '\'' => some '\''
  | '"' => some '"'
  | _ => none

/-- What a text says when its escapes are undone from left to right. -/
def unescape : List Char → Option (List Char)
  | [] => some []
  | '\\' :: 'x' :: high :: low :: rest =>
    match Hex.value? high, Hex.value? low with
    | some h, some l => (unescape rest).map (Char.ofNat (h * 16 + l) :: ·)
    | _, _ => none
  | '\\' :: letter :: rest =>
    match short? letter with
    | some c => (unescape rest).map (c :: ·)
    | none => none
  | ['\\'] => none
  | c :: rest => (unescape rest).map (c :: ·)

/-- Whether a text escapes the character after it. A backslash does so unless it is escaped
itself. -/
def escapesNext (before : List Char) : Bool :=
  before.foldl (fun escaped c => !escaped && c == '\\') false

theorem escapesNext_append
    {front : List Char}
    (h : escapesNext front = false)
    (back : List Char) :
    escapesNext (front ++ back) = escapesNext back := by
  unfold escapesNext at h ⊢
  rw [List.foldl_append, h]

/-- The body, between two marks, says the value, and all that stands in it is allowed there. -/
structure Says (mark : Quote) (Allowed : Char → Prop) (body value : List Char) : Prop where
  allowed : ∀ c ∈ body, Allowed c
  -- Wherever the mark stands, the backslash that escapes it stands before it.
  escaped : ∀ before after, body = before ++ mark.char :: after →
    ∃ earlier, before = earlier ++ ['\\'] ∧ escapesNext earlier = false
  unescaped : unescape body = some value

/-- A character that is no control character. -/
def NoControl (c : Char) : Prop :=
  ¬ (c.toNat ≤ 0x1F ∨ 0x7F ≤ c.toNat ∧ c.toNat ≤ 0x9F)

/-- A printable character of ASCII. -/
def Printable (c : Char) : Prop :=
  0x20 ≤ c.toNat ∧ c.toNat ≤ 0x7E

/-- The character with the number of a byte. -/
def byteChar (b : UInt8) : Char :=
  Char.ofNat b.toNat

end Reading

section Characters

instance : DecidablePred Printable :=
  fun _ => inferInstanceAs (Decidable (_ ∧ _))

theorem isControl_iff
    {c : Char} :
    isControl c = true ↔ c.toNat ≤ 0x1F ∨ 0x7F ≤ c.toNat ∧ c.toNat ≤ 0x9F := by
  rw [isControl, Bool.or_eq_true, Bool.and_eq_true, decide_eq_true_iff, decide_eq_true_iff,
    decide_eq_true_iff]
  omega

theorem Printable.noControl
    {c : Char}
    (h : Printable c) :
    NoControl c := by
  unfold Printable at h
  unfold NoControl
  omega

theorem toNat_byteChar
    (b : UInt8) :
    (byteChar b).toNat = b.toNat := by
  have hb : b.toNat < 256 := b.toNat_lt
  have hvalid : b.toNat.isValidChar := Or.inl (by omega)
  rw [byteChar, Char.ofNat, dif_pos hvalid]
  rfl

theorem byteChar_injective :
    Function.Injective byteChar := by
  intro a b h
  rw [← UInt8.toNat_inj, ← toNat_byteChar a, ← toNat_byteChar b, h]

theorem mark_ne_backslash
    (mark : Quote) :
    mark.char ≠ '\\' := by
  cases mark <;> decide

theorem short?_mark
    (mark : Quote) :
    short? mark.char = some mark.char := by
  cases mark <;> rfl

theorem printable_of_short?
    {letter c : Char}
    (h : short? letter = some c) :
    Printable letter := by
  unfold short? at h
  split at h
  case h_7 => cases h
  all_goals decide

theorem printable_digit
    {n : Nat}
    (h : n < 16) :
    Printable (Hex.digit n) := by
  revert n
  decide

theorem digit_ne_backslash
    {n : Nat}
    (h : n < 16) :
    Hex.digit n ≠ '\\' := by
  revert n
  decide

theorem digit_ne_mark
    {n : Nat}
    (h : n < 16)
    (mark : Quote) :
    Hex.digit n ≠ mark.char := by
  revert n
  cases mark <;> decide

end Characters

section Spellings

/-- The ways to write a character between two marks. -/
inductive Spelling (mark : Quote) (Allowed : Char → Prop) (c : Char) : List Char → Prop
  | short {letter : Char}
      (hshort : short? letter = some c) :
      Spelling mark Allowed c ['\\', letter]
  | byHex
      (hbyte : c.toNat < 256) :
      Spelling mark Allowed c (byHex c.toNat)
  | plain
      (hallowed : Allowed c)
      (hbackslash : c ≠ '\\')
      (hmark : c ≠ mark.char) :
      Spelling mark Allowed c [c]

variable {mark : Quote} {Allowed : Char → Prop} {c : Char} {text : List Char}

namespace Spelling

/-- A spelling that escapes its character is printable. -/
theorem allowed
    (h : Spelling mark Allowed c text)
    (hprintable : ∀ d, Printable d → Allowed d) :
    ∀ d ∈ text, Allowed d := by
  intro d hd
  cases h with
  | short hshort =>
      apply hprintable
      rcases List.mem_pair.mp hd with rfl | rfl
      · decide
      · exact printable_of_short? hshort
  | byHex hbyte =>
      apply hprintable
      simp only [Literal.byHex, List.mem_cons, List.not_mem_nil, or_false] at hd
      rcases hd with rfl | rfl | rfl | rfl
      · decide
      · decide
      · exact printable_digit (by omega)
      · exact printable_digit (by omega)
  | plain hallowed hbackslash hmark =>
      rw [List.mem_singleton.mp hd]
      exact hallowed

/-- No backslash is left open at the end. -/
theorem escapesNext
    (h : Spelling mark Allowed c text) :
    escapesNext text = false := by
  cases h with
  | short hshort =>
      rfl
  | byHex hbyte =>
      have low := digit_ne_backslash (show c.toNat % 16 < 16 by omega)
      simp [Literal.escapesNext, Literal.byHex, low]
  | plain hallowed hbackslash hmark =>
      simp [Literal.escapesNext, hbackslash]

/-- Where the mark stands in a spelling, it is escaped. -/
theorem eq_of_mark_mem
    (h : Spelling mark Allowed c text)
    (hmem : mark.char ∈ text) :
    text = ['\\', mark.char] := by
  cases h with
  | short hshort =>
      rcases List.mem_pair.mp hmem with hmark | rfl
      · exact absurd hmark (mark_ne_backslash mark)
      · rfl
  | byHex hbyte =>
      have high := digit_ne_mark (show c.toNat / 16 < 16 by omega) mark
      have low := digit_ne_mark (show c.toNat % 16 < 16 by omega) mark
      simp only [Literal.byHex, List.mem_cons, List.not_mem_nil, or_false] at hmem
      rcases hmem with hmark | hmark | hmark | hmark
      · exact absurd hmark (mark_ne_backslash mark)
      · cases mark <;> cases hmark
      · exact absurd hmark.symm high
      · exact absurd hmark.symm low
  | plain hallowed hbackslash hmark =>
      exact absurd (List.mem_singleton.mp hmem).symm hmark

/-- A spelling is read as its character, whatever follows it. -/
theorem unescape_append
    (h : Spelling mark Allowed c text)
    (rest : List Char) :
    unescape (text ++ rest) = (unescape rest).map (c :: ·) := by
  cases h with
  | short hshort =>
      have hletter : short? 'x' = none := rfl
      rw [List.cons_append, List.cons_append, List.nil_append, unescape, hshort]
      rintro high low rest rfl
      rw [hletter] at hshort
      cases hshort
  | byHex hbyte =>
      have high := (Hex.value?_digit (show c.toNat / 16 < 16 by omega)).1
      have low := (Hex.value?_digit (show c.toNat % 16 < 16 by omega)).1
      have whole : c.toNat / 16 * 16 + c.toNat % 16 = c.toNat := by omega
      simp [Literal.byHex, unescape, high, low, whole]
  | plain hallowed hbackslash hmark =>
      rw [List.singleton_append, unescape]
      -- Every earlier pattern begins with a backslash.
      all_goals
        intros
        contradiction

theorem eq_backslash_of_split
    {before after : List Char}
    (h : Spelling mark Allowed c text)
    (hsplit : text = before ++ mark.char :: after) :
    before = ['\\'] := by
  have hmem : mark.char ∈ text := by simp [hsplit]
  rw [h.eq_of_mark_mem hmem] at hsplit
  match before with
  | [] =>
      exact absurd (List.cons.inj hsplit).1.symm (mark_ne_backslash mark)
  | [d] =>
      rw [(List.cons.inj hsplit).1]
  | d :: e :: before =>
      simp at hsplit

end Spelling
end Spellings

section Bodies

variable {mark : Quote} {Allowed : Char → Prop} {c : Char} {text body value : List Char}

namespace Says

theorem nil :
    Says mark Allowed [] [] where
  allowed := by simp
  escaped := by simp
  unescaped := rfl

/-- A spelling in front of a body adds its character. -/
theorem cons
    (hprintable : ∀ d, Printable d → Allowed d)
    (hfirst : Spelling mark Allowed c text)
    (hrest : Says mark Allowed body value) :
    Says mark Allowed (text ++ body) (c :: value) where
  allowed := by
    intro d hd
    rcases List.mem_append.mp hd with hd | hd
    · exact hfirst.allowed hprintable d hd
    · exact hrest.allowed d hd
  escaped := by
    intro before after hsplit
    rcases List.append_eq_append_iff.mp hsplit with ⟨more, rfl, hbody⟩ | ⟨tail, htext, hafter⟩
    · -- The mark stands in the body, and the spelling before it escapes nothing there.
      obtain ⟨earlier, rfl, hearlier⟩ := hrest.escaped more after hbody
      exact ⟨text ++ earlier, (List.append_assoc ..).symm,
        (escapesNext_append hfirst.escapesNext earlier).trans hearlier⟩
    · cases tail with
      | nil =>
          -- At the front of the body, nothing would escape the mark.
          obtain ⟨earlier, hnil, _⟩ := hrest.escaped [] after hafter.symm
          simp at hnil
      | cons d tail =>
          obtain ⟨rfl, _⟩ := List.cons.inj hafter
          rw [hfirst.eq_backslash_of_split htext]
          exact ⟨[], rfl, rfl⟩
  unescaped := by
    rw [hfirst.unescape_append, hrest.unescaped]
    rfl

/-- A literal says one value only. -/
theorem eq_of_literal_eq
    {mark' : Quote} {Allowed' : Char → Prop} {body' value' : List Char}
    (h : Says mark Allowed body value)
    (h' : Says mark' Allowed' body' value')
    (heq : mark.char :: (body ++ [mark.char]) = mark'.char :: (body' ++ [mark'.char])) :
    value = value' := by
  obtain ⟨hmark, htail⟩ := List.cons.inj heq
  rw [hmark] at htail
  have hbody : body = body' := List.append_cancel_right htail
  have hvalue : some value = some value' := by
    rw [← h.unescaped, hbody, h'.unescaped]
  exact Option.some.inj hvalue

end Says

/-- Items that are spelled one after another make a body. -/
theorem says_flatMap
    {α : Type} {char : α → Char} {escape : α → List Char}
    (hprintable : ∀ d, Printable d → Allowed d)
    (hescape : ∀ a, Spelling mark Allowed (char a) (escape a))
    (items : List α) :
    Says mark Allowed (items.flatMap escape) (items.map char) := by
  induction items with
  | nil =>
      exact Says.nil
  | cons a items ih =>
      rw [List.flatMap_cons, List.map_cons]
      exact ih.cons hprintable (hescape a)

end Bodies

section Escapes

variable {mark : Quote} {Allowed : Char → Prop} {c : Char} {other : List Char}

/-- The escapes that a text and bytes have in common, before a character is written in another
way. -/
def escapeOr (mark c : Char) (other : List Char) : List Char :=
  if c = '\\' then ['\\', '\\']
  else if c = '\n' then ['\\', 'n']
  else if c = '\r' then ['\\', 'r']
  else if c = '\t' then ['\\', 't']
  else if c = mark then ['\\', c]
  else other

theorem escapeChar_eq
    (mark c : Char) :
    escapeChar mark c = escapeOr mark c (if isControl c then byHex c.toNat else [c]) :=
  rfl

theorem escapeByte_eq
    (mark : Char) (b : UInt8) :
    escapeByte mark b = escapeOr mark (byteChar b)
      (if 0x20 ≤ b.toNat ∧ b.toNat ≤ 0x7E then [byteChar b] else byHex b.toNat) :=
  rfl

theorem spelling_escapeOr
    (hother : c ≠ '\\' → c ≠ mark.char → Spelling mark Allowed c other) :
    Spelling mark Allowed c (escapeOr mark.char c other) := by
  unfold escapeOr
  split_ifs with hbackslash hfeed hreturn htab hmark
  · exact .short (by rw [hbackslash]; rfl)
  · exact .short (by rw [hfeed]; rfl)
  · exact .short (by rw [hreturn]; rfl)
  · exact .short (by rw [htab]; rfl)
  · exact .short (by rw [hmark]; exact short?_mark mark)
  · exact hother hbackslash hmark

theorem spelling_escapeChar
    (mark : Quote) (c : Char) :
    Spelling mark NoControl c (escapeChar mark.char c) := by
  rw [escapeChar_eq]
  refine spelling_escapeOr fun hbackslash hmark => ?_
  split_ifs with hcontrol
  · rw [isControl_iff] at hcontrol
    exact .byHex (by omega)
  · rw [isControl_iff] at hcontrol
    exact .plain hcontrol hbackslash hmark

theorem spelling_escapeByte
    (mark : Quote) (b : UInt8) :
    Spelling mark Printable (byteChar b) (escapeByte mark.char b) := by
  rw [escapeByte_eq, ← toNat_byteChar]
  refine spelling_escapeOr fun hbackslash hmark => ?_
  split_ifs with hprintable
  · exact .plain hprintable hbackslash hmark
  · exact .byHex (by rw [toNat_byteChar]; exact b.toNat_lt)

end Escapes

section Literals

theorem exists_says_quoteText
    (preferred : Quote) (s : String) :
    ∃ mark body,
      quoteText preferred s = String.ofList (mark.char :: (body ++ [mark.char])) ∧
        Says mark NoControl body s.toList := by
  have hsays : ∀ mark : Quote,
      Says mark NoControl (s.toList.flatMap (escapeChar mark.char)) s.toList := by
    intro mark
    have h := says_flatMap (fun _ => Printable.noControl) (spelling_escapeChar mark) s.toList
    rwa [List.map_id'] at h
  exact ⟨_, _, rfl, hsays _⟩

theorem exists_says_quoteBytes
    (bytes : List UInt8) :
    ∃ mark body,
      quoteBytes bytes = String.ofList ('b' :: mark.char :: (body ++ [mark.char])) ∧
        Says mark Printable body (bytes.map byteChar) :=
  ⟨_, _, rfl, says_flatMap (fun _ => id) (spelling_escapeByte _) bytes⟩

theorem quoteText_injective
    (preferred : Quote) :
    Function.Injective (quoteText preferred) := by
  intro s t h
  obtain ⟨mark, body, hs, hbody⟩ := exists_says_quoteText preferred s
  obtain ⟨mark', body', ht, hbody'⟩ := exists_says_quoteText preferred t
  rw [hs, ht, String.ofList_inj] at h
  exact String.toList_inj.mp (hbody.eq_of_literal_eq hbody' h)

theorem quoteBytes_injective :
    Function.Injective quoteBytes := by
  intro s t h
  obtain ⟨mark, body, hs, hbody⟩ := exists_says_quoteBytes s
  obtain ⟨mark', body', ht, hbody'⟩ := exists_says_quoteBytes t
  rw [hs, ht, String.ofList_inj] at h
  exact byteChar_injective.list_map (hbody.eq_of_literal_eq hbody' (List.cons.inj h).2)

/-- Literals are read back, and different values have different literals. -/
theorem literals_readBack :
    (∀ (preferred : Quote) (s : String), ∃ mark body,
      quoteText preferred s = String.ofList (mark.char :: (body ++ [mark.char])) ∧
        Says mark NoControl body s.toList) ∧
    (∀ bytes : List UInt8, ∃ mark body,
      quoteBytes bytes = String.ofList ('b' :: mark.char :: (body ++ [mark.char])) ∧
        Says mark Printable body (bytes.map byteChar)) ∧
    (∀ preferred : Quote, Function.Injective (quoteText preferred)) ∧
    Function.Injective quoteBytes :=
  ⟨exists_says_quoteText, exists_says_quoteBytes, quoteText_injective, quoteBytes_injective⟩

end Literals

end Literal
end Text
end Disassembler
