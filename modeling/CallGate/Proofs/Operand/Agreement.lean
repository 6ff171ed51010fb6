import CallGate.Proofs.Operand

/-!
# Values of a fixed length as byte strings

The readers of addresses and words are stricter than the reader of byte strings: they know the mark
`0x` alone. On every text without the other mark they agree with it, and on a text with the other
mark they fail. A value is shown as the text it was read from, behind the mark and in lower case.

* `FixedBytes.ofHex_eq_ok_iff_decode`: where a strict reader agrees with the reader of byte strings.
* `FixedBytes.eq_iff_of_ofHex`: when two texts are the same value.
* `FixedBytes.ofHex_of_digits`: what is said of digits for another number of bytes.
* `Operand.fixed_agreement`: all of this for addresses and words.
-/

namespace CallGate

namespace Hex

/-- The two ways to drop a mark differ on a capital mark alone. -/
theorem dropMark_eq_dropAnyMark {text : List Char} (h : ¬['0', 'X'] <+: text) :
    dropMark text = dropAnyMark text := by
  fun_cases dropAnyMark text with
  | case1 rest => rfl
  | case2 rest => exact absurd (List.prefix_append ['0', 'X'] rest) h
  | case3 _ hlower _ =>
    fun_cases dropMark text with
    | case1 rest => exact absurd rfl (hlower rest)
    | case2 => rfl

/-- The mark `0X` is not dropped, and its letter is no digit. -/
theorem not_spells_dropMark {text : List Char} (h : ['0', 'X'] <+: text)
    (bytes : Bytes) : ¬Spells (dropMark text) bytes := by
  obtain ⟨rest, rfl⟩ := h
  intro hspells
  exact hspells.unmarked _ ((mem_marks_iff _).2 (.inr rfl)) (List.prefix_append ['0', 'X'] rest)

/-- Digits do not start with a mark. -/
theorem dropMark_of_spells {text : List Char} {bytes : Bytes} (h : Spells text bytes) :
    dropMark text = text := by
  rw [dropMark_eq_dropAnyMark (h.unmarked _ ((mem_marks_iff _).2 (.inr rfl)))]
  exact ((unmarks_iff text text).1 (.unmarked h.unmarked)).symm

/-- Digits, two for each of a number of bytes, spell that many bytes. -/
theorem exists_spells {digits : List Char} {count : Nat} (hlength : digits.length = 2 * count)
    (hdigits : ∀ c ∈ digits, ∃ value, IsDigit c value) :
    ∃ bytes, Spells digits bytes ∧ bytes.length = count := by
  induction count generalizing digits with
  | zero =>
    obtain rfl := List.length_eq_zero_iff.1 hlength
    exact ⟨[], .nil, rfl⟩
  | succ count ih =>
    match digits, hlength with
    | high :: low :: rest, hlength =>
      simp only [List.forall_mem_cons] at hdigits
      obtain ⟨⟨hi, hhigh⟩, ⟨lo, hlow⟩, hrest⟩ := hdigits
      have hcount : rest.length = 2 * count := by
        simp only [List.length_cons] at hlength
        omega
      obtain ⟨bytes, hspells, hbytes⟩ := ih hcount hrest
      exact ⟨_, .cons hhigh hlow hspells, by rw [List.length_cons, hbytes]⟩

end Hex

namespace FixedBytes

variable {n : Nat}

/-- A strict reader agrees with the reader of byte strings, unless the mark is `0X`. -/
theorem ofHex_eq_ok_iff_decode (text : List Char) (x : FixedBytes n) :
    ofHex text = .ok x ↔
      Hex.decode (Hex.dropAnyMark text) = .ok x.bytes ∧ ¬['0', 'X'] <+: text := by
  rw [ofHex_eq_ok_iff, ← Hex.spells_iff, Hex.decode_eq_ok_iff_spells]
  constructor
  · intro hspells
    have hnot : ¬['0', 'X'] <+: text := fun h => Hex.not_spells_dropMark h _ hspells
    exact ⟨Hex.dropMark_eq_dropAnyMark hnot ▸ hspells, hnot⟩
  · rintro ⟨hspells, hnot⟩
    rwa [Hex.dropMark_eq_dropAnyMark hnot]

/-- A value is shown as the digits it was read from, in lower case. -/
theorem hex_of_ofHex {text : List Char} {x : FixedBytes n} (h : ofHex text = .ok x) :
    x.hex = Hex.lowered (Hex.dropMark text) :=
  Hex.marked_eq_lowered ((ofHex_eq_ok_iff text x).1 h)

/-- Two texts are the same value if they are the same text behind the mark, up to case. -/
theorem eq_iff_of_ofHex {text other : List Char} {x y : FixedBytes n} (hx : ofHex text = .ok x)
    (hy : ofHex other = .ok y) :
    x = y ↔ (Hex.dropMark text).map Char.toLower = (Hex.dropMark other).map Char.toLower := by
  have hlower := (ofHex_eq_ok_iff text x).1 hx
  constructor
  · rintro rfl
    rw [hlower, (ofHex_eq_ok_iff other x).1 hy]
  · intro h
    -- The other text is read as the first value too.
    have hother := (ofHex_eq_ok_iff other x).2 (h ▸ hlower)
    exact Except.ok.inj (hother.symm.trans hy)

/-- Digits for another number of bytes are refused with that number, marked or not. -/
theorem ofHex_of_digits {digits : List Char} {count : Nat} (hlength : digits.length = 2 * count)
    (hdigits : ∀ c ∈ digits, ∃ value, Hex.IsDigit c value) (hne : count ≠ n) :
    (ofHex digits : Except Fault (FixedBytes n)) = .error (.length count) ∧
      (ofHex ('0' :: 'x' :: digits) : Except Fault (FixedBytes n)) = .error (.length count) := by
  obtain ⟨bytes, hspells, rfl⟩ := Hex.exists_spells hlength hdigits
  have hread : ∀ text, Hex.dropMark text = digits →
      (ofHex text : Except Fault (FixedBytes n)) = .error (.length bytes.length) := by
    intro text htext
    rw [ofHex, htext, (Hex.decode_eq_ok_iff_spells _ _).2 hspells]
    show (ofSlice bytes : Except Fault (FixedBytes n)) = _
    rw [ofSlice, ofBytes?, dif_neg hne]
  exact ⟨hread digits (Hex.dropMark_of_spells hspells), hread _ rfl⟩

/-- Reading and showing the values of a length fit together. -/
structure Consistent (n : Nat) : Prop where
  /-- What a value is shown as is read as the value. -/
  readBack : ∀ x : FixedBytes n, ofHex x.hex.toList = .ok x
  /-- A value is shown as the digits it was read from, in lower case and marked. -/
  shown : ∀ text (x : FixedBytes n), ofHex text = .ok x → x.hex = Hex.lowered (Hex.dropMark text)
  /-- Texts are the same value if they are the same behind the mark and in lower case. -/
  same : ∀ text other (x y : FixedBytes n), ofHex text = .ok x → ofHex other = .ok y →
    (x = y ↔
      (Hex.dropMark text).map Char.toLower = (Hex.dropMark other).map Char.toLower)
  /-- Digits for another number of bytes are refused with that number. -/
  wrongLength : ∀ digits count, digits.length = 2 * count →
    (∀ c ∈ digits, ∃ value, Hex.IsDigit c value) → count ≠ n →
    (ofHex digits : Except Fault (FixedBytes n)) = .error (.length count) ∧
      (ofHex ('0' :: 'x' :: digits) : Except Fault (FixedBytes n)) = .error (.length count)

/-- Reading and showing fit together at every length. -/
theorem consistent (n : Nat) : Consistent n where
  readBack := ofHex_hex
  shown _ _ h := hex_of_ofHex h
  same _ _ _ _ hx hy := eq_iff_of_ofHex hx hy
  wrongLength _ _ hlength hdigits hne := ofHex_of_digits hlength hdigits hne

end FixedBytes

/-- An address or a word is read from a text exactly when the text is read as its bytes and has not
the mark `0X` behind its white space. Reading and showing addresses and words fit together. -/
theorem Operand.fixed_agreement :
    (∀ text address, Operand.address text = .ok address ↔
      Operand.bytes text = .ok address.bytes ∧ ¬['0', 'X'] <+: Text.trim text) ∧
    (∀ text word, Operand.word text = .ok word ↔
      Operand.bytes text = .ok word.bytes ∧ ¬['0', 'X'] <+: Text.trim text) ∧
    FixedBytes.Consistent 20 ∧ FixedBytes.Consistent 32 := by
  refine ⟨fun text address => ?_, fun text word => ?_, FixedBytes.consistent 20,
    FixedBytes.consistent 32⟩
  · rw [Operand.address, Operand.bytes, mapError_eq_ok_iff, mapError_eq_ok_iff]
    exact FixedBytes.ofHex_eq_ok_iff_decode _ address
  · rw [Operand.word, Operand.bytes, mapError_eq_ok_iff, mapError_eq_ok_iff]
    exact FixedBytes.ofHex_eq_ok_iff_decode _ word

end CallGate
