import CallGate.Proofs.Hex
import CallGate.Proofs.Hex.Message
import CallGate.Proofs.Text.Trim

/-!
# The grammar of hexadecimal texts

A byte string is spelled with two digits a byte, of either case and high half first. Where users
write byte strings, white space may surround the text, which is any of the characters that
`Text.isBlank_iff` lists, and one mark may stand in front of the digits; the body behind the mark
spells a byte string or is refused. It is refused for its length if it has an odd number of bytes,
and otherwise for the first byte that is no digit.

* `spells_iff`: a byte string is spelled as it is written, up to case.
* `decode_eq_ok_iff_spells`, `decode_eq_oddLength_iff`, `decode_eq_invalidDigit_iff`: the outcome of
  reading digits, for every text.
* `parse_marked`: what a byte string is shown as is read back.
* `parse_grammar`: the outcome of reading what a user writes, for every text.
-/

namespace CallGate.Hex

/-! ## Spelling -/

/-- A character is the digit of a value below sixteen, in either case. -/
def IsDigit (c : Char) (value : Nat) : Prop :=
  "0123456789abcdef".toList[value]? = some c ∨ "0123456789ABCDEF".toList[value]? = some c

instance (c : Char) (value : Nat) : Decidable (IsDigit c value) := by
  unfold IsDigit
  infer_instance

/-- A text is the digits of a byte string, the high half of each byte first. -/
inductive Spells : List Char → Bytes → Prop
  | nil : Spells [] []
  | cons {high low : Char} {hi lo : Nat} {text : List Char} {bytes : Bytes} :
      IsDigit high hi → IsDigit low lo → Spells text bytes →
      Spells (high :: low :: text) (UInt8.ofNat (16 * hi + lo) :: bytes)

/-- The digits are in ASCII, and none is white space or the letter of a mark. -/
theorem of_isDigit {c : Char} {value : Nat} (h : IsDigit c value) :
    value < 16 ∧ c.toNat < 128 ∧ Text.isBlank c = false ∧ c ≠ 'x' ∧ c ≠ 'X' := by
  have htable : ("0123456789abcdef".toList ++ "0123456789ABCDEF".toList).all fun c =>
      c.toNat < 128 ∧ Text.isBlank c = false ∧ c ≠ 'x' ∧ c ≠ 'X' := by
    decide +kernel
  simp only [List.all_eq_true, decide_eq_true_eq] at htable
  rcases h with h | h
  · obtain ⟨hlt, -⟩ := List.getElem?_eq_some_iff.1 h
    exact ⟨hlt, htable c (List.mem_append_left _ (List.mem_of_getElem? h))⟩
  · obtain ⟨hlt, -⟩ := List.getElem?_eq_some_iff.1 h
    exact ⟨hlt, htable c (List.mem_append_right _ (List.mem_of_getElem? h))⟩

/-- In ASCII, a character is a digit of a value if its lower case is the digit that is written. -/
theorem isDigit_iff_of_lt : ∀ n : Fin 128, ∀ d : Fin 16,
    IsDigit (Char.ofNat n.val) d.val ↔ (Char.ofNat n.val).toLower = digit d.val := by
  decide +kernel

/-- A digit of either case is in lower case the digit that is written. -/
theorem isDigit_iff (c : Char) (value : Nat) :
    IsDigit c value ↔ value < 16 ∧ c.toLower = digit value := by
  constructor
  · intro h
    obtain ⟨hvalue, hc, -⟩ := of_isDigit h
    have hlower := isDigit_iff_of_lt ⟨c.toNat, hc⟩ ⟨value, hvalue⟩
    simp only [Char.ofNat_toNat] at hlower
    exact ⟨hvalue, hlower.1 h⟩
  · rintro ⟨hvalue, h⟩
    have hlower := isDigit_iff_of_lt ⟨c.toNat, toNat_lt_of_toLower_eq hvalue h⟩ ⟨value, hvalue⟩
    simp only [Char.ofNat_toNat] at hlower
    exact hlower.2 h

/-- A byte string is spelled as it is written, up to case. -/
theorem spells_iff (text : List Char) (bytes : Bytes) :
    Spells text bytes ↔ text.map Char.toLower = encode bytes := by
  constructor
  · intro h
    induction h with
    | nil => rfl
    | cons hhigh hlow _ ih =>
      obtain ⟨hhi, hhigh⟩ := (isDigit_iff _ _).1 hhigh
      obtain ⟨hlo, hlow⟩ := (isDigit_iff _ _).1 hlow
      rw [List.map_cons, List.map_cons, ih, hhigh, hlow, encode_cons, encodeByte_ofNat hhi hlo]
      rfl
  · intro h
    induction bytes generalizing text with
    | nil =>
      obtain rfl : text = [] := List.map_eq_nil_iff.1 h
      exact .nil
    | cons b bytes ih =>
      have hb : b.toNat < 256 := b.toNat_lt
      obtain ⟨high, _, rfl, hhigh, h⟩ := List.map_eq_cons_iff.1 h
      obtain ⟨low, rest, rfl, hlow, h⟩ := List.map_eq_cons_iff.1 h
      -- The two digits are those of the halves of the byte.
      have hspells := Spells.cons ((isDigit_iff high _).2 ⟨by omega, hhigh⟩)
        ((isDigit_iff low _).2 ⟨by omega, hlow⟩) (ih rest h)
      rwa [Nat.div_add_mod, UInt8.ofNat_toNat] at hspells

/-- The texts that are decoded are those that spell bytes. -/
theorem decode_eq_ok_iff_spells (text : List Char) (bytes : Bytes) :
    decode text = .ok bytes ↔ Spells text bytes := by
  rw [decode_eq_ok_iff, spells_iff]

/-! ## The first byte that is no digit -/

/-- A byte is the UTF-8 form of a digit. -/
def IsDigitByte (byte : UInt8) : Prop :=
  ∃ c value, IsDigit c value ∧ String.utf8EncodeChar c = [byte]

/-- A byte at a position is no digit, and all bytes before it are. -/
structure FirstStray (bytes : Bytes) (position : Nat) (byte : UInt8) : Prop where
  found : bytes[position]? = some byte
  stray : ¬IsDigitByte byte
  least : ∀ earlier < position, ∀ other, bytes[earlier]? = some other → IsDigitByte other

/-- The bytes of digits are those that have a value. -/
theorem isDigitByte_iff (byte : UInt8) :
    IsDigitByte byte ↔ ∃ value, digitValue? byte = some value := by
  constructor
  · rintro ⟨c, value, hdigit, hc⟩
    obtain ⟨hvalue, hlower⟩ := (isDigit_iff c value).1 hdigit
    obtain ⟨_, hbyte, hread⟩ := utf8EncodeChar_of_toLower_eq hvalue hlower
    obtain rfl := List.singleton_inj.1 (hbyte.symm.trans hc)
    exact ⟨value, hread⟩
  · rintro ⟨value, hread⟩
    -- The byte is in ASCII, where it is the code point of its character.
    obtain ⟨hvalue, hascii⟩ := digitValue?_lt hread
    have hbytes : ∀ n : Fin 128,
        String.utf8EncodeChar (Char.ofNat n.val) = [UInt8.ofNat n.val] := by
      decide +kernel
    have hchar := hbytes ⟨byte.toNat, hascii⟩
    have hlower := digitValue?_eq_some_iff_of_lt ⟨byte.toNat, hascii⟩ ⟨value, hvalue⟩
    rw [UInt8.ofNat_toNat] at hchar hlower
    exact ⟨_, value, (isDigit_iff _ _).2 ⟨hvalue, hlower.1 hread⟩, hchar⟩

/-- The bytes of other characters have no value. -/
theorem not_isDigitByte_iff (byte : UInt8) : ¬IsDigitByte byte ↔ digitValue? byte = none := by
  rw [isDigitByte_iff, ← Option.isSome_iff_exists, Option.not_isSome_iff_eq_none]

/-- Where there is no byte, none is out of place. -/
theorem not_firstStray_nil (position : Nat) (byte : UInt8) : ¬FirstStray [] position byte := by
  intro h
  cases h.found

/-- The search ends at a byte that is no digit. -/
theorem firstStray_cons_of_not {first : UInt8} (h : ¬IsDigitByte first) (rest : Bytes)
    (position : Nat) (byte : UInt8) :
    FirstStray (first :: rest) position byte ↔ position = 0 ∧ byte = first := by
  constructor
  · intro hstray
    cases position with
    | zero => exact ⟨rfl, (Option.some.inj hstray.found).symm⟩
    | succ position => exact absurd (hstray.least 0 (Nat.succ_pos _) first rfl) h
  · rintro ⟨rfl, rfl⟩
    exact ⟨rfl, h, fun earlier hlt => absurd hlt (Nat.not_lt_zero _)⟩

/-- The search goes on behind a digit. -/
theorem firstStray_cons_of_isDigitByte {first : UInt8} (h : IsDigitByte first) (rest : Bytes)
    (position : Nat) (byte : UInt8) :
    FirstStray (first :: rest) position byte ↔
      ∃ before, position = before + 1 ∧ FirstStray rest before byte := by
  constructor
  · intro hstray
    cases position with
    | zero =>
      obtain rfl := Option.some.inj hstray.found
      exact absurd h hstray.stray
    | succ position =>
      refine ⟨position, rfl, hstray.found, hstray.stray, fun earlier hlt other hother => ?_⟩
      exact hstray.least (earlier + 1) (Nat.succ_lt_succ hlt) other hother
  · rintro ⟨before, rfl, hstray⟩
    refine ⟨hstray.found, hstray.stray, fun earlier hlt other hother => ?_⟩
    cases earlier with
    | zero =>
      obtain rfl := Option.some.inj hother
      exact h
    | succ earlier => exact hstray.least earlier (Nat.lt_of_succ_lt_succ hlt) other hother

/-- What is made of a result does not make it fail. -/
theorem bind_pure_eq_error_iff {ε α β : Type} (result : Except ε α) (f : α → β) (error : ε) :
    (result >>= fun a => pure (f a)) = .error error ↔ result = .error error := by
  cases result with
  | error cause =>
    show Except.error cause = _ ↔ _
    rw [Except.error.injEq, Except.error.injEq]
  | ok a => exact iff_of_false (fun h => nomatch h) (fun h => nomatch h)

/-- Pairs are refused for the first byte that is no digit, with its position. -/
theorem decodePairs_eq_error_iff (start : Nat) (bytes : Bytes) (heven : bytes.length % 2 = 0)
    (fault : Fault) :
    decodePairs start bytes = .error fault ↔
      ∃ position byte, FirstStray bytes position byte ∧
        fault = .invalidDigit byte (start + position) := by
  fun_induction decodePairs start bytes with
  | case1 start => simp [not_firstStray_nil]
  | case2 => cases heven
  | case3 start high low rest hhigh =>
    have hstray := (not_isDigitByte_iff high).2 hhigh
    simp [firstStray_cons_of_not hstray, eq_comm]
  | case4 start high low rest hi hlow hhigh =>
    have hdigit := (isDigitByte_iff high).2 ⟨hi, hhigh⟩
    have hstray := (not_isDigitByte_iff low).2 hlow
    simp [firstStray_cons_of_isDigitByte hdigit, firstStray_cons_of_not hstray, eq_comm]
  | case5 start high low rest hi lo hlow hhigh ih =>
    have hdigit := (isDigitByte_iff high).2 ⟨hi, hhigh⟩
    have hdigit' := (isDigitByte_iff low).2 ⟨lo, hlow⟩
    have hrest : rest.length % 2 = 0 := by
      simp only [List.length_cons] at heven
      omega
    -- Both digits of the pair stand before what is found in the rest.
    have hshift (position : Nat) : start + 2 + position = start + (position + 2) := by omega
    rw [bind_pure_eq_error_iff, ih hrest]
    constructor
    · rintro ⟨position, byte, hstray, rfl⟩
      refine ⟨position + 2, byte, ?_, by rw [hshift]⟩
      refine (firstStray_cons_of_isDigitByte hdigit _ _ _).2 ⟨position + 1, rfl, ?_⟩
      exact (firstStray_cons_of_isDigitByte hdigit' _ _ _).2 ⟨position, rfl, hstray⟩
    · rintro ⟨_, byte, hpair, rfl⟩
      obtain ⟨_, rfl, hlater⟩ := (firstStray_cons_of_isDigitByte hdigit _ _ _).1 hpair
      obtain ⟨position, rfl, hfound⟩ := (firstStray_cons_of_isDigitByte hdigit' _ _ _).1 hlater
      exact ⟨position, byte, hfound, by rw [hshift]⟩

/-- A text with an odd number of bytes is refused for that, whatever it holds. -/
theorem decode_eq_oddLength_iff (text : List Char) :
    decode text = .error .oddLength ↔ (Text.utf8 text).length % 2 = 1 := by
  rw [decode]
  split
  · next hodd => exact iff_of_true rfl hodd
  · next hodd =>
    refine iff_of_false (fun h => ?_) hodd
    obtain ⟨_, _, -, hfault⟩ := (decodePairs_eq_error_iff 0 _ (by omega) _).1 h
    cases hfault

/-- A text with an even number of bytes is refused for the first that is no digit. -/
theorem decode_eq_invalidDigit_iff (text : List Char) (byte : UInt8) (position : Nat) :
    decode text = .error (.invalidDigit byte position) ↔
      (Text.utf8 text).length % 2 = 0 ∧ FirstStray (Text.utf8 text) position byte := by
  rw [decode]
  split
  · next hodd =>
    refine iff_of_false (fun h => ?_) fun h => by omega
    cases h
  · next hodd =>
    have heven : (Text.utf8 text).length % 2 = 0 := by omega
    rw [decodePairs_eq_error_iff 0 _ heven]
    constructor
    · rintro ⟨_, _, hstray, hfault⟩
      cases hfault
      rw [Nat.zero_add]
      exact ⟨heven, hstray⟩
    · rintro ⟨-, hstray⟩
      exact ⟨position, byte, hstray, by rw [Nat.zero_add]⟩

/-! ## Marks -/

/-- The marks that may stand in front of a byte string. -/
def marks : List (List Char) :=
  [['0', 'x'], ['0', 'X']]

/-- A text behind the mark that it starts with, or all of it if it starts with no mark. -/
inductive Unmarks : List Char → List Char → Prop
  | marked {mark rest : List Char} : mark ∈ marks → Unmarks (mark ++ rest) rest
  | unmarked {text : List Char} : (∀ mark ∈ marks, ¬mark <+: text) → Unmarks text text

/-- A mark is `0x` or `0X`. -/
theorem mem_marks_iff (mark : List Char) :
    mark ∈ marks ↔ mark = ['0', 'x'] ∨ mark = ['0', 'X'] := by
  simp [marks]

/-- There is one way to leave a mark away. -/
theorem unmarks_iff (text rest : List Char) : Unmarks text rest ↔ rest = dropAnyMark text := by
  constructor
  · intro h
    cases h with
    | marked hmark => rcases (mem_marks_iff _).1 hmark with rfl | rfl <;> rfl
    | unmarked hnone =>
      -- No mark is in front, so none is dropped.
      fun_cases dropAnyMark text with
      | case1 rest =>
        exact absurd (List.prefix_append ['0', 'x'] rest) (hnone _ ((mem_marks_iff _).2 (.inl rfl)))
      | case2 rest =>
        exact absurd (List.prefix_append ['0', 'X'] rest) (hnone _ ((mem_marks_iff _).2 (.inr rfl)))
      | case3 => rfl
  · rintro rfl
    fun_cases dropAnyMark text with
    | case1 rest => exact .marked ((mem_marks_iff ['0', 'x']).2 (.inl rfl))
    | case2 rest => exact .marked ((mem_marks_iff ['0', 'X']).2 (.inr rfl))
    | case3 _ hlower hupper =>
      refine .unmarked fun mark hmark => ?_
      rcases (mem_marks_iff mark).1 hmark with rfl | rfl
      · rintro ⟨rest, rfl⟩
        exact hlower rest rfl
      · rintro ⟨rest, rfl⟩
        exact hupper rest rfl

/-- No spelling starts with a mark: its second character would be no digit. -/
theorem Spells.unmarked {text : List Char} {bytes : Bytes} (h : Spells text bytes) :
    ∀ mark ∈ marks, ¬mark <+: text := by
  intro mark hmark hprefix
  cases h with
  | nil => rcases (mem_marks_iff mark).1 hmark with rfl | rfl <;> simp at hprefix
  | cons _ hlow _ =>
    obtain ⟨-, -, -, hx, hX⟩ := of_isDigit hlow
    rcases (mem_marks_iff mark).1 hmark with rfl | rfl
    · exact hx (List.cons_prefix_cons.1 (List.cons_prefix_cons.1 hprefix).2).1.symm
    · exact hX (List.cons_prefix_cons.1 (List.cons_prefix_cons.1 hprefix).2).1.symm

/-! ## What a user writes -/

/-- What is left of a text without the white space around it and without the mark in front. -/
def IsBody (text body : List Char) : Prop :=
  ∃ core, Text.Encloses text core ∧ Unmarks core body

/-- There is one way to leave white space and a mark away. -/
theorem isBody_iff (text body : List Char) :
    IsBody text body ↔ body = dropAnyMark (Text.trim text) := by
  constructor
  · rintro ⟨core, hcore, hbody⟩
    obtain rfl := (Text.encloses_iff text core).1 hcore
    exact (unmarks_iff _ _).1 hbody
  · intro h
    exact ⟨_, (Text.encloses_iff text _).2 rfl, (unmarks_iff _ _).2 h⟩

/-- No digit is white space. -/
theorem Spells.isBlank_eq_false {text : List Char} {bytes : Bytes} (h : Spells text bytes) :
    ∀ c ∈ text, Text.isBlank c = false := by
  induction h with
  | nil => simp
  | cons hhigh hlow _ ih =>
    intro c hc
    rcases List.mem_cons.1 hc with rfl | hc
    · exact (of_isDigit hhigh).2.2.1
    · rcases List.mem_cons.1 hc with rfl | hc
      · exact (of_isDigit hlow).2.2.1
      · exact ih c hc

/-- A spelling is the body of the texts that are made of it with white space and a mark. -/
theorem Spells.isBody {digits : List Char} {bytes : Bytes} (h : Spells digits bytes)
    {before mark after : List Char} (hbefore : Text.AllBlank before) (hafter : Text.AllBlank after)
    (hmark : mark = [] ∨ mark ∈ marks) : IsBody (before ++ (mark ++ digits) ++ after) digits := by
  -- Neither marks nor digits hold white space, so what surrounds them is all that is cut.
  have hmarks : marks.all fun mark => mark.all fun c => !Text.isBlank c := by decide
  simp only [List.all_eq_true, Bool.not_eq_true'] at hmarks
  have hblank : ∀ c ∈ mark ++ digits, Text.isBlank c = false := by
    intro c hc
    rcases List.mem_append.1 hc with hc | hc
    · rcases hmark with rfl | hmark
      · cases hc
      · exact hmarks mark hmark c hc
    · exact h.isBlank_eq_false c hc
  have hbare : Text.Bare (mark ++ digits) :=
    ⟨fun c hc => hblank c (List.mem_of_mem_head? hc),
      fun c hc => hblank c (List.mem_of_mem_getLast? hc)⟩
  refine ⟨mark ++ digits, ⟨hbare, before, after, hbefore, hafter, rfl⟩, ?_⟩
  rcases hmark with rfl | hmark
  · exact .unmarked h.unmarked
  · exact .marked hmark

/-- A spelling is read with any mark in front of it and any white space around it. -/
theorem parse_of_spells {digits : List Char} {bytes : Bytes} (h : Spells digits bytes)
    {before mark after : List Char} (hbefore : Text.AllBlank before) (hafter : Text.AllBlank after)
    (hmark : mark = [] ∨ mark ∈ marks) :
    parse (before ++ (mark ++ digits) ++ after) = .ok bytes := by
  have hbody := (isBody_iff _ _).1 (h.isBody hbefore hafter hmark)
  rw [parse, ← hbody]
  exact (decode_eq_ok_iff_spells digits bytes).2 h

/-- What reading a body gives. -/
structure Reading (body : List Char) (result : Except Fault Bytes) : Prop where
  /-- It is accepted as the byte string that it spells. -/
  accepted : ∀ bytes, result = .ok bytes ↔ Spells body bytes
  /-- It is refused for its length if it has an odd number of bytes. -/
  odd : result = .error .oddLength ↔ (Text.utf8 body).length % 2 = 1
  /-- With an even number of bytes it is refused for the first that is no digit. -/
  stray : ∀ byte position, result = .error (.invalidDigit byte position) ↔
    (Text.utf8 body).length % 2 = 0 ∧ FirstStray (Text.utf8 body) position byte

/-- To decode a body is to read it by the grammar. -/
theorem reading_decode (body : List Char) : Reading body (decode body) where
  accepted := decode_eq_ok_iff_spells body
  odd := decode_eq_oddLength_iff body
  stray := decode_eq_invalidDigit_iff body

/-- Every text has one body. It is read as the byte string that its body spells, or refused for the
length of the body or for the first byte of it that is no digit, and the words for the fault tell
which. So the case of the digits, a mark in front of them and white space around them do not
matter. -/
theorem parse_grammar (text : List Char) :
    (∃ body, (∀ other, IsBody text other ↔ other = body) ∧ Reading body (parse text)) ∧
    Operand.bytes text = (parse text).mapError .bytes ∧
    (Function.Injective fun fault => (OperandError.bytes fault).message) ∧
    (∀ before mark digits after bytes, text = before ++ (mark ++ digits) ++ after →
      Text.AllBlank before → Text.AllBlank after → mark = [] ∨ mark ∈ marks →
      digits.map Char.toLower = encode bytes → parse text = .ok bytes) := by
  refine ⟨⟨_, isBody_iff text, reading_decode _⟩, rfl, OperandError.message_bytes_injective, ?_⟩
  rintro before mark digits after bytes rfl hbefore hafter hmark hdigits
  exact parse_of_spells ((spells_iff digits bytes).2 hdigits) hbefore hafter hmark

-- The first mark alone is dropped, the second is no digit; white space inside is no digit either,
-- and a character of two bytes makes an odd number of characters an even number of bytes.
example :
    parse "\u3000 0XaBcD\n".toList = .ok [0xAB, 0xCD] ∧
      parse "0x0x12".toList = .error (.invalidDigit 0x78 1) ∧
      parse "12 34".toList = .error .oddLength ∧
      parse "12  34".toList = .error (.invalidDigit 0x20 2) ∧
      parse "12é".toList = .error (.invalidDigit 0xC3 2) := by
  decide +kernel

end CallGate.Hex
