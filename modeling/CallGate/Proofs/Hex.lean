import CallGate.Hex

/-!
# Which texts are byte strings

The digits of a byte string are ASCII characters, so a text whose bytes are all digits has one byte
a character. A text is read as a byte string exactly when it is what the byte string is written as,
up to the case of its letters.

* `decode_eq_ok_iff`: the texts that are read as a byte string.
* `map_toLower_encode`: a byte string is written in lower case.
-/

namespace CallGate.Hex

/-! ## Digits -/

/-- Among the ASCII characters, a digit is what is that digit in lower case. -/
theorem digitValue?_eq_some_iff_of_lt : ∀ n : Fin 128, ∀ d : Fin 16,
    digitValue? (UInt8.ofNat n.val) = some d.val ↔ (Char.ofNat n.val).toLower = digit d.val := by
  decide +kernel

/-- A digit is worth less than sixteen, and its byte is in ASCII. -/
theorem digitValue?_lt {byte : UInt8} {d : Nat} (h : digitValue? byte = some d) :
    d < 16 ∧ byte.toNat < 128 := by
  simp only [digitValue?] at h
  split at h
  · cases h; omega
  · split at h
    · cases h; omega
    · split at h
      · cases h; omega
      · cases h

/-- A character in ASCII is one byte, its code point. -/
theorem utf8EncodeChar_of_lt {c : Char} (h : c.toNat < 128) :
    String.utf8EncodeChar c = [UInt8.ofNat c.toNat] := by
  have hle : c.val.toNat ≤ 127 := Nat.le_of_lt_succ h
  simp only [String.utf8EncodeChar, if_pos hle]
  rfl

/-- A character beyond ASCII starts with a byte beyond ASCII. -/
theorem utf8EncodeChar_of_le {c : Char} (h : 128 ≤ c.toNat) :
    ∃ byte rest, String.utf8EncodeChar c = byte :: rest ∧ 128 ≤ byte.toNat := by
  have hnot : ¬c.val.toNat ≤ 127 := Nat.not_le.2 h
  simp only [String.utf8EncodeChar, if_neg hnot]
  split
  · exact ⟨_, _, rfl, by rw [UInt8.toNat_ofNat']; omega⟩
  · split
    · exact ⟨_, _, rfl, by rw [UInt8.toNat_ofNat']; omega⟩
    · exact ⟨_, _, rfl, by rw [UInt8.toNat_ofNat']; omega⟩

theorem eq_nil_of_utf8_eq_nil {text : List Char} (h : Text.utf8 text = []) : text = [] := by
  cases text with
  | nil => rfl
  | cons c rest =>
    rw [Text.utf8_cons, List.append_eq_nil_iff] at h
    exact absurd h.1 String.utf8EncodeChar_ne_nil

/-- The digits that are written are in ASCII. -/
theorem toNat_digit_lt : ∀ d : Fin 16, (digit d.val).toNat < 128 := by
  decide

/-- Beyond ASCII nothing changes in lower case. -/
theorem toLower_of_le {c : Char} (h : 128 ≤ c.toNat) : c.toLower = c := by
  have hnot : ¬(c.val ≥ 'A'.val ∧ c.val ≤ 'Z'.val) := by
    rintro ⟨-, hle⟩
    have hascii : c.toNat ≤ 90 := UInt32.le_iff_toNat_le.1 hle
    omega
  exact dif_neg hnot

/-- Beyond ASCII a character is its own lower case, and digits are in ASCII. -/
theorem toNat_lt_of_toLower_eq {c : Char} {d : Nat} (hd : d < 16) (h : c.toLower = digit d) :
    c.toNat < 128 := by
  refine Nat.lt_of_not_le fun hle => ?_
  rw [toLower_of_le hle] at h
  have hdigit := toNat_digit_lt ⟨d, hd⟩
  rw [← h] at hdigit
  omega

/-- A character that is a digit in lower case is one byte with the digit's value. -/
theorem utf8EncodeChar_of_toLower_eq {c : Char} {d : Nat} (hd : d < 16) (h : c.toLower = digit d) :
    ∃ byte, String.utf8EncodeChar c = [byte] ∧ digitValue? byte = some d := by
  have hascii := toNat_lt_of_toLower_eq hd h
  refine ⟨_, utf8EncodeChar_of_lt hascii, ?_⟩
  refine (digitValue?_eq_some_iff_of_lt ⟨c.toNat, hascii⟩ ⟨d, hd⟩).2 ?_
  rwa [Char.ofNat_toNat]

/-- A text that starts with the byte of a digit starts with a character that is the digit in lower
case. -/
theorem of_utf8_eq_cons {text : List Char} {byte : UInt8} {rest : Bytes} {d : Nat}
    (h : Text.utf8 text = byte :: rest) (hd : digitValue? byte = some d) :
    ∃ c others, text = c :: others ∧ rest = Text.utf8 others ∧ c.toLower = digit d := by
  obtain ⟨hlt, hbyte⟩ := digitValue?_lt hd
  cases text with
  | nil => cases h
  | cons c others =>
    rw [Text.utf8_cons] at h
    rcases Nat.lt_or_ge c.toNat 128 with hascii | hwide
    · rw [utf8EncodeChar_of_lt hascii] at h
      obtain ⟨rfl, rfl⟩ := List.cons.inj h
      refine ⟨c, others, rfl, rfl, ?_⟩
      have hdigit := (digitValue?_eq_some_iff_of_lt ⟨c.toNat, hascii⟩ ⟨d, hlt⟩).1 hd
      rwa [Char.ofNat_toNat] at hdigit
    · -- The first byte would be beyond ASCII, and no digit.
      obtain ⟨first, tail, hfirst, hle⟩ := utf8EncodeChar_of_le hwide
      rw [hfirst] at h
      obtain ⟨rfl, -⟩ := List.cons.inj h
      omega

/-! ## Pairs of digits -/

/-- What is read is empty and read from nothing, or its first byte is read from two digits. -/
theorem of_decodePairs_eq_ok {position : Nat} {digits bytes : Bytes}
    (h : decodePairs position digits = .ok bytes) :
    digits = [] ∧ bytes = [] ∨
    ∃ high low rest hi lo others, digits = high :: low :: rest ∧
      digitValue? high = some hi ∧ digitValue? low = some lo ∧
      bytes = UInt8.ofNat (16 * hi + lo) :: others ∧
      decodePairs (position + 2) rest = .ok others := by
  fun_cases decodePairs position digits with
  | case1 =>
    cases h
    exact .inl ⟨rfl, rfl⟩
  | case2 => cases h
  | case3 high low rest hhigh => simp only [decodePairs, hhigh] at h; cases h
  | case4 high low rest hi hlow hhigh => simp only [decodePairs, hhigh, hlow] at h; cases h
  | case5 high low rest hi lo hlow hhigh =>
    simp only [decodePairs, hhigh, hlow] at h
    cases hrest : decodePairs (position + 2) rest with
    | error fault => rw [hrest] at h; cases h
    | ok others =>
      rw [hrest] at h
      cases h
      exact .inr ⟨high, low, rest, hi, lo, others, rfl, hhigh, hlow, rfl, hrest⟩

/-- Two digits make a byte in front of those that the rest makes. -/
theorem decodePairs_cons_cons {high low : UInt8} {hi lo : Nat} (hhigh : digitValue? high = some hi)
    (hlow : digitValue? low = some lo) {position : Nat} {rest bytes : Bytes}
    (hrest : decodePairs (position + 2) rest = .ok bytes) :
    decodePairs position (high :: low :: rest) = .ok (UInt8.ofNat (16 * hi + lo) :: bytes) := by
  simp only [decodePairs, hhigh, hlow, hrest]
  rfl

/-- The digits of a byte are those of its halves. -/
theorem encodeByte_ofNat {hi lo : Nat} (hhi : hi < 16) (hlo : lo < 16) :
    encodeByte (UInt8.ofNat (16 * hi + lo)) = [digit hi, digit lo] := by
  have hnat : (UInt8.ofNat (16 * hi + lo)).toNat = 16 * hi + lo :=
    UInt8.toNat_ofNat_of_lt' (by show _ < 256; omega)
  have hdiv : (16 * hi + lo) / 16 = hi := by omega
  have hmod : (16 * hi + lo) % 16 = lo := by omega
  rw [encodeByte, hnat, hdiv, hmod]

/-- A text that is read as a byte string is in lower case what that is written as. -/
theorem map_toLower_of_decodePairs_eq_ok {position : Nat} {text : List Char} {bytes : Bytes}
    (h : decodePairs position (Text.utf8 text) = .ok bytes) :
    text.map Char.toLower = encode bytes := by
  induction bytes generalizing position text with
  | nil =>
    rcases of_decodePairs_eq_ok h with ⟨hempty, -⟩ | ⟨_, _, _, _, _, _, -, -, -, hbytes, -⟩
    · obtain rfl := eq_nil_of_utf8_eq_nil hempty
      rfl
    · cases hbytes
  | cons b bytes ih =>
    rcases of_decodePairs_eq_ok h with ⟨-, hbytes⟩ |
      ⟨high, low, rest, hi, lo, others, htext, hhigh, hlow, hbytes, hrest⟩
    · cases hbytes
    · obtain ⟨rfl, rfl⟩ := List.cons.inj hbytes
      -- Bytes that are digits are whole characters.
      obtain ⟨c, _, rfl, hlater, hc⟩ := of_utf8_eq_cons htext hhigh
      obtain ⟨c', text, rfl, rfl, hc'⟩ := of_utf8_eq_cons hlater.symm hlow
      rw [List.map_cons, List.map_cons, ih hrest, hc, hc', encode_cons,
        encodeByte_ofNat (digitValue?_lt hhigh).1 (digitValue?_lt hlow).1]
      rfl

/-- A text that is in lower case what a byte string is written as has two bytes for each of that,
and is read as it. -/
theorem decodePairs_of_map_toLower_eq (position : Nat) {text : List Char} {bytes : Bytes}
    (h : text.map Char.toLower = encode bytes) :
    (Text.utf8 text).length = 2 * bytes.length ∧
      decodePairs position (Text.utf8 text) = .ok bytes := by
  induction bytes generalizing position text with
  | nil =>
    obtain rfl : text = [] := List.map_eq_nil_iff.1 h
    exact ⟨rfl, rfl⟩
  | cons b bytes ih =>
    have hb : b.toNat < 256 := b.toNat_lt
    obtain ⟨c, _, rfl, hc, h⟩ := List.map_eq_cons_iff.1 h
    obtain ⟨c', text, rfl, hc', h⟩ := List.map_eq_cons_iff.1 h
    -- The two characters are digits, so each is one byte.
    obtain ⟨high, hchar, hhigh⟩ := utf8EncodeChar_of_toLower_eq (by omega) hc
    obtain ⟨low, hchar', hlow⟩ := utf8EncodeChar_of_toLower_eq (by omega) hc'
    obtain ⟨hlength, hrest⟩ := ih (position + 2) h
    have hbyte : UInt8.ofNat (16 * (b.toNat / 16) + b.toNat % 16) = b := by
      rw [Nat.div_add_mod, UInt8.ofNat_toNat]
    have htext : Text.utf8 (c :: c' :: text) = high :: low :: Text.utf8 text := by
      rw [Text.utf8_cons, Text.utf8_cons, hchar, hchar']
      rfl
    rw [htext, decodePairs_cons_cons hhigh hlow hrest, hbyte]
    refine ⟨?_, rfl⟩
    rw [List.length_cons, List.length_cons, List.length_cons, hlength]
    omega

/-- A text is read as a byte string exactly when it is what that is written as, up to case. -/
theorem decode_eq_ok_iff (text : List Char) (bytes : Bytes) :
    decode text = .ok bytes ↔ text.map Char.toLower = encode bytes := by
  constructor
  · intro h
    rw [decode] at h
    split at h
    · cases h
    · exact map_toLower_of_decodePairs_eq_ok h
  · intro h
    obtain ⟨hlength, hpairs⟩ := decodePairs_of_map_toLower_eq 0 h
    -- With two bytes of text for each byte, the number of them is even.
    have heven : ¬(Text.utf8 text).length % 2 = 1 := by omega
    rw [decode, if_neg heven, hpairs]

/-! ## What is shown -/

/-- The digits of a text in lower case, after the mark `0x`. -/
def lowered (digits : List Char) : String :=
  String.ofList ('0' :: 'x' :: digits.map Char.toLower)

/-- Digits that are in lower case those of a byte string show it. -/
theorem marked_eq_lowered {digits : List Char} {bytes : Bytes}
    (h : digits.map Char.toLower = encode bytes) : marked bytes = lowered digits := by
  rw [marked, lowered, h]

end CallGate.Hex
