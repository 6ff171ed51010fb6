import CallGate.FixedBytes
import CallGate.Hex

/-!
# Operands

The texts in which users give addresses, words and byte strings. A fixed-length value is strict:
at most one mark `0x` in front, then exactly as many digits as it has bytes to fill. An operand is
the same text with white space around it allowed; a byte string of any length may also carry the
mark `0X`.

* `ofHex_hex`: the text of a value reads as the value.
-/

namespace CallGate

/-- Why a text or a byte string is no value of a fixed length. -/
inductive FixedBytes.Fault where
  /-- The text is not made of hexadecimal digits. -/
  | hex (fault : Hex.Fault)
  /-- There are this many bytes instead of the right number. -/
  | length (actual : Nat)
deriving DecidableEq, Repr

namespace FixedBytes

variable {n : Nat}

/-- A byte string as a value of a fixed length. -/
def ofSlice (bytes : Bytes) : Except Fault (FixedBytes n) :=
  match ofBytes? bytes with
  | some x => .ok x
  | none => .error (.length bytes.length)

/-- Read the digits of a value, after the mark `0x` if there is one. -/
def ofHex (text : List Char) : Except Fault (FixedBytes n) :=
  match Hex.decode (Hex.dropMark text) with
  | .ok bytes => ofSlice bytes
  | .error fault => .error (.hex fault)

/-- The digits of a value after the mark `0x`. -/
def hex (x : FixedBytes n) : String :=
  Hex.marked x.bytes

/-- The fault in words, for a kind of value that goes by the name `noun` and has `width` bytes. -/
def Fault.message (noun : String) (width : Nat) : Fault → String
  | .hex fault => "invalid hex string: " ++ fault.message
  | .length actual =>
    "invalid " ++ noun ++ " length: expected " ++ Decimal.text width ++ " bytes, got "
      ++ Decimal.text actual

end FixedBytes

/-- What is wrong with an address, in words. -/
def Address.faultMessage (fault : FixedBytes.Fault) : String :=
  fault.message "address" 20

/-- What is wrong with a word, in words. -/
def Word.faultMessage (fault : FixedBytes.Fault) : String :=
  fault.message "hash" 32

/-- An address with the name of its type, for diagnostics. -/
def Address.tagged (address : Address) : String :=
  "Address(" ++ address.hex ++ ")"

/-- A word with the name of its type, for diagnostics. -/
def Word.tagged (word : Word) : String :=
  "H256(" ++ word.hex ++ ")"

/-- Why a user's text is not the operand that was asked for. -/
inductive OperandError where
  /-- It is no address. -/
  | address (fault : FixedBytes.Fault)
  /-- It is no word. -/
  | word (fault : FixedBytes.Fault)
  /-- It is no byte string. -/
  | bytes (fault : Hex.Fault)
deriving DecidableEq, Repr

/-- The fault in words. -/
def OperandError.message : OperandError → String
  | .address fault => "invalid address: " ++ Address.faultMessage fault
  | .word fault => "invalid word: " ++ Word.faultMessage fault
  | .bytes fault => "invalid hex: " ++ fault.message

namespace Operand

/-- Read an address, with white space around it allowed. -/
def address (text : List Char) : Except OperandError Address :=
  (FixedBytes.ofHex (Text.trim text)).mapError .address

/-- Read a word, with white space around it allowed. -/
def word (text : List Char) : Except OperandError Word :=
  (FixedBytes.ofHex (Text.trim text)).mapError .word

/-- Read a byte string, with white space around it and either mark allowed. -/
def bytes (text : List Char) : Except OperandError Bytes :=
  (Hex.parse text).mapError .bytes

end Operand

namespace FixedBytes

variable {n : Nat}

/-- The bytes of a value make that value. -/
theorem ofSlice_bytes (x : FixedBytes n) : ofSlice x.bytes = .ok x := by
  simp [ofSlice, ofBytes?, x.length_bytes]

/-- The text of a value reads as the value. -/
theorem ofHex_hex (x : FixedBytes n) : ofHex x.hex.toList = .ok x := by
  have hutf : ∀ bytes : Bytes, (Text.utf8 (Hex.encode bytes)).length = 2 * bytes.length := by
    intro bytes
    induction bytes with
    | nil => rfl
    | cons b bs ih =>
      have hb : b.toNat < 256 := b.toNat_lt
      have hhigh := (Hex.utf8_digit ⟨b.toNat / 16, by omega⟩).1
      have hlow := (Hex.utf8_digit ⟨b.toNat % 16, by omega⟩).1
      simp only [Hex.encode_cons, Hex.encodeByte, List.cons_append, List.nil_append,
        Text.utf8_cons, hhigh, hlow, List.length_cons, ih]
      omega
  have hdecode : Hex.decode (Hex.encode x.bytes) = .ok x.bytes := by
    rw [Hex.decode, hutf, if_neg (by omega), Hex.decodePairs_encode]
  simp [ofHex, hex, Hex.marked, Hex.dropMark, hdecode, ofSlice_bytes]

end FixedBytes

end CallGate
