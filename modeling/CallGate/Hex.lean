import CallGate.Bytes
import CallGate.Decimal
import CallGate.Text.Blank
import CallGate.Text.Utf8

/-!
# Hexadecimal texts

Byte strings are written with two lower-case digits a byte, high half first. Reading accepts digits
of either case. A text with an odd number of bytes is refused before any of its characters is
looked at; otherwise the first byte that is no digit is named.

* `decodePairs_encode`: what `encode` writes, `decodePairs` reads back.
-/

namespace CallGate.Hex

/-- Why a text is no byte string. -/
inductive Fault where
  /-- The text has an odd number of bytes. -/
  | oddLength
  /-- A byte of the text, at this position, is no digit. -/
  | invalidDigit (byte : UInt8) (position : Nat)
deriving DecidableEq, Repr

/-- The character of a digit below sixteen. -/
def digit (d : Nat) : Char :=
  if d < 10 then Char.ofNat ('0'.toNat + d) else Char.ofNat ('a'.toNat + (d - 10))

/-- The value of a digit of either case, given as an ASCII byte. -/
def digitValue? (byte : UInt8) : Option Nat :=
  let b := byte.toNat
  if 0x30 ≤ b ∧ b ≤ 0x39 then some (b - 0x30)
  else if 0x41 ≤ b ∧ b ≤ 0x46 then some (b - 0x41 + 10)
  else if 0x61 ≤ b ∧ b ≤ 0x66 then some (b - 0x61 + 10)
  else none

/-- The two digits of a byte. -/
def encodeByte (b : UInt8) : List Char :=
  [digit (b.toNat / 16), digit (b.toNat % 16)]

/-- The digits of a byte string. -/
def encode (bytes : Bytes) : List Char :=
  bytes.flatMap encodeByte

/-- Read the digits of a byte string. The position is that of the first digit. -/
def decodePairs (position : Nat) : Bytes → Except Fault Bytes
  | [] => .ok []
  | [_] => .error .oddLength
  | high :: low :: rest =>
    match digitValue? high, digitValue? low with
    | none, _ => .error (.invalidDigit high position)
    | some _, none => .error (.invalidDigit low (position + 1))
    | some h, some l => do
      let bytes ← decodePairs (position + 2) rest
      return UInt8.ofNat (16 * h + l) :: bytes

/-- Read a text that consists of digits alone. -/
def decode (text : List Char) : Except Fault Bytes :=
  let bytes := Text.utf8 text
  if bytes.length % 2 = 1 then .error .oddLength else decodePairs 0 bytes

/-- A text without its first characters `0x`, if it starts with them. -/
def dropMark : List Char → List Char
  | '0' :: 'x' :: rest => rest
  | text => text

/-- A text without its first characters `0x` or `0X`, if it starts with them. -/
def dropAnyMark : List Char → List Char
  | '0' :: 'x' :: rest => rest
  | '0' :: 'X' :: rest => rest
  | text => text

/-- Read a byte string the way users write it: white space may surround it and `0x` or `0X` may
stand in front. -/
def parse (text : List Char) : Except Fault Bytes :=
  decode (dropAnyMark (Text.trim text))

/-- The digits of a byte string after the mark `0x`. -/
def marked (bytes : Bytes) : String :=
  String.ofList ('0' :: 'x' :: encode bytes)

/-- The digits of a number, most significant first and without leading zeros. -/
def numeral (n : Nat) : List Char :=
  if n < 16 then [digit n] else numeral (n / 16) ++ [digit (n % 16)]
termination_by n

/-- Whether a byte, taken as the code point of a character, is a visible character: no control
character, no space other than the ordinary one, and no soft hyphen. -/
def isVisible (byte : UInt8) : Bool :=
  let b := byte.toNat
  (0x20 ≤ b && b < 0x7F) || (0xA0 < b && b != 0xAD)

/-- A byte, taken as the code point of a character, between single quotes. Characters that are not
visible, the quote and the backslash are escaped. -/
def quoteByte (byte : UInt8) : String :=
  let body : List Char :=
    match Char.ofNat byte.toNat with
    | '\x00' => ['\\', '0']
    | '\t' => ['\\', 't']
    | '\n' => ['\\', 'n']
    | '\r' => ['\\', 'r']
    | '\'' => ['\\', '\'']
    | '\\' => ['\\', '\\']
    | c =>
      if isVisible byte then [c]
      else ['\\', 'u', '\x7b'] ++ numeral byte.toNat ++ ['\x7d']
  String.ofList ('\'' :: body ++ ['\''])

/-- The fault in words. -/
def Fault.message : Fault → String
  | .oddLength => "Odd number of digits"
  | .invalidDigit byte position =>
    "Invalid character " ++ quoteByte byte ++ " at position " ++ Decimal.text position

@[simp]
theorem encode_nil : encode [] = [] := rfl

@[simp]
theorem encode_cons (b : UInt8) (bytes : Bytes) :
    encode (b :: bytes) = encodeByte b ++ encode bytes := rfl

/-- Two digits stand for each byte. -/
@[simp]
theorem length_encode (bytes : Bytes) : (encode bytes).length = 2 * bytes.length := by
  induction bytes with
  | nil => rfl
  | cons b bs ih => simp [encodeByte, ih]; omega

/-- A digit is one byte of text, and that byte has the digit's value. -/
theorem utf8_digit (d : Fin 16) :
    String.utf8EncodeChar (digit d) = [UInt8.ofNat (digit d).toNat] ∧
      digitValue? (UInt8.ofNat (digit d).toNat) = some d.val := by
  revert d
  decide

/-- What `encode` writes is read back. -/
theorem decodePairs_encode (position : Nat) (bytes : Bytes) :
    decodePairs position (Text.utf8 (encode bytes)) = .ok bytes := by
  induction bytes generalizing position with
  | nil => rfl
  | cons b bs ih =>
    have hb : b.toNat < 256 := b.toNat_lt
    obtain ⟨hhigh, vhigh⟩ := utf8_digit ⟨b.toNat / 16, by omega⟩
    obtain ⟨hlow, vlow⟩ := utf8_digit ⟨b.toNat % 16, by omega⟩
    have hbyte : UInt8.ofNat (16 * (b.toNat / 16) + b.toNat % 16) = b := by
      rw [Nat.div_add_mod, UInt8.ofNat_toNat]
    simp only [encode_cons, encodeByte, List.cons_append, List.nil_append, Text.utf8_cons, hhigh,
      hlow, decodePairs, vhigh, vlow, ih, hbyte]
    rfl

end CallGate.Hex
