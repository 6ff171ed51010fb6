/-!
# Byte strings

Byte strings are lists of bytes. A natural number is written into a fixed number of bytes in
either byte order, and any byte string is read back as a number.
-/

namespace CallGate

/-- A byte string. -/
abbrev Bytes := List UInt8

namespace Bytes

/-- The `width` low-order bytes of a number, least significant first. -/
def ofNatLE : (width n : Nat) → Bytes
  | 0, _ => []
  | width + 1, n => UInt8.ofNat n :: ofNatLE width (n / 256)

/-- The number whose bytes these are, least significant first. -/
def toNatLE : Bytes → Nat
  | [] => 0
  | b :: bs => b.toNat + 256 * toNatLE bs

/-- The `width` low-order bytes of a number, most significant first. -/
def ofNatBE (width n : Nat) : Bytes :=
  (ofNatLE width n).reverse

/-- The number whose bytes these are, most significant first. -/
def toNatBE (bytes : Bytes) : Nat :=
  toNatLE bytes.reverse

/-- A number is written into as many bytes as wanted. -/
@[simp]
theorem length_ofNatLE (width n : Nat) : (ofNatLE width n).length = width := by
  induction width generalizing n with
  | zero => rfl
  | succ width ih => simp [ofNatLE, ih]

/-- A number is written into as many bytes as wanted, also from the highest on. -/
@[simp]
theorem length_ofNatBE (width n : Nat) : (ofNatBE width n).length = width := by
  simp [ofNatBE]

end Bytes

end CallGate
