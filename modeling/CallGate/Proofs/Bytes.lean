import Mathlib.Algebra.Ring.Nat
import CallGate.Bytes

/-!
# Numbers as byte strings

* `toNatLE_ofNatLE`, `toNatBE_ofNatBE`: writing `n` into `w` bytes and reading it back gives
  `n % 256 ^ w`, and so `n` if it is small enough (`toNatLE_ofNatLE_of_lt`).
* `ofNatLE_toNatLE`, `ofNatBE_toNatBE`: reading a byte string and writing the number into as many
  bytes gives the byte string back.
* `toIntLE`: the signed number that a byte string is in two's complement.
-/

namespace CallGate.Bytes

/-- A number that is written into `width` bytes is cut to what they can hold. -/
theorem toNatLE_ofNatLE (width n : Nat) : toNatLE (ofNatLE width n) = n % 256 ^ width := by
  induction width generalizing n with
  | zero => simp [ofNatLE, toNatLE, Nat.mod_one]
  | succ width ih =>
    have hb : (UInt8.ofNat n).toNat = n % 256 := UInt8.toNat_ofNat'
    rw [ofNatLE, toNatLE, ih, hb, Nat.pow_succ', Nat.mod_mul]

/-- A byte string is the number that it spells, written into as many bytes. -/
theorem ofNatLE_toNatLE (bytes : Bytes) : ofNatLE bytes.length (toNatLE bytes) = bytes := by
  induction bytes with
  | nil => rfl
  | cons b bs ih =>
    have hb : b.toNat < 256 := b.toNat_lt
    have hdiv : (b.toNat + 256 * toNatLE bs) / 256 = toNatLE bs := by omega
    have hmod : UInt8.ofNat (b.toNat + 256 * toNatLE bs) = b := by
      apply UInt8.toNat.inj
      rw [UInt8.toNat_ofNat']
      omega
    rw [List.length_cons, toNatLE, ofNatLE, hdiv, hmod, ih]

/-- A byte string spells a number below the next power of 256. -/
theorem toNatLE_lt (bytes : Bytes) : toNatLE bytes < 256 ^ bytes.length := by
  induction bytes with
  | nil => simp [toNatLE]
  | cons b bs ih =>
    have hb : b.toNat < 256 := b.toNat_lt
    rw [toNatLE, List.length_cons, Nat.pow_succ]
    omega

/-- A number that is written from its highest byte on is cut as well. -/
theorem toNatBE_ofNatBE (width n : Nat) : toNatBE (ofNatBE width n) = n % 256 ^ width := by
  simp [toNatBE, ofNatBE, toNatLE_ofNatLE]

/-- A byte string is the number that it spells from its highest byte on, written so again. -/
theorem ofNatBE_toNatBE (bytes : Bytes) : ofNatBE bytes.length (toNatBE bytes) = bytes := by
  have h := ofNatLE_toNatLE bytes.reverse
  rw [List.length_reverse] at h
  simp [toNatBE, ofNatBE, h]

/-! ## Numbers of fixed width -/

/-- A number that the bytes can hold is read back. -/
theorem toNatLE_ofNatLE_of_lt {width n : Nat} (h : n < 256 ^ width) :
    toNatLE (ofNatLE width n) = n := by
  rw [toNatLE_ofNatLE, Nat.mod_eq_of_lt h]

/-- Four bytes hold any number of 32 bits. -/
theorem ofNat_toNatLE_u32 (value : UInt32) :
    UInt32.ofNat (toNatLE (ofNatLE 4 value.toNat)) = value := by
  have hlt : value.toNat < 256 ^ 4 := value.toNat_lt
  rw [toNatLE_ofNatLE_of_lt hlt, UInt32.ofNat_toNat]

/-- Eight bytes hold any number of 64 bits. -/
theorem ofNat_toNatLE_u64 (value : UInt64) :
    UInt64.ofNat (toNatLE (ofNatLE 8 value.toNat)) = value := by
  have hlt : value.toNat < 256 ^ 8 := value.toNat_lt
  rw [toNatLE_ofNatLE_of_lt hlt, UInt64.ofNat_toNat]

/-- Any four bytes are those of a number of 32 bits. -/
theorem ofNatLE_toNat_u32 {bytes : Bytes} (h : bytes.length = 4) :
    ofNatLE 4 (UInt32.ofNat (toNatLE bytes)).toNat = bytes := by
  have hlt : toNatLE bytes < 2 ^ 32 := by
    have := toNatLE_lt bytes
    rwa [h] at this
  rw [UInt32.toNat_ofNat_of_lt' hlt, ← h, ofNatLE_toNatLE]

/-- Any eight bytes are those of a number of 64 bits. -/
theorem ofNatLE_toNat_u64 {bytes : Bytes} (h : bytes.length = 8) :
    ofNatLE 8 (UInt64.ofNat (toNatLE bytes)).toNat = bytes := by
  have hlt : toNatLE bytes < 2 ^ 64 := by
    have := toNatLE_lt bytes
    rwa [h] at this
  rw [UInt64.toNat_ofNat_of_lt' hlt, ← h, ofNatLE_toNatLE]

/-- The signed number whose bytes in two's complement these are, least significant first. -/
def toIntLE (bytes : Bytes) : Int :=
  (toNatLE bytes : Int).bmod (256 ^ bytes.length)

/-- A word of four bytes reads as a signed number the way two's complement has it. -/
theorem toInt_toInt32_ofNat {bytes : Bytes} (h : bytes.length = 4) :
    (UInt32.ofNat (toNatLE bytes)).toInt32.toInt = toIntLE bytes := by
  have hsize : 256 ^ 4 = 2 ^ 32 := by decide
  have hlt : toNatLE bytes < 2 ^ 32 := by
    have := toNatLE_lt bytes
    rwa [h, hsize] at this
  rw [toIntLE, h, hsize, ← Int32.toInt_toBitVec, UInt32.toBitVec_toInt32,
    BitVec.toInt_eq_toNat_bmod, UInt32.toNat_toBitVec, UInt32.toNat_ofNat_of_lt' hlt]

end CallGate.Bytes
