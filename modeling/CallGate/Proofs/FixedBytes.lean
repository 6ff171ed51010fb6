import Mathlib.Algebra.Order.Ring.Nat
import Mathlib.Data.Nat.Digits.Defs
import Mathlib.Tactic.Ring
import CallGate.FixedBytes
import CallGate.Proofs.Bytes

/-!
# Byte strings of a fixed length as numbers

A byte string of `n` bytes is a number below `256 ^ n` whose digits in base 256 are its bytes, most
significant first. Every such number is that of one byte string, and the order of the byte strings,
byte by byte, is the order of their numbers.

* `Bytes.compare_eq_compare_toNatBE`: byte strings of one length compare as their numbers do.
* `FixedBytes.ofNat_toNat`, `FixedBytes.toNat_ofNat_of_lt`: from the number and back.
* `FixedBytes.compare_eq_compare_toNat`: the order of the numbers.
-/

namespace CallGate

namespace Bytes

/-- The bytes are the digits of their number in base 256. -/
theorem toNatLE_eq_ofDigits (bytes : Bytes) :
    toNatLE bytes = Nat.ofDigits 256 (bytes.map UInt8.toNat) := by
  induction bytes with
  | nil => rfl
  | cons b bs ih => simp [toNatLE, Nat.ofDigits_cons, ih]

/-- The bytes are the digits of the number to the base 256. -/
theorem toNatBE_eq_ofDigits (bytes : Bytes) :
    toNatBE bytes = Nat.ofDigits 256 (bytes.reverse.map UInt8.toNat) :=
  toNatLE_eq_ofDigits bytes.reverse

/-- The last byte counts most. -/
theorem toNatLE_append_singleton (bytes : Bytes) (b : UInt8) :
    toNatLE (bytes ++ [b]) = b.toNat * 256 ^ bytes.length + toNatLE bytes := by
  induction bytes with
  | nil => simp [toNatLE]
  | cons c bytes ih =>
    rw [List.cons_append, toNatLE, toNatLE, ih, List.length_cons]
    ring

/-- The first byte counts in units that are larger than all bytes behind it together. -/
theorem toNatBE_cons (b : UInt8) (bytes : Bytes) :
    toNatBE (b :: bytes) = b.toNat * 256 ^ bytes.length + toNatBE bytes := by
  rw [toNatBE, List.reverse_cons, toNatLE_append_singleton, List.length_reverse, toNatBE]

/-- A byte string spells a number below the next power of 256. -/
theorem toNatBE_lt (bytes : Bytes) : toNatBE bytes < 256 ^ bytes.length := by
  have h := toNatLE_lt bytes.reverse
  rwa [List.length_reverse] at h

/-- Numbers with a digit in front compare by that digit first, if what is behind it is less than the
digit's unit. -/
theorem compare_mul_add {unit a b c d : Nat} (hc : c < unit) (hd : d < unit) :
    compare (a * unit + c) (b * unit + d) = (compare a b).then (compare c d) := by
  rcases Nat.lt_trichotomy a b with hlt | rfl | hgt
  · have hnext : a * unit + unit ≤ b * unit := by
      rw [← Nat.succ_mul]
      exact Nat.mul_le_mul_right unit hlt
    have hsum : a * unit + c < b * unit + d := by omega
    rw [Nat.compare_eq_lt.2 hlt, Nat.compare_eq_lt.2 hsum]
    rfl
  · rw [Nat.compare_eq_eq.2 (rfl : a = a)]
    simp only [Nat.compare_eq_ite_lt, Nat.add_lt_add_iff_left, Ordering.then]
  · have hnext : b * unit + unit ≤ a * unit := by
      rw [← Nat.succ_mul]
      exact Nat.mul_le_mul_right unit hgt
    have hsum : b * unit + d < a * unit + c := by omega
    rw [Nat.compare_eq_gt.2 hgt, Nat.compare_eq_gt.2 hsum]
    rfl

/-- Byte strings of one length compare as their numbers do. -/
theorem compare_eq_compare_toNatBE {first second : Bytes} (h : first.length = second.length) :
    compare first second = compare (toNatBE first) (toNatBE second) := by
  induction first generalizing second with
  | nil =>
    obtain rfl := List.length_eq_zero_iff.1 h.symm
    rfl
  | cons x xs ih =>
    match second, h with
    | y :: ys, h =>
      have hlength : xs.length = ys.length := Nat.succ.inj h
      have hbyte : compare x y = compare x.toNat y.toNat := by
        simp only [compare, compareOfLessAndEq, UInt8.lt_iff_toNat_lt, UInt8.toNat_inj]
      have hxs : toNatBE xs < 256 ^ ys.length := hlength ▸ toNatBE_lt xs
      rw [List.compare_cons_cons, ih hlength, hbyte, toNatBE_cons, toNatBE_cons, hlength,
        compare_mul_add hxs (toNatBE_lt ys)]

end Bytes

namespace FixedBytes

variable {n : Nat}

/-- A value of `n` bytes is below `256 ^ n`. -/
theorem toNat_lt (x : FixedBytes n) : x.toNat < 256 ^ n := by
  have h := Bytes.toNatBE_lt x.bytes
  rwa [x.length_bytes] at h

/-- The big-endian bytes of the number that a fixed byte string stands for. -/
theorem ofNatBE_toNat (x : FixedBytes n) : Bytes.ofNatBE n x.toNat = x.bytes := by
  have h := Bytes.ofNatBE_toNatBE x.bytes
  rwa [x.length_bytes] at h

/-- A value is that of its number. -/
theorem ofNat_toNat (x : FixedBytes n) : ofNat x.toNat = x :=
  ext_bytes x.ofNatBE_toNat

/-- A number that the bytes can hold is that of its value. -/
theorem toNat_ofNat_of_lt {number : Nat} (h : number < 256 ^ n) :
    (ofNat number : FixedBytes n).toNat = number := by
  rw [toNat, ofNat, Bytes.toNatBE_ofNatBE, Nat.mod_eq_of_lt h]

/-- Different values have different numbers. -/
theorem toNat_injective : Function.Injective (toNat : FixedBytes n → Nat) :=
  Function.LeftInverse.injective ofNat_toNat

/-- Values compare as their numbers do. -/
theorem compare_eq_compare_toNat (first second : FixedBytes n) :
    compare first second = compare first.toNat second.toNat :=
  Bytes.compare_eq_compare_toNatBE (first.length_bytes.trans second.length_bytes.symm)

/-- The zero bytes spell zero. -/
theorem toNat_zero : (zero : FixedBytes n).toNat = 0 := by
  rw [toNat, Bytes.toNatBE_eq_ofDigits, zero]
  simp

/-- Only the zero bytes spell zero. -/
theorem isZero_iff_toNat_eq_zero (x : FixedBytes n) : x.isZero = true ↔ x.toNat = 0 := by
  rw [isZero_iff, ← toNat_zero, toNat_injective.eq_iff]

end FixedBytes

end CallGate
