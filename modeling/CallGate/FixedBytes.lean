import CallGate.Bytes

/-!
# Byte strings of a fixed length

`FixedBytes n` holds exactly `n` bytes. Account addresses have 20 bytes and machine words 32. Both
are ordered byte by byte and stand for big-endian numbers.
-/

namespace CallGate

/-- A byte string of exactly `n` bytes. -/
structure FixedBytes (n : Nat) where
  /-- The bytes, first byte first. -/
  bytes : Bytes
  /-- There are `n` of them. -/
  length_bytes : bytes.length = n
deriving DecidableEq

/-- The address of an account. -/
abbrev Address := FixedBytes 20

/-- A machine word: a storage key, a storage value, a hash, or an unsigned 256-bit number. -/
abbrev Word := FixedBytes 32

namespace FixedBytes

variable {n : Nat}

/-- All bytes zero. -/
def zero : FixedBytes n :=
  ⟨List.replicate n 0, List.length_replicate⟩

instance : Inhabited (FixedBytes n) := ⟨zero⟩

/-- Whether all bytes are zero. -/
def isZero (x : FixedBytes n) : Bool :=
  x.bytes.all (· == 0)

/-- A byte string of the right length. -/
def ofBytes? (bytes : Bytes) : Option (FixedBytes n) :=
  if h : bytes.length = n then some ⟨bytes, h⟩ else none

/-- The big-endian bytes of a number, reduced modulo `256 ^ n`. -/
def ofNat (value : Nat) : FixedBytes n :=
  ⟨Bytes.ofNatBE n value, Bytes.length_ofNatBE n value⟩

/-- The number whose big-endian bytes these are. -/
def toNat (x : FixedBytes n) : Nat :=
  Bytes.toNatBE x.bytes

/-- Values are compared at the first byte in which they differ. -/
instance : Ord (FixedBytes n) := ⟨fun a b => compare a.bytes b.bytes⟩

/-- Values are ordered as their bytes are. -/
theorem compare_eq (a b : FixedBytes n) : compare a b = compare a.bytes b.bytes := rfl

/-- A value is its bytes. -/
theorem ext_bytes {a b : FixedBytes n} (h : a.bytes = b.bytes) : a = b := by
  cases a; cases b; cases h; rfl

/-- Only the value with all bytes zero is zero. -/
theorem isZero_iff (x : FixedBytes n) : x.isZero = true ↔ x = zero := by
  constructor
  · intro h
    apply ext_bytes
    rw [zero, List.eq_replicate_iff]
    refine ⟨x.length_bytes, ?_⟩
    simpa [isZero] using h
  · rintro rfl
    simp [isZero, zero]

instance : Std.TransOrd (FixedBytes n) where
  eq_swap {a b} := Std.OrientedOrd.eq_swap (a := a.bytes) (b := b.bytes)
  isLE_trans {a b c} h₁ h₂ :=
    Std.TransOrd.isLE_trans (a := a.bytes) (b := b.bytes) (c := c.bytes) h₁ h₂

instance : Std.LawfulEqOrd (FixedBytes n) where
  compare_self {a} := Std.ReflOrd.compare_self (a := a.bytes)
  eq_of_compare h := ext_bytes (Std.LawfulEqOrd.eq_of_compare h)

end FixedBytes

end CallGate
