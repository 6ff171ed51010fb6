import CallGate.Proofs.Bytes
import CallGate.Wire.Field

/-!
# Reading what is in front of the cursor

Every reader is a position and the bytes after it. A read takes its bytes if there are enough of
them in front of the cursor, and otherwise names the place. When the encoding of a value stands in
front of the cursor, its read gives the value back and moves the cursor behind the encoding,
whatever follows.

* `take_of_le`, `take_of_lt`: when a read of some bytes succeeds.
* `byte_append`, `u32_append`, `u64_append`, `i32_append`, `fixed_append`, `counted_append`: each
  kind of value is read back from its encoding.
-/

namespace CallGate

namespace Reader

variable {α β : Type}

/-- The reader that has read `position` bytes and has `rest` in front of it. -/
def facing (position : Nat) (rest : Bytes) : Reader :=
  { ofBytes rest with position }

theorem remaining_facing (position : Nat) (rest : Bytes) :
    (Reader.facing position rest).remaining = rest.length := rfl

/-- The bytes that a reader moves over are no longer in front of it. -/
theorem advance_facing (position count : Nat) (rest : Bytes) :
    (Reader.facing position rest).advance count = .facing (position + count) (rest.drop count) := by
  simp [advance, facing, ofBytes]

/-- A read of a byte string begins at its first byte, and where it ends is forgotten. -/
theorem run_eq (read : Read α) (bytes : Bytes) :
    Reader.run read bytes = match read (.facing 0 bytes) with
      | .ok value _ => .ok value
      | .error error _ => .error error := rfl

/-- A read that succeeds hands its value and its reader to what follows. -/
theorem bind_of_ok {first : Read α} {next : α → Read β} {reader reader' : Reader} {value : α}
    (h : first reader = .ok value reader') : (first >>= next) reader = next value reader' := by
  simp only [bind, EStateM.bind, h]

/-- A read that fails ends what it is part of. -/
theorem bind_of_error {first : Read α} {next : α → Read β} {reader reader' : Reader}
    {error : WireError} (h : first reader = .error error reader') :
    (first >>= next) reader = .error error reader' := by
  simp only [bind, EStateM.bind, h]

theorem get_eq (reader : Reader) : (get : Read Reader) reader = .ok reader reader := rfl

/-! ## Bytes in front of the cursor -/

/-- Bytes are taken if there are enough, and the cursor moves behind them. -/
theorem take_of_le {count position : Nat} {rest : Bytes} (h : count ≤ rest.length) :
    take count (.facing position rest) =
      .ok (rest.take count) (.facing (position + count) (rest.drop count)) := by
  rw [take, remaining_facing, if_pos h, advance_facing]
  rfl

/-- If there are too few, the error tells where, how many were wanted and how many are left. -/
theorem take_of_lt {count position : Nat} {rest : Bytes} (h : rest.length < count) :
    take count (.facing position rest) =
      .error (.truncated position count rest.length) (.facing position rest) := by
  rw [take, remaining_facing, if_neg (Nat.not_le.2 h)]
  rfl

/-- The bytes in front of the cursor are taken as they are. -/
theorem take_append {count : Nat} {front : Bytes} (hfront : front.length = count)
    (position : Nat) (rest : Bytes) :
    take count (.facing position (front ++ rest)) =
      .ok front (.facing (position + count) rest) := by
  subst hfront
  rw [take_of_le (by simp), List.take_left, List.drop_left]

/-- A byte string of a fixed length is taken if there are enough bytes. -/
theorem fixed_of_le {n position : Nat} {rest : Bytes} (h : n ≤ rest.length) :
    fixed n (.facing position rest) =
      .ok ⟨rest.take n, List.length_take_of_le h⟩ (.facing (position + n) (rest.drop n)) := by
  have hremaining : n ≤ (Reader.facing position rest).remaining := h
  rw [fixed, dif_pos hremaining, advance_facing]
  rfl

/-- If there are too few, no part of it is taken. -/
theorem fixed_of_lt {n position : Nat} {rest : Bytes} (h : rest.length < n) :
    fixed n (.facing position rest) =
      .error (.truncated position n rest.length) (.facing position rest) := by
  have hremaining : ¬n ≤ (Reader.facing position rest).remaining := Nat.not_le.2 h
  rw [fixed, dif_neg hremaining]
  rfl

/-- A byte string of a fixed length is read back whatever follows it. -/
theorem fixed_append {n : Nat} (value : FixedBytes n) (position : Nat) (rest : Bytes) :
    fixed n (.facing position (value.bytes ++ rest)) = .ok value (.facing (position + n) rest) := by
  have hlength := value.length_bytes
  rw [fixed_of_le (by simp [hlength])]
  congr 1
  · exact FixedBytes.ext_bytes (List.take_left' hlength)
  · rw [List.drop_left' hlength]

/-- An address is the next twenty bytes. -/
theorem address_of_le (position : Nat) {rest : Bytes} (h : 20 ≤ rest.length) :
    ∃ value : Address, value.bytes = rest.take 20 ∧
      address (.facing position rest) = .ok value (.facing (position + 20) (rest.drop 20)) :=
  ⟨_, rfl, fixed_of_le h⟩

theorem address_of_lt {position : Nat} {rest : Bytes} (h : rest.length < 20) :
    address (.facing position rest) =
      .error (.truncated position 20 rest.length) (.facing position rest) :=
  fixed_of_lt h

/-- An address is read back whatever follows it. -/
theorem address_append (value : Address) (position : Nat) (rest : Bytes) :
    address (.facing position (value.bytes ++ rest)) = .ok value (.facing (position + 20) rest) :=
  fixed_append value position rest

/-- A word is read back whatever follows it. -/
theorem word_append (value : Word) (position : Nat) (rest : Bytes) :
    word (.facing position (value.bytes ++ rest)) = .ok value (.facing (position + 32) rest) :=
  fixed_append value position rest

/-! ## Numbers in front of the cursor -/

/-- A byte is read back whatever follows it. -/
theorem byte_append (value : UInt8) (position : Nat) (rest : Bytes) :
    byte (.facing position ([value] ++ rest)) = .ok value (.facing (position + 1) rest) := by
  have hfront : [value].length = 1 := rfl
  rw [byte, bind_of_ok (take_append hfront position rest)]
  have hvalue : UInt8.ofNat (Bytes.toNatLE [value]) = value := by simp [Bytes.toNatLE]
  rw [hvalue]
  rfl

/-- An unsigned number of 32 bits is the number of its four bytes. -/
theorem u32_of_le {position : Nat} {rest : Bytes} (h : 4 ≤ rest.length) :
    u32 (.facing position rest) =
      .ok (UInt32.ofNat (Bytes.toNatLE (rest.take 4))) (.facing (position + 4) (rest.drop 4)) := by
  rw [u32, bind_of_ok (take_of_le h)]
  rfl

/-- Fewer than four bytes are no unsigned number of 32 bits. -/
theorem u32_of_lt {position : Nat} {rest : Bytes} (h : rest.length < 4) :
    u32 (.facing position rest) =
      .error (.truncated position 4 rest.length) (.facing position rest) :=
  bind_of_error (take_of_lt h)

/-- An unsigned number of 32 bits is read back from its four bytes. -/
theorem u32_append (value : UInt32) (position : Nat) (rest : Bytes) :
    u32 (.facing position (Bytes.ofNatLE 4 value.toNat ++ rest)) =
      .ok value (.facing (position + 4) rest) := by
  have hlength := Bytes.length_ofNatLE 4 value.toNat
  rw [u32_of_le (by simp), List.take_left' hlength, List.drop_left' hlength,
    Bytes.ofNat_toNatLE_u32]

/-- An unsigned number of 64 bits is the number of its eight bytes. -/
theorem u64_of_le {position : Nat} {rest : Bytes} (h : 8 ≤ rest.length) :
    u64 (.facing position rest) =
      .ok (UInt64.ofNat (Bytes.toNatLE (rest.take 8))) (.facing (position + 8) (rest.drop 8)) := by
  rw [u64, bind_of_ok (take_of_le h)]
  rfl

theorem u64_of_lt {position : Nat} {rest : Bytes} (h : rest.length < 8) :
    u64 (.facing position rest) =
      .error (.truncated position 8 rest.length) (.facing position rest) :=
  bind_of_error (take_of_lt h)

theorem u64_append (value : UInt64) (position : Nat) (rest : Bytes) :
    u64 (.facing position (Bytes.ofNatLE 8 value.toNat ++ rest)) =
      .ok value (.facing (position + 8) rest) := by
  have hlength := Bytes.length_ofNatLE 8 value.toNat
  rw [u64_of_le (by simp), List.take_left' hlength, List.drop_left' hlength,
    Bytes.ofNat_toNatLE_u64]

/-- A signed number of 32 bits is the number of its four bytes in two's complement. -/
theorem i32_of_le (position : Nat) {rest : Bytes} (h : 4 ≤ rest.length) :
    ∃ value : Int32, value.toInt = Bytes.toIntLE (rest.take 4) ∧
      i32 (.facing position rest) = .ok value (.facing (position + 4) (rest.drop 4)) := by
  refine ⟨_, Bytes.toInt_toInt32_ofNat (List.length_take_of_le h), ?_⟩
  rw [i32, bind_of_ok (u32_of_le h)]
  rfl

theorem i32_of_lt {position : Nat} {rest : Bytes} (h : rest.length < 4) :
    i32 (.facing position rest) =
      .error (.truncated position 4 rest.length) (.facing position rest) :=
  bind_of_error (u32_of_lt h)

/-- A signed number of 32 bits is read back from the bytes of its two's complement. -/
theorem i32_append (value : Int32) (position : Nat) (rest : Bytes) :
    i32 (.facing position (Bytes.ofNatLE 4 value.toUInt32.toNat ++ rest)) =
      .ok value (.facing (position + 4) rest) := by
  rw [i32, bind_of_ok (u32_append _ _ _)]
  rfl

/-- A counted byte string is read back if its length fits the count. -/
theorem counted_append {bytes : Bytes} (h : bytes.length ≤ maxCountedLength) (position : Nat)
    (rest : Bytes) :
    counted (.facing position (Bytes.ofNatLE 4 bytes.length ++ (bytes ++ rest))) =
      .ok bytes (.facing (position + 4 + bytes.length) rest) := by
  have hlt : bytes.length < UInt32.size := Nat.lt_of_le_of_lt h (by decide)
  have hnat : (UInt32.ofNat bytes.length).toNat = bytes.length := UInt32.toNat_ofNat_of_lt' hlt
  rw [← hnat, counted, bind_of_ok (u32_append _ _ _), hnat, take_append rfl]

/-! ## The end of a record -/

/-- A record may end where no byte is left. -/
theorem finish_nil (record : Record) (position : Nat) :
    finish record (.facing position []) = .ok () (.facing position []) := rfl

end Reader

end CallGate
