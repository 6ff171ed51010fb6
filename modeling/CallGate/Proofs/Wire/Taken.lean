import CallGate.Proofs.Wire.Capacity
import CallGate.Proofs.Wire.Cursor

/-!
# What a read has taken

The converse of reading back: a read that gives a value has found the value's field in front of the
cursor, byte for byte, and stands behind it. A field is never read from other bytes than those it
is written as, so a record that is read in full has no other form.

* `Reader.Takes`: a read gives nothing but the fields of one kind.
* `Reader.Takes.of_bind_eq_ok`: the first read of a sequence, and what the others had before them.
-/

namespace CallGate

/-- The lengths that can be counted are those of 32 bits. -/
theorem le_maxCountedLength_iff (length : Nat) : length ≤ maxCountedLength ↔ length < 2 ^ 32 := by
  rw [maxCountedLength]
  omega

namespace Reader

variable {α β : Type}

/-- A read gives a value only with the value's field in front of the cursor, and then leaves the
cursor behind that field. -/
def Takes (read : Read α) (field : α → Field) : Prop :=
  ∀ ⦃position : Nat⦄ ⦃rest : Bytes⦄ ⦃value : α⦄ ⦃reader : Reader⦄,
    read (.facing position rest) = .ok value reader →
      (field value).Countable ∧ ∃ behind, rest = (field value).encoding ++ behind ∧
        reader = .facing (position + (field value).encoding.length) behind

/-- A sequence that succeeds has a first read that succeeds, and goes on behind it. -/
theorem of_bind_eq_ok {first : Read α} {next : α → Read β} {reader last : Reader} {result : β}
    (h : (first >>= next) reader = .ok result last) :
    ∃ value middle, first reader = .ok value middle ∧ next value middle = .ok result last := by
  cases hfirst : first reader with
  | ok value middle => exact ⟨value, middle, rfl, by rwa [bind_of_ok hfirst] at h⟩
  | error error middle =>
    rw [bind_of_error hfirst] at h
    cases h

/-- In a sequence that succeeds the first read has taken a field, and the others go on behind
it. -/
theorem Takes.of_bind_eq_ok {first : Read α} {field : α → Field} (hfirst : Takes first field)
    {next : α → Read β} {position : Nat} {rest : Bytes} {last : Reader} {result : β}
    (h : (first >>= next) (.facing position rest) = .ok result last) :
    ∃ value behind, (field value).Countable ∧ rest = (field value).encoding ++ behind ∧
      next value (.facing (position + (field value).encoding.length) behind) =
        .ok result last := by
  obtain ⟨value, middle, hvalue, hnext⟩ := Reader.of_bind_eq_ok h
  obtain ⟨hcount, behind, hrest, rfl⟩ := hfirst hvalue
  exact ⟨value, behind, hcount, hrest, hnext⟩

/-! ## Each kind of field -/

/-- Bytes that were taken are the first ones, as many as were wanted. -/
theorem of_take_eq_ok {count position : Nat} {rest front : Bytes} {reader : Reader}
    (h : take count (.facing position rest) = .ok front reader) :
    front.length = count ∧ ∃ behind, rest = front ++ behind ∧
      reader = .facing (position + count) behind := by
  by_cases hle : count ≤ rest.length
  · rw [take_of_le hle] at h
    cases h
    exact ⟨List.length_take_of_le hle, rest.drop count, (List.take_append_drop _ _).symm, rfl⟩
  · rw [take_of_lt (Nat.not_le.1 hle)] at h
    cases h

/-- A value that is made of some bytes is read as its field if those are the bytes of the field. -/
theorem takes_of_take {count : Nat} {value : Bytes → α} {field : α → Field}
    (hcount : ∀ front, (field (value front)).Countable)
    (hfield : ∀ front, front.length = count → (field (value front)).encoding = front) :
    Takes (do return value (← take count)) field := by
  intro position rest result reader h
  obtain ⟨front, middle, hfront, hresult⟩ := of_bind_eq_ok h
  cases hresult
  obtain ⟨hlength, behind, hrest, rfl⟩ := of_take_eq_ok hfront
  rw [hfield front hlength]
  exact ⟨hcount front, behind, hrest, by rw [hlength]⟩

/-- A byte is taken as the field that it is. -/
theorem takes_byte : Takes byte .byte := by
  refine takes_of_take (fun _ => trivial) fun front hlength => ?_
  obtain ⟨value, rfl⟩ := List.length_eq_one_iff.1 hlength
  show [UInt8.ofNat (Bytes.toNatLE [value])] = [value]
  rw [Bytes.toNatLE, Bytes.toNatLE, Nat.mul_zero, Nat.add_zero, UInt8.ofNat_toNat]

/-- An unsigned number of 32 bits is taken as its four bytes. -/
theorem takes_u32 : Takes u32 .u32 :=
  takes_of_take (fun _ => trivial) fun _ => Bytes.ofNatLE_toNat_u32

/-- A signed number of 32 bits is taken as its four bytes. -/
theorem takes_i32 : Takes i32 .i32 := by
  intro position rest value reader h
  obtain ⟨bits, behind, -, hrest, h⟩ := takes_u32.of_bind_eq_ok h
  cases h
  exact ⟨trivial, behind, hrest, rfl⟩

theorem takes_u64 : Takes u64 .u64 :=
  takes_of_take (fun _ => trivial) fun _ => Bytes.ofNatLE_toNat_u64

/-- A value of a fixed length that was read is the bytes that stood in front. -/
theorem of_fixed_eq_ok {n position : Nat} {rest : Bytes} {value : FixedBytes n} {reader : Reader}
    (h : fixed n (.facing position rest) = .ok value reader) :
    ∃ behind, rest = value.bytes ++ behind ∧
      reader = .facing (position + value.bytes.length) behind := by
  by_cases hle : n ≤ rest.length
  · rw [fixed_of_le hle] at h
    cases h
    exact ⟨rest.drop n, (List.take_append_drop _ _).symm, by rw [List.length_take_of_le hle]⟩
  · rw [fixed_of_lt (Nat.not_le.1 hle)] at h
    cases h

theorem takes_address : Takes address .address :=
  fun _ _ _ _ h => ⟨trivial, of_fixed_eq_ok h⟩

theorem takes_word : Takes word .word :=
  fun _ _ _ _ h => ⟨trivial, of_fixed_eq_ok h⟩

/-- A counted byte string is taken with its length, which can be counted. -/
theorem takes_counted : Takes counted .counted := by
  intro position rest bytes reader h
  -- The count is a field of its own, and the bytes stand behind it.
  obtain ⟨count, behind, -, rfl, hbytes⟩ := takes_u32.of_bind_eq_ok h
  obtain ⟨hlength, rest', rfl, rfl⟩ := of_take_eq_ok hbytes
  refine ⟨?_, rest', ?_, ?_⟩
  · show bytes.length ≤ maxCountedLength
    rw [le_maxCountedLength_iff, hlength]
    exact count.toNat_lt
  · simp only [Field.encoding, hlength, List.append_assoc]
  · simp only [Field.encoding, hlength, List.length_append, Nat.add_assoc]

/-! ## The end of a record -/

/-- A record that is read to its end has nothing left behind it. -/
theorem of_finish_bind_eq_ok {record : Record} {next : Unit → Read β} {position : Nat}
    {rest : Bytes} {last : Reader} {result : β}
    (h : (finish record >>= next) (.facing position rest) = .ok result last) :
    rest = [] ∧ next () (.facing position rest) = .ok result last := by
  obtain ⟨⟨⟩, middle, hfinish, hnext⟩ := of_bind_eq_ok h
  rw [finish, bind_of_ok (get_eq _), remaining_facing] at hfinish
  by_cases hempty : rest.length = 0
  · simp only [hempty] at hfinish
    cases hfinish
    exact ⟨List.length_eq_zero_iff.1 hempty, hnext⟩
  · rw [if_neg hempty] at hfinish
    cases hfinish

/-- A byte string that was read was read from its first byte on. -/
theorem of_run_eq_ok {read : Read α} {bytes : Bytes} {value : α}
    (h : Reader.run read bytes = .ok value) :
    ∃ reader, read (.facing 0 bytes) = .ok value reader := by
  rw [run_eq] at h
  split at h
  · next found reader heq =>
    cases h
    exact ⟨reader, heq⟩
  · cases h

end Reader

end CallGate
