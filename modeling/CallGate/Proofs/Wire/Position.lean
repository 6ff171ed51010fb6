import Mathlib.Control.Monad.Basic
import CallGate.Proofs.Wire.Sequence

/-!
# Where a read leaves the cursor

A read of one piece takes all of its bytes or leaves the reader as it was. A counted byte string is
read in two pieces, its length and then its bytes. Where the length is there and the bytes are not,
the reader is left between the two. In every case the cursor stands where the error says that bytes
are missing.

* `Reader.Stays`: a read that fails leaves the reader as it was.
* `FieldType.of_read_eq_ok`, `FieldType.of_read_eq_error`: the reader after a read.
* `Reader.standsIn_after`: no reads leave the byte string.
* `Reader.attempt_position`: the cursor before and after any read.
-/

namespace CallGate

namespace Reader

variable {α β : Type}

/-- What comes of a read of a type, and the reader after it. -/
def attempt (reader : Reader) (type : FieldType) : Except WireError Field × Reader :=
  match type.read reader with
  | .ok field reader => (.ok field, reader)
  | .error error reader => (.error error, reader)

/-- The reader after reads one after the other, whether or not those before them failed. -/
def after (reader : Reader) (types : List FieldType) : Reader :=
  types.foldl (fun reader type => (reader.attempt type).2) reader

/-- An error that says that bytes are missing at the cursor. -/
def Misses (reader : Reader) (error : WireError) : Prop :=
  ∃ wanted, error = .truncated reader.position wanted reader.remaining ∧ reader.remaining < wanted

/-- A read that fails leaves the reader as it was, and says that bytes are missing there. -/
def Stays (read : Read α) : Prop :=
  ∀ ⦃reader reader' : Reader⦄ ⦃error : WireError⦄,
    read reader = .error error reader' → reader' = reader ∧ reader.Misses error

/-! ## Reads of one piece -/

/-- A reader is its position and what is in front of it. -/
theorem facing_eq_self (reader : Reader) : .facing reader.position reader.rest = reader := by
  obtain ⟨position, rest, remaining, rfl⟩ := reader
  rfl

/-- A take that fails moves nothing. -/
theorem stays_take (count : Nat) : Stays (take count) := by
  intro reader reader' error h
  unfold take at h
  split at h
  · cases h
  · next hcount =>
    cases h
    exact ⟨rfl, count, rfl, Nat.not_le.1 hcount⟩

/-- A read of a fixed length that fails moves nothing. -/
theorem stays_fixed (n : Nat) : Stays (fixed n) := by
  intro reader reader' error h
  unfold fixed at h
  split at h
  · cases h
  · next hlength =>
    cases h
    exact ⟨rfl, n, rfl, Nat.not_le.1 hlength⟩

/-- A value that is wrapped after it was read was read. -/
theorem of_map_eq_ok {read : Read α} {f : α → β} {reader reader' : Reader} {result : β}
    (h : (f <$> read) reader = .ok result reader') :
    ∃ value, read reader = .ok value reader' ∧ f value = result := by
  simp only [Functor.map, EStateM.map] at h
  split at h
  · next value middle hvalue =>
    cases h
    exact ⟨value, hvalue, rfl⟩
  · cases h

/-- To wrap the value of a read does not make it move where it fails. -/
theorem Stays.map {read : Read α} (hread : Stays read) (f : α → β) : Stays (f <$> read) := by
  intro reader reader' error h
  simp only [Functor.map, EStateM.map] at h
  split at h
  · cases h
  · next cause middle hcause =>
    cases h
    exact hread hcause

theorem stays_byte : Stays byte := by
  rw [byte, bind_pure_comp]
  exact (stays_take 1).map _

theorem stays_u32 : Stays u32 := by
  rw [u32, bind_pure_comp]
  exact (stays_take 4).map _

theorem stays_i32 : Stays i32 := by
  rw [i32, bind_pure_comp]
  exact stays_u32.map _

theorem stays_u64 : Stays u64 := by
  rw [u64, bind_pure_comp]
  exact (stays_take 8).map _

/-! ## Reads of two pieces -/

/-- A read of two parts fails in the first part, or in the second behind the first. -/
theorem of_bind_eq_error {first : Read α} {next : α → Read β} {reader last : Reader}
    {error : WireError} (h : (first >>= next) reader = .error error last) :
    first reader = .error error last ∨
      ∃ value middle, first reader = .ok value middle ∧ next value middle = .error error last := by
  cases hfirst : first reader with
  | ok value middle =>
    rw [bind_of_ok hfirst] at h
    exact .inr ⟨value, middle, rfl, h⟩
  | error cause middle =>
    rw [bind_of_error hfirst] at h
    cases h
    exact .inl rfl

/-- A number of 32 bits is read where there are four bytes, and moves the cursor behind them. -/
theorem of_u32_eq_ok {reader reader' : Reader} {value : UInt32}
    (h : u32 reader = .ok value reader') : 4 ≤ reader.remaining ∧ reader' = reader.advance 4 := by
  obtain ⟨bytes, middle, htake, hvalue⟩ := of_bind_eq_ok h
  cases hvalue
  unfold take at htake
  split at htake
  · next hcount =>
    cases htake
    exact ⟨hcount, rfl⟩
  · cases htake

/-- A counted byte string that cannot be read leaves the cursor where its bytes should begin, if
its length is there, and where it was otherwise. -/
theorem of_counted_eq_error {reader reader' : Reader} {error : WireError}
    (h : counted reader = .error error reader') :
    reader'.Misses error ∧
      reader' = if 4 ≤ reader.remaining then reader.advance 4 else reader := by
  rcases of_bind_eq_error h with hlength | ⟨length, middle, hlength, hbytes⟩
  · obtain ⟨rfl, hmisses⟩ := stays_u32 hlength
    refine ⟨hmisses, ?_⟩
    -- The length is missing, for it would have been read.
    rw [if_neg]
    intro hcount
    rw [← reader'.facing_eq_self, u32_of_le (reader'.remaining_eq ▸ hcount)] at hlength
    cases hlength
  · obtain ⟨hcount, rfl⟩ := of_u32_eq_ok hlength
    obtain ⟨rfl, hmisses⟩ := stays_take _ hbytes
    exact ⟨hmisses, (if_pos hcount).symm⟩

end Reader

/-! ## Reads of any type -/

namespace FieldType

open Reader

variable {type : FieldType} {reader reader' : Reader}

/-- A read of any type but a counted byte string moves nothing where it fails. -/
theorem stays_read (htype : type ≠ .counted) : Stays type.read := by
  cases type with
  | byte => exact stays_byte.map _
  | u32 => exact stays_u32.map _
  | i32 => exact stays_i32.map _
  | u64 => exact stays_u64.map _
  | raw length => exact (stays_take length).map _
  | counted => exact absurd rfl htype
  | address => exact (stays_fixed 20).map _
  | word => exact (stays_fixed 32).map _

/-- A value that is read as a field has been taken from in front of the cursor. -/
theorem of_map_takes {α : Type} {read : Read α} {wrap : α → Field} (htakes : Takes read wrap)
    (htype : ∀ value, (wrap value).type = type) {field : Field}
    (h : (wrap <$> read) reader = .ok field reader') :
    field.type = type ∧ ∃ behind, reader.rest = field.encoding ++ behind ∧
      reader' = .facing (reader.position + field.size) behind := by
  obtain ⟨value, hvalue, rfl⟩ := of_map_eq_ok h
  rw [← reader.facing_eq_self] at hvalue
  obtain ⟨-, behind, hrest, hreader⟩ := htakes hvalue
  rw [Field.length_encoding] at hreader
  exact ⟨htype value, behind, hrest, hreader⟩

/-- A field that is read is of the type asked for, and the cursor stands behind its bytes. -/
theorem of_read_eq_ok {field : Field} (h : type.read reader = .ok field reader') :
    field.type = type ∧ ∃ behind, reader.rest = field.encoding ++ behind ∧
      reader' = .facing (reader.position + field.size) behind := by
  cases type with
  | byte => exact of_map_takes takes_byte (fun _ => rfl) h
  | u32 => exact of_map_takes takes_u32 (fun _ => rfl) h
  | i32 => exact of_map_takes takes_i32 (fun _ => rfl) h
  | u64 => exact of_map_takes takes_u64 (fun _ => rfl) h
  | counted => exact of_map_takes takes_counted (fun _ => rfl) h
  | address => exact of_map_takes takes_address (fun _ => rfl) h
  | word => exact of_map_takes takes_word (fun _ => rfl) h
  | raw length =>
    -- How long the bytes are is known from the type, not from the bytes.
    obtain ⟨bytes, hbytes, rfl⟩ := of_map_eq_ok h
    rw [← reader.facing_eq_self] at hbytes
    obtain ⟨rfl, hbehind⟩ := of_take_eq_ok hbytes
    exact ⟨rfl, hbehind⟩

/-- A read that fails leaves the reader where bytes are missing: behind the length of a counted
byte string, if it is there, and where it was otherwise. -/
theorem of_read_eq_error {error : WireError} (h : type.read reader = .error error reader') :
    reader'.Misses error ∧
      reader' = if type = .counted ∧ 4 ≤ reader.remaining then reader.advance 4 else reader := by
  by_cases htype : type = .counted
  · subst htype
    simp only [read, Functor.map, EStateM.map] at h
    split at h
    · cases h
    · next cause middle hcause =>
      cases h
      simpa using of_counted_eq_error hcause
  · obtain ⟨rfl, hmisses⟩ := stays_read htype h
    exact ⟨hmisses, by simp [htype]⟩

end FieldType

namespace Reader

variable {bytes : Bytes} {reader : Reader} {type : FieldType}

/-- An attempt with a value is a read with that value. -/
theorem attempt_of_ok {field : Field} (h : (reader.attempt type).1 = .ok field) :
    type.read reader = .ok field (reader.attempt type).2 := by
  unfold attempt at h ⊢
  cases hread : type.read reader with
  | ok value middle =>
    simp only [hread] at h ⊢
    cases h
    rfl
  | error error middle =>
    simp only [hread] at h
    cases h

/-- An attempt with an error is a read with that error. -/
theorem attempt_of_error {error : WireError} (h : (reader.attempt type).1 = .error error) :
    type.read reader = .error error (reader.attempt type).2 := by
  unfold attempt at h ⊢
  cases hread : type.read reader with
  | ok value middle =>
    simp only [hread] at h
    cases h
  | error cause middle =>
    simp only [hread] at h ⊢
    cases h
    rfl

/-! ## Readers of one byte string -/

/-- A reader whose cursor stands in a byte string, or at its end. -/
def StandsIn (reader : Reader) (bytes : Bytes) : Prop :=
  reader.position ≤ bytes.length ∧ reader.rest = bytes.drop reader.position

theorem standsIn_ofBytes (bytes : Bytes) : (ofBytes bytes).StandsIn bytes :=
  ⟨Nat.zero_le _, rfl⟩

/-- What is read and what remains make up the byte string. -/
theorem StandsIn.position_add_remaining (h : reader.StandsIn bytes) :
    reader.position + reader.remaining = bytes.length := by
  obtain ⟨hposition, hrest⟩ := h
  rw [reader.remaining_eq, hrest, List.length_drop]
  omega

/-- A cursor that moves over bytes that are there stays within the byte string. -/
theorem StandsIn.advance {count : Nat} (h : reader.StandsIn bytes)
    (hcount : count ≤ reader.remaining) : (reader.advance count).StandsIn bytes := by
  have hlength := h.position_add_remaining
  obtain ⟨-, hrest⟩ := h
  refine ⟨?_, ?_⟩
  · show reader.position + count ≤ bytes.length
    omega
  · show reader.rest.drop count = bytes.drop (reader.position + count)
    rw [hrest, List.drop_drop]

/-- A field that was read is what stood in front of the cursor. -/
theorem StandsIn.attempt_ok (h : reader.StandsIn bytes) {field : Field}
    (hfield : (reader.attempt type).1 = .ok field) :
    field.type = type ∧ field.size ≤ reader.remaining ∧
      (bytes.drop reader.position).take field.size = field.encoding ∧
      (reader.attempt type).2 = reader.advance field.size := by
  obtain ⟨htype, behind, hrest, hreader⟩ := FieldType.of_read_eq_ok (attempt_of_ok hfield)
  have hlength := field.length_encoding
  refine ⟨htype, ?_, ?_, ?_⟩
  · rw [reader.remaining_eq, hrest, List.length_append]
    omega
  · rw [← h.2, hrest, List.take_left' hlength]
  · rw [hreader, ← reader.facing_eq_self, advance_facing, hrest, List.drop_left' hlength]
    rfl

/-- No read leaves the byte string. -/
theorem StandsIn.attempt (h : reader.StandsIn bytes) (type : FieldType) :
    (reader.attempt type).2.StandsIn bytes := by
  cases houtcome : (reader.attempt type).1 with
  | ok field =>
    obtain ⟨-, hsize, -, hreader⟩ := h.attempt_ok houtcome
    rw [hreader]
    exact h.advance hsize
  | error error =>
    obtain ⟨-, hreader⟩ := FieldType.of_read_eq_error (attempt_of_error houtcome)
    rw [hreader]
    split
    · next hcounted => exact h.advance hcounted.2
    · exact h

/-- No reads, whether they fail or not, leave the byte string that they began. -/
theorem standsIn_after (bytes : Bytes) (types : List FieldType) :
    ((ofBytes bytes).after types).StandsIn bytes := by
  suffices hrun : ∀ reader : Reader, reader.StandsIn bytes → (reader.after types).StandsIn bytes
    from hrun _ (standsIn_ofBytes bytes)
  induction types with
  | nil => exact fun _ h => h
  | cons type types ih => exact fun reader h => ih _ (h.attempt type)

/-- The cursor before and after a read, behind any reads of a byte string, failed ones included.

* What is read and what remains make up the byte string, before and after.
* A read that succeeds has found the bytes of its field at the cursor, and moves the cursor over
  these bytes.
* A read that fails says that bytes are missing where it leaves the cursor, which is not before
  where it was. The reader is left as it was, unless the read is that of a counted byte string
  whose length is there: then the cursor is left behind the length. -/
theorem attempt_position (bytes : Bytes) (types : List FieldType) (type : FieldType) :
    let reader := (ofBytes bytes).after types
    let outcome := (reader.attempt type).1
    let reader' := (reader.attempt type).2
    reader.position + reader.remaining = bytes.length ∧
    reader'.position + reader'.remaining = bytes.length ∧
    (∀ field, outcome = .ok field → field.type = type ∧
      (bytes.drop reader.position).take field.size = field.encoding ∧
      reader'.position = reader.position + field.size) ∧
    (∀ error, outcome = .error error →
      (∃ wanted, error = .truncated reader'.position wanted reader'.remaining ∧
        reader'.remaining < wanted) ∧
      reader.position ≤ reader'.position ∧
      (¬(type = .counted ∧ 4 ≤ reader.remaining) → reader' = reader) ∧
      (type = .counted ∧ 4 ≤ reader.remaining → reader'.position = reader.position + 4)) := by
  intro reader outcome reader'
  have hstands : reader.StandsIn bytes := standsIn_after bytes types
  refine ⟨hstands.position_add_remaining, (hstands.attempt type).position_add_remaining, ?_, ?_⟩
  · intro field hfield
    obtain ⟨htype, -, hencoding, hreader⟩ := hstands.attempt_ok hfield
    exact ⟨htype, hencoding, congrArg Reader.position hreader⟩
  · intro error herror
    obtain ⟨hmisses, hreader⟩ := FieldType.of_read_eq_error (attempt_of_error herror)
    refine ⟨hmisses, ?_, fun hplain => hreader.trans (if_neg hplain), fun hcounted => ?_⟩
    · -- The cursor moves over the length of a counted byte string or not at all.
      show reader.position ≤ (reader.attempt type).2.position
      rw [hreader]
      split
      · exact Nat.le_add_right _ _
      · exact Nat.le_refl _
    · exact congrArg Reader.position (hreader.trans (if_pos hcounted))

/-- A length of ten in front of four bytes: the read fails, and the cursor has moved over the
length. -/
theorem attempt_counted_moves :
    let reader := (ofBytes [10, 0, 0, 0, 0, 0, 0, 0]).after []
    (reader.attempt .counted).1 = .error (.truncated 4 10 4) ∧
      ¬((reader.attempt .counted).2.position = reader.position ∧
        (reader.attempt .counted).2.remaining = reader.remaining) := by
  decide

end Reader

end CallGate
