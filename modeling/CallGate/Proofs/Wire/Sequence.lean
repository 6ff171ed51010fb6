import CallGate.Proofs.Wire.Taken

/-!
# Fields in sequence

Any fields can follow one another in a message. They are written one by one if there is room for
all, and are read back one by one under their types, whatever follows them: each read starts where
the write of its field started.

* `Field.size`: how many bytes a field takes.
* `Field.put_after`: each field of a sequence that fits is written behind those before it.
* `FieldType.readAll_append`: a sequence of fields in front of the cursor is read back.
* `Field.readAll_putAll`: what is written is read back.
-/

namespace CallGate

namespace Field

/-- How many bytes a field takes. -/
def size : Field → Nat
  | .byte _ => 1
  | .u32 _ => 4
  | .i32 _ => 4
  | .u64 _ => 8
  | .raw bytes => bytes.length
  | .counted bytes => 4 + bytes.length
  | .address _ => 20
  | .word _ => 32

/-- A field takes as many bytes as its size says. -/
theorem length_encoding (field : Field) : field.encoding.length = field.size := by
  cases field with
  | byte value => rfl
  | raw bytes => rfl
  | u32 value => exact Bytes.length_ofNatLE 4 _
  | i32 value => exact Bytes.length_ofNatLE 4 _
  | u64 value => exact Bytes.length_ofNatLE 8 _
  | counted bytes => rw [encoding, List.length_append, Bytes.length_ofNatLE, size]
  | address value => exact value.length_bytes
  | word value => exact value.length_bytes

/-- The fields of two lists are written one list after the other. -/
theorem encodings_append (first second : List Field) :
    encodings (first ++ second) = encodings first ++ encodings second :=
  List.flatMap_append

/-- Fields take as many bytes as their sizes say together. -/
theorem length_encodings (fields : List Field) :
    (encodings fields).length = (fields.map size).sum := by
  induction fields with
  | nil => rfl
  | cons field fields ih =>
    rw [encodings_cons, List.length_append, ih, length_encoding, List.map_cons, List.sum_cons]

/-! ## Writing -/

/-- In a sequence that fits, each field is written behind the fields before it. -/
theorem put_after {before after : List Field} {field : Field} {writer : Writer}
    (hcount : ∀ other ∈ before ++ field :: after, other.Countable)
    (hroom : writer.HasRoom (encodings (before ++ field :: after)).length) :
    putAll before writer = .ok () (writer.append (encodings before)) ∧
      field.put (writer.append (encodings before)) =
        .ok () ((writer.append (encodings before)).append field.encoding) := by
  obtain ⟨hbefore, hothers⟩ := List.forall_mem_append.1 hcount
  -- The room for all is room for those before, then for the field, then for those after.
  rw [encodings_append, encodings_cons, List.length_append, List.length_append, Writer.hasRoom_add,
    Writer.hasRoom_add] at hroom
  obtain ⟨hroomBefore, hroomField, -⟩ := hroom
  refine ⟨putAll_of_hasRoom hbefore hroomBefore, ?_⟩
  exact (put_eq_ok_iff _ _ _).2 ⟨hothers field List.mem_cons_self, hroomField, rfl⟩

end Field

/-! ## Reading -/

/-- A value that is read is turned into another without moving the cursor. -/
theorem Reader.map_of_ok {α β : Type} {read : Read α} {reader reader' : Reader} {value : α}
    (f : α → β) (h : read reader = .ok value reader') :
    (f <$> read) reader = .ok (f value) reader' := by
  simp only [Functor.map, EStateM.map, h]

namespace FieldType

/-- Read fields of the given types one after the other. -/
def readAll (types : List FieldType) : Read (List Field) :=
  types.mapM read

theorem readAll_nil : readAll [] = pure [] :=
  List.mapM_nil

/-- Fields are read in the order of their types, and the first that cannot be read ends it. -/
theorem readAll_cons (type : FieldType) (types : List FieldType) :
    readAll (type :: types) = do
      let field ← type.read
      let fields ← readAll types
      return field :: fields :=
  List.mapM_cons

/-- A field in front of the cursor is read back under its type. -/
theorem read_append {field : Field} (hcount : field.Countable) (position : Nat) (rest : Bytes) :
    field.type.read (.facing position (field.encoding ++ rest)) =
      .ok field (.facing (position + field.size) rest) := by
  cases field with
  | byte value => exact Reader.map_of_ok _ (Reader.byte_append value position rest)
  | u32 value => exact Reader.map_of_ok _ (Reader.u32_append value position rest)
  | i32 value => exact Reader.map_of_ok _ (Reader.i32_append value position rest)
  | u64 value => exact Reader.map_of_ok _ (Reader.u64_append value position rest)
  | raw bytes => exact Reader.map_of_ok _ (Reader.take_append rfl position rest)
  | counted bytes =>
    rw [Field.encoding, List.append_assoc, Field.size, ← Nat.add_assoc]
    exact Reader.map_of_ok _ (Reader.counted_append hcount position rest)
  | address value => exact Reader.map_of_ok _ (Reader.address_append value position rest)
  | word value => exact Reader.map_of_ok _ (Reader.word_append value position rest)

/-- Fields in front of the cursor are read back one after the other. -/
theorem readAll_append {fields : List Field} (hcount : ∀ field ∈ fields, field.Countable)
    (position : Nat) (rest : Bytes) :
    readAll (fields.map Field.type) (.facing position (Field.encodings fields ++ rest)) =
      .ok fields (.facing (position + (fields.map Field.size).sum) rest) := by
  induction fields generalizing position with
  | nil => rw [List.map_nil, readAll_nil]; rfl
  | cons field fields ih =>
    obtain ⟨hfield, hfields⟩ := List.forall_mem_cons.1 hcount
    have hfirst := read_append hfield position (Field.encodings fields ++ rest)
    rw [List.map_cons, readAll_cons, Field.encodings_cons, List.append_assoc,
      Reader.bind_of_ok hfirst, Reader.bind_of_ok (ih hfields _), List.map_cons, List.sum_cons,
      Nat.add_assoc]
    rfl

end FieldType

namespace Field

/-- Byte strings below the range of the count can be counted. -/
theorem countable_of_length_lt {fields : List Field}
    (h : ∀ bytes, .counted bytes ∈ fields → bytes.length < 2 ^ 32) :
    ∀ field ∈ fields, field.Countable := by
  intro field hfield
  cases field with
  | counted bytes => exact (le_maxCountedLength_iff _).2 (h bytes hfield)
  | _ => trivial

/-- Writer and reader agree on every sequence of fields whose counted byte strings are shorter than
`2 ^ 32` bytes, under every capacity of 64 bits that holds all their bytes.

* Each field is written behind those before it.
* What is written takes as many bytes as the fields do together.
* Under the types of the fields, the bytes written, with any others behind them, are read as the
  fields. The reader has then read all that was written, and has all the others left. -/
theorem readAll_putAll (fields : List Field)
    (hcount : ∀ bytes, .counted bytes ∈ fields → bytes.length < 2 ^ 32) (capacity : UInt64)
    (hcapacity : (fields.map size).sum ≤ capacity.toNat) (rest : Bytes) :
    (∀ before field after, fields = before ++ field :: after → ∃ writer writer',
      putAll before (.ofCapacity capacity.toNat) = .ok () writer ∧
      field.put writer = .ok () writer') ∧
    ∃ writer reader,
      putAll fields (.ofCapacity capacity.toNat) = .ok () writer ∧
      writer.size = (fields.map size).sum ∧
      FieldType.readAll (fields.map type) (.ofBytes (writer.written ++ rest)) = .ok fields reader ∧
      reader.position = writer.size ∧ reader.rest = rest ∧ reader.remaining = rest.length := by
  have hcountable := countable_of_length_lt hcount
  have hroom : (Writer.ofCapacity capacity.toNat).HasRoom (encodings fields).length := by
    rw [Writer.hasRoom_ofCapacity, length_encodings]
    have hmax : capacity.toNat ≤ maxSize := Nat.le_of_lt_succ capacity.toNat_lt
    exact ⟨hcapacity, Nat.le_trans hcapacity hmax⟩
  -- With room for all of them, the fields are the encodings that are read back.
  refine ⟨?_, (Writer.ofCapacity capacity.toNat).append (encodings fields),
    .facing (0 + (fields.map size).sum) rest, putAll_of_hasRoom hcountable hroom, ?_, ?_, ?_, rfl,
    rfl⟩
  · rintro before field after rfl
    obtain ⟨hbefore, hfield⟩ := put_after hcountable hroom
    exact ⟨_, _, hbefore, hfield⟩
  · rw [← Writer.length_written, Writer.written_append_ofCapacity, length_encodings]
  · rw [Writer.written_append_ofCapacity]
    exact FieldType.readAll_append hcountable 0 rest
  · rw [← Writer.length_written, Writer.written_append_ofCapacity, length_encodings]
    exact Nat.zero_add _

/-- One field of each kind, in a buffer that they fill, with one more byte behind them. -/
theorem readAll_putAll_full :
    let fields : List Field := [.byte 7, .u32 42, .i32 (-5), .u64 0xFFFFFFFFFFFFFFFF, .raw [1, 2],
      .counted [3], .address (.ofNat 0x11), .word (.ofNat 0x22)]
    (∀ bytes, .counted bytes ∈ fields → bytes.length < 2 ^ 32) ∧
      (fields.map size).sum ≤ (76 : UInt64).toNat ∧
      ∃ writer reader, putAll fields (.ofCapacity 76) = .ok () writer ∧
        FieldType.readAll (fields.map type) (.ofBytes (writer.written ++ [9])) =
          .ok fields reader ∧
        reader.position = 76 ∧ reader.remaining = 1 := by
  intro fields
  have hcount : ∀ bytes, .counted bytes ∈ fields → bytes.length < 2 ^ 32 := by
    intro bytes hbytes
    obtain rfl : bytes = [3] := by simpa [fields] using hbytes
    decide
  have hcapacity : (fields.map size).sum ≤ (76 : UInt64).toNat := by decide
  obtain ⟨-, writer, reader, hwrite, hsize, hread, hposition, -, hremaining⟩ :=
    readAll_putAll fields hcount 76 hcapacity [9]
  exact ⟨hcount, hcapacity, writer, reader, hwrite, hread, hposition.trans hsize, hremaining⟩

end Field

end CallGate
