import CallGate.Wire.Field

/-!
# Writing fields under a capacity

Fields are written exactly when all of their bytes fit, and what is then written is their
encodings one after the other. A message that asks for its whole room first either is written in
full or fails with the room that it asked for.

* `Field.putAll_of_hasRoom`, `Field.of_putAll_eq_ok`: when a list of fields is written.
* `Writer.build_fields_eq_ok_iff`, `Writer.build_fields_of_lt`: what a message is built into.
* `Writer.build_guarded_of_le`, `Writer.build_guarded_of_lt`: a length that is checked before any
  field.
-/

namespace CallGate

namespace Writer

/-- Whether this many more bytes can be written. -/
def HasRoom (writer : Writer) (count : Nat) : Prop :=
  writer.size + count ≤ writer.capacity ∧ writer.size + count ≤ maxSize

/-- Writers of one capacity that have written the same are equal. -/
theorem ext_written {first second : Writer} (hcapacity : first.capacity = second.capacity)
    (hwritten : first.written = second.written) : first = second := by
  obtain ⟨capacity, buffer⟩ := first
  obtain ⟨capacity', buffer'⟩ := second
  obtain rfl : capacity = capacity' := hcapacity
  obtain rfl : buffer = buffer' := Array.ext' hwritten
  rfl

/-- What is appended adds its length to the size. -/
theorem size_append (writer : Writer) (bytes : Bytes) :
    (writer.append bytes).size = writer.size + bytes.length := by
  rw [← length_written, written_append, List.length_append, length_written]

/-- Two byte strings appended in turn are their concatenation appended at once. -/
theorem append_append (writer : Writer) (first second : Bytes) :
    (writer.append first).append second = writer.append (first ++ second) := by
  refine ext_written rfl ?_
  simp only [written_append, List.append_assoc]

theorem append_nil (writer : Writer) : writer.append [] = writer := by
  refine ext_written rfl ?_
  rw [written_append, List.append_nil]

/-- Room for two byte strings is room for the first, and then for the second. -/
theorem hasRoom_add (writer : Writer) (first : Bytes) (count : Nat) :
    writer.HasRoom (first.length + count) ↔
      writer.HasRoom first.length ∧ (writer.append first).HasRoom count := by
  simp only [HasRoom, size_append, capacity_append]
  omega

/-- To ask for room that is there changes nothing. -/
theorem ensure_of_hasRoom {writer : Writer} {count : Nat} (h : writer.HasRoom count) :
    ensure count writer = .ok () writer := by
  simp [ensure, h.1, h.2]

/-- Without room the writer stays as it was, and the error tells how much was asked for. -/
theorem ensure_of_not_hasRoom {writer : Writer} {count : Nat} (h : ¬writer.HasRoom count) :
    ensure count writer =
      .error (.bufferOverflow (min (writer.size + count) maxSize) writer.capacity) writer := by
  rw [HasRoom] at h
  unfold ensure
  -- Only a sum that cannot be counted is cut.
  by_cases hmax : writer.size + count ≤ maxSize
  · have hcapacity : ¬writer.size + count ≤ writer.capacity := fun hle => h ⟨hle, hmax⟩
    simp [hmax, hcapacity]
  · simp [hmax, Nat.min_eq_right (Nat.le_of_not_le hmax)]

/-- Where there is room, bytes are written behind what is there. -/
theorem put_of_hasRoom {writer : Writer} {bytes : Bytes} (h : writer.HasRoom bytes.length) :
    put bytes writer = .ok () (writer.append bytes) := by
  simp only [put, bind, EStateM.bind, ensure_of_hasRoom h]
  rfl

/-- Where there is no room, no byte is written. -/
theorem put_of_not_hasRoom {writer : Writer} {bytes : Bytes} (h : ¬writer.HasRoom bytes.length) :
    put bytes writer =
      .error (.bufferOverflow (min (writer.size + bytes.length) maxSize) writer.capacity)
        writer := by
  simp only [put, bind, EStateM.bind, ensure_of_not_hasRoom h]

/-- Bytes are written exactly when there is room for them. -/
theorem put_eq_ok_iff (writer writer' : Writer) (bytes : Bytes) :
    put bytes writer = .ok () writer' ↔
      writer.HasRoom bytes.length ∧ writer' = writer.append bytes := by
  by_cases h : writer.HasRoom bytes.length
  · rw [put_of_hasRoom h]
    simp [h, eq_comm]
  · rw [put_of_not_hasRoom h]
    simp [h]

end Writer

namespace Field

/-- Whether the length of a field fits the count in front of it, if there is one. -/
def Countable : Field → Prop
  | .counted bytes => bytes.length ≤ maxCountedLength
  | _ => True

/-- A field whose length can be counted is written as the byte string that encodes it. -/
theorem put_eq {field : Field} (hcount : field.Countable) :
    field.put = Writer.put field.encoding := by
  cases field with
  | counted bytes =>
    have hlength : bytes.length ≤ maxCountedLength := hcount
    simp [put, Writer.putCounted, hlength, encoding]
  | _ => rfl

/-- A field is written exactly when its length can be counted and there is room for it. -/
theorem put_eq_ok_iff (field : Field) (writer writer' : Writer) :
    field.put writer = .ok () writer' ↔
      field.Countable ∧ writer.HasRoom field.encoding.length ∧
        writer' = writer.append field.encoding := by
  by_cases hcount : field.Countable
  · rw [put_eq hcount, Writer.put_eq_ok_iff, and_iff_right hcount]
  · refine iff_of_false ?_ fun h => hcount h.1
    -- Only the length of a counted byte string can be too large.
    cases field with
    | counted bytes =>
      have hlength : ¬bytes.length ≤ maxCountedLength := hcount
      rw [put, Writer.putCounted, if_neg hlength]
      nofun
    | _ => exact absurd trivial hcount

theorem encodings_nil : encodings [] = [] := rfl

theorem encodings_cons (field : Field) (fields : List Field) :
    encodings (field :: fields) = field.encoding ++ encodings fields := rfl

/-- Fields are written in their order. -/
theorem putAll_cons (field : Field) (fields : List Field) (writer : Writer) :
    putAll (field :: fields) writer = (field.put >>= fun _ => putAll fields) writer := rfl

/-- Fields whose lengths can be counted are written one after the other if there is room for
all. -/
theorem putAll_of_hasRoom {fields : List Field} {writer : Writer}
    (hcount : ∀ field ∈ fields, field.Countable)
    (hroom : writer.HasRoom (encodings fields).length) :
    putAll fields writer = .ok () (writer.append (encodings fields)) := by
  induction fields generalizing writer with
  | nil => rw [encodings_nil, Writer.append_nil]; rfl
  | cons field fields ih =>
    obtain ⟨hfield, hfields⟩ := List.forall_mem_cons.1 hcount
    -- The room splits into that of the first field and that of the others behind it.
    rw [encodings_cons, List.length_append, Writer.hasRoom_add] at hroom
    have hput : field.put writer = .ok () (writer.append field.encoding) :=
      (put_eq_ok_iff _ _ _).2 ⟨hfield, hroom.1, rfl⟩
    rw [putAll_cons, encodings_cons, ← Writer.append_append]
    simp only [bind, EStateM.bind, hput]
    exact ih hfields hroom.2

/-- Fields that are written have lengths that can be counted, and what is written is their
encodings. -/
theorem of_putAll_eq_ok {fields : List Field} {writer writer' : Writer}
    (h : putAll fields writer = .ok () writer') :
    (∀ field ∈ fields, field.Countable) ∧ writer' = writer.append (encodings fields) := by
  induction fields generalizing writer with
  | nil =>
    cases h
    exact ⟨fun field hfield => absurd hfield List.not_mem_nil, (Writer.append_nil _).symm⟩
  | cons field fields ih =>
    rw [putAll_cons] at h
    simp only [bind, EStateM.bind] at h
    -- The first field was written, or nothing else would have been tried.
    cases hput : field.put writer with
    | error error _ => rw [hput] at h; cases h
    | ok _ middle =>
      rw [hput] at h
      obtain ⟨hfield, -, rfl⟩ := (put_eq_ok_iff _ _ _).1 hput
      obtain ⟨hfields, rfl⟩ := ih h
      rw [encodings_cons, Writer.append_append]
      exact ⟨List.forall_mem_cons.2 ⟨hfield, hfields⟩, rfl⟩

end Field

namespace Writer

/-- A fresh writer has room for whatever is within its capacity and within the limit of any
buffer. -/
theorem hasRoom_ofCapacity (capacity count : Nat) :
    (ofCapacity capacity).HasRoom count ↔ count ≤ capacity ∧ count ≤ maxSize := by
  simp [HasRoom, ofCapacity, size]

/-- A fresh writer holds what was appended to it and nothing else. -/
theorem written_append_ofCapacity (capacity : Nat) (bytes : Bytes) :
    ((ofCapacity capacity).append bytes).written = bytes := by
  rw [written_append]
  rfl

/-- A message that asks for its whole room first is built exactly when its lengths can be counted
and it fits, and then into the encodings of its fields. -/
theorem build_fields_eq_ok_iff {fields : List Field} {size : Nat}
    (hsize : (Field.encodings fields).length = size) (capacity : Nat) (bytes : Bytes) :
    build capacity (do ensure size; Field.putAll fields) = .ok bytes ↔
      (∀ field ∈ fields, field.Countable) ∧ size ≤ capacity ∧ size ≤ maxSize ∧
        bytes = Field.encodings fields := by
  rw [build]
  simp only [bind, EStateM.bind]
  by_cases hroom : (ofCapacity capacity).HasRoom size
  · -- With the room there, only a length that cannot be counted is left to fail.
    rw [ensure_of_hasRoom hroom]
    obtain ⟨hcapacity, hmax⟩ := (hasRoom_ofCapacity _ _).1 hroom
    constructor
    · intro h
      cases hput : Field.putAll fields (ofCapacity capacity) with
      | error error _ => simp only [hput] at h; cases h
      | ok _ writer =>
        obtain ⟨hcount, rfl⟩ := Field.of_putAll_eq_ok hput
        simp only [hput, written_append_ofCapacity] at h
        cases h
        exact ⟨hcount, hcapacity, hmax, rfl⟩
    · rintro ⟨hcount, -, -, rfl⟩
      rw [← hsize] at hroom
      simp only [Field.putAll_of_hasRoom hcount hroom, written_append_ofCapacity]
  · rw [ensure_of_not_hasRoom hroom]
    rw [hasRoom_ofCapacity] at hroom
    constructor
    · intro h
      cases h
    · rintro ⟨-, hcapacity, hmax, -⟩
      exact absurd ⟨hcapacity, hmax⟩ hroom

/-- A length that passes its check leaves no trace of the check. -/
theorem build_guarded_of_le {length limit : Nat} {error : WireError} {operation : Write Unit}
    (hlength : length ≤ limit) (capacity : Nat) :
    build capacity (do
        if limit < length then
          throw error
        operation) = build capacity operation := by
  rw [if_neg (Nat.not_lt.2 hlength)]

/-- A length that does not pass its check is refused before anything is written. -/
theorem build_guarded_of_lt {length limit : Nat} {error : WireError} {operation : Write Unit}
    (hlength : limit < length) (capacity : Nat) :
    build capacity (do
        if limit < length then
          throw error
        operation) = .error error := by
  rw [if_pos hlength]
  rfl

/-- What is built behind a check of a length is built if the length passes. -/
theorem build_guarded_eq_ok_iff {length limit : Nat} {error : WireError} {operation : Write Unit}
    (capacity : Nat) (bytes : Bytes) :
    build capacity (do
        if limit < length then
          throw error
        operation) = .ok bytes ↔
      length ≤ limit ∧ build capacity operation = .ok bytes := by
  rcases Nat.lt_or_ge limit length with hlength | hlength
  · rw [build_guarded_of_lt hlength]
    refine iff_of_false nofun fun h => Nat.not_le.2 hlength h.1
  · rw [build_guarded_of_le hlength]
    exact (and_iff_right hlength).symm

/-- A message that does not fit is refused with its size, as far as it can be counted. -/
theorem build_fields_overflow {size capacity : Nat} (hcapacity : capacity < size)
    (fields : List Field) :
    build capacity (do ensure size; Field.putAll fields) =
      .error (.bufferOverflow (min size maxSize) capacity) := by
  have hroom : ¬(ofCapacity capacity).HasRoom size := by
    rw [hasRoom_ofCapacity]
    exact fun h => Nat.not_le.2 hcapacity h.1
  have hempty : (ofCapacity capacity).size + size = size := Nat.zero_add size
  rw [build]
  simp only [bind, EStateM.bind, ensure_of_not_hasRoom hroom, hempty]
  rfl

/-- A message that does not fit, but could be counted, is refused with its size. -/
theorem build_fields_of_lt {size capacity : Nat} (hmax : size ≤ maxSize)
    (hcapacity : capacity < size) (fields : List Field) :
    build capacity (do ensure size; Field.putAll fields) =
      .error (.bufferOverflow size capacity) := by
  rw [build_fields_overflow hcapacity, Nat.min_eq_left hmax]

end Writer

end CallGate
