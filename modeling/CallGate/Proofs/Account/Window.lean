import CallGate.Account
import CallGate.Wire.Writer

/-!
# Windows into code

A copy of code into a buffer moves as much as there is behind the offset and as much as fits, and
leaves the rest of the buffer. No step of it leaves its range, whatever the offset. Copies compose:
a buffer can be filled in two parts, and code can be read piece by piece.

* `copyWindow?_eq`: no subtraction, sum or slice of a copy is out of range.
* `copied_copyCode`: how many bytes a copy moves, which ones, and what it leaves.
* `copyWindow_append`: a copy into two parts of a buffer, one after the other.
* `readPieces_eq`: what is read piece by piece, and after how many copies the reading ends.
* `copyCode_windows`: all of this for the code of an account.
-/

namespace CallGate.AccountSource

/-! ## One copy -/

theorem copyWindow_count (code : Bytes) (offset : Nat) (buffer : Bytes) :
    (copyWindow code offset buffer).1 = min buffer.length (code.length - offset) := rfl

theorem copyWindow_buffer (code : Bytes) (offset : Nat) (buffer : Bytes) :
    (copyWindow code offset buffer).2 =
      (code.drop offset).take (copyWindow code offset buffer).1 ++
        buffer.drop (copyWindow code offset buffer).1 := rfl

/-- As many bytes are copied as the count says. -/
theorem length_front (code : Bytes) (offset : Nat) (buffer : Bytes) :
    ((code.drop offset).take (copyWindow code offset buffer).1).length =
      (copyWindow code offset buffer).1 := by
  rw [List.length_take, List.length_drop, copyWindow_count]
  omega

/-- The front of the buffer is the code from the offset on. -/
theorem take_copyWindow (code : Bytes) (offset : Nat) (buffer : Bytes) :
    (copyWindow code offset buffer).2.take (copyWindow code offset buffer).1 =
      (code.drop offset).take (copyWindow code offset buffer).1 :=
  List.take_left' (length_front code offset buffer)

/-- Behind what was copied the buffer is as it was. -/
theorem drop_copyWindow (code : Bytes) (offset : Nat) (buffer : Bytes) :
    (copyWindow code offset buffer).2.drop (copyWindow code offset buffer).1 =
      buffer.drop (copyWindow code offset buffer).1 :=
  List.drop_left' (length_front code offset buffer)

/-- A copy does not change the length of the buffer. -/
theorem length_copyWindow (code : Bytes) (offset : Nat) (buffer : Bytes) :
    (copyWindow code offset buffer).2.length = buffer.length := by
  have hcount := copyWindow_count code offset buffer
  rw [copyWindow_buffer, List.length_append, length_front, List.length_drop]
  omega

/-- The difference of two sizes, if it is not below zero. -/
def difference? (a b : Nat) : Option Nat :=
  if b ≤ a then some (a - b) else none

/-- The sum of two sizes, if it is a number of 64 bits. -/
def sum? (a b : Nat) : Option Nat :=
  if a + b ≤ maxSize then some (a + b) else none

/-- The bytes between two positions, if they stand in this order inside the byte string. -/
def slice? (bytes : Bytes) (first last : Nat) : Option Bytes :=
  if first ≤ last ∧ last ≤ bytes.length then some ((bytes.take last).drop first) else none

/-- A buffer with its first `count` bytes replaced, if it has so many and they are so many. -/
def overwrite? (buffer : Bytes) (count : Nat) (bytes : Bytes) : Option Bytes :=
  if count ≤ buffer.length ∧ bytes.length = count then some (bytes ++ buffer.drop count) else none

/-- A copy in single steps, each of which fails if it leaves its range. -/
def copyWindow? (code : Bytes) (offset : Nat) (buffer : Bytes) : Option (Nat × Bytes) :=
  if code.length ≤ offset then some (0, buffer)
  else do
    let left ← difference? code.length offset
    let count := min buffer.length left
    let last ← sum? offset count
    let bytes ← slice? code offset last
    let buffer ← overwrite? buffer count bytes
    return (count, buffer)

/-- No step of a copy leaves its range. -/
theorem copyWindow?_eq {code : Bytes} (hsize : code.length ≤ maxSize) (offset : Nat)
    (buffer : Bytes) : copyWindow? code offset buffer = some (copyWindow code offset buffer) := by
  rw [copyWindow?]
  split
  · next hend =>
    -- From the end of the code on nothing is copied.
    have hcount : min buffer.length (code.length - offset) = 0 := by omega
    simp [copyWindow, hcount]
  · next hinside =>
    -- Inside the code no step of the copy leaves the code or the buffer.
    have hleft : difference? code.length offset = some (code.length - offset) :=
      if_pos (by omega)
    generalize hcount : min buffer.length (code.length - offset) = count
    have hlast : sum? offset count = some (offset + count) := if_pos (by omega)
    have hslice : slice? code offset (offset + count) = some ((code.drop offset).take count) := by
      rw [slice?, if_pos (by omega), List.drop_take, Nat.add_sub_cancel_left]
    have hlength : ((code.drop offset).take count).length = count := by
      rw [List.length_take, List.length_drop]
      omega
    have hbuffer : overwrite? buffer count ((code.drop offset).take count) =
        some ((code.drop offset).take count ++ buffer.drop count) :=
      if_pos ⟨by omega, hlength⟩
    simp [copyWindow, hleft, hcount, hlast, hslice, hbuffer]

/-- What a copy of code into a buffer does. -/
structure Copied (code : Bytes) (offset : Nat) (buffer : Bytes) (copied : Nat × Bytes) : Prop where
  /-- As much is copied as there is behind the offset, and as fits. -/
  count : copied.1 = min buffer.length (code.length - offset)
  /-- The front of the buffer is the code from the offset on. -/
  front : copied.2.take copied.1 = (code.drop offset).take copied.1
  /-- The rest of the buffer is as it was. -/
  rest : copied.2.drop copied.1 = buffer.drop copied.1
  /-- The buffer keeps its length. -/
  length : copied.2.length = buffer.length
  /-- No step leaves its range. -/
  inRange : code.length ≤ maxSize → copyWindow? code offset buffer = some copied

/-- A source copies the code that it gives for the address. -/
theorem copied_copyCode (source : AccountSource) (address : Address) (offset : Nat)
    (buffer : Bytes) :
    Copied (source.code address) offset buffer (source.copyCode address offset buffer) where
  count := copyWindow_count _ _ _
  front := take_copyWindow _ _ _
  rest := drop_copyWindow _ _ _
  length := length_copyWindow _ _ _
  inRange hsize := copyWindow?_eq hsize _ _

/-! ## Two copies -/

/-- A copy into a buffer of two parts is a copy into the first part and one into the second, from
where the first part would end. -/
theorem copyWindow_append (code : Bytes) (offset : Nat) (first second : Bytes) :
    copyWindow code offset (first ++ second) =
      ((copyWindow code offset first).1 + (copyWindow code (offset + first.length) second).1,
        (copyWindow code offset first).2 ++
          (copyWindow code (offset + first.length) second).2) := by
  simp only [copyWindow, List.length_append]
  rcases Nat.le_total (code.length - offset) first.length with hends | hfull
  · -- The code ends inside the first part, and nothing is left for the second.
    have hwhole : min (first.length + second.length) (code.length - offset) =
        code.length - offset := by omega
    have hfirst : min first.length (code.length - offset) = code.length - offset := by omega
    have hsecond : min second.length (code.length - (offset + first.length)) = 0 := by omega
    rw [hwhole, hfirst, hsecond, List.drop_append_of_le_length hends]
    simp
  · -- The code fills the first part and goes on in the second.
    have hwhole : min (first.length + second.length) (code.length - offset) =
        first.length + min second.length (code.length - (offset + first.length)) := by omega
    have hfirst : min first.length (code.length - offset) = first.length := by omega
    rw [hwhole, hfirst, List.take_add, List.drop_drop, List.drop_length_add_append]
    simp

/-! ## Reading piece by piece -/

/-- Copy the code of an account into a buffer again and again, each time from where the copy before
ended, until nothing is copied. What was copied, or nothing if that takes more than a number of
copies. -/
def readPieces (source : AccountSource) (address : Address) :
    (copies offset : Nat) → Bytes → Option Bytes
  | 0, _, _ => none
  | copies + 1, offset, buffer =>
    let (count, buffer) := source.copyCode address offset buffer
    if count = 0 then some []
    else (readPieces source address copies (offset + count) buffer).map (buffer.take count ++ ·)

/-- The number of buffers that bytes fill, the last one perhaps in part. -/
def pieceCount (length capacity : Nat) : Nat :=
  (length + (capacity - 1)) / capacity

/-- No bytes are no pieces. -/
theorem pieceCount_zero {capacity : Nat} (hcapacity : 0 < capacity) :
    pieceCount 0 capacity = 0 :=
  Nat.div_eq_of_lt (by omega)

/-- A piece takes as much as fits. -/
theorem pieceCount_eq {length capacity : Nat} (hcapacity : 0 < capacity) (hlength : 0 < length) :
    pieceCount length capacity = pieceCount (length - min capacity length) capacity + 1 := by
  rcases Nat.le_total capacity length with hfull | hlast
  · have hsplit : length + (capacity - 1) =
        length - min capacity length + (capacity - 1) + capacity := by omega
    rw [pieceCount, hsplit, Nat.add_div_right _ hcapacity]
    rfl
  · rw [Nat.min_eq_right hlast, Nat.sub_self, pieceCount_zero hcapacity, pieceCount,
      Nat.div_eq_iff hcapacity]
    omega

/-- Reading ends after one copy more than the pieces that are left, and gives all that is left. -/
theorem readPieces_eq (source : AccountSource) (address : Address) (copies offset : Nat)
    {buffer : Bytes} (hbuffer : buffer ≠ []) :
    readPieces source address copies offset buffer =
      if pieceCount ((source.code address).length - offset) buffer.length < copies then
        some ((source.code address).drop offset)
      else none := by
  induction copies generalizing offset buffer with
  | zero => rfl
  | succ copies ih =>
    have hcapacity : 0 < buffer.length := List.length_pos_iff.2 hbuffer
    rw [readPieces]
    have hcopied := source.copied_copyCode address offset buffer
    generalize source.copyCode address offset buffer = copied at hcopied
    obtain ⟨count, filled⟩ := copied
    obtain ⟨hcount, hfront, -, hlength, -⟩ := hcopied
    simp only at hcount hfront hlength ⊢
    rcases Nat.lt_or_ge offset (source.code address).length with hinside | hend
    · have hfilled : filled ≠ [] := List.length_pos_iff.1 (by omega)
      -- The copies left read what is behind this piece.
      have hleft : (source.code address).length - (offset + count) =
          (source.code address).length - offset -
            min buffer.length ((source.code address).length - offset) := by omega
      rw [if_neg (by omega), ih _ hfilled, hfront, hlength, hleft,
        pieceCount_eq hcapacity (Nat.sub_pos_of_lt hinside)]
      by_cases henough : pieceCount ((source.code address).length - offset -
          min buffer.length ((source.code address).length - offset)) buffer.length < copies
      · rw [if_pos henough, if_pos (Nat.succ_lt_succ henough), Option.map_some, ← List.drop_drop,
          List.take_append_drop]
      · rw [if_neg henough, if_neg fun h => henough (Nat.lt_of_succ_lt_succ h), Option.map_none]
    · have hnone : (source.code address).length - offset = 0 := by omega
      rw [if_pos (by omega), hnone, pieceCount_zero hcapacity, if_pos (Nat.succ_pos _),
        List.drop_of_length_le hend]

/-- A copy of the code of an account moves the window at the offset and nothing else. A buffer can
be filled in two parts, with the same bytes and the same count. Reading piece by piece into a buffer
that is not empty ends after one copy more than the pieces of the code, and not before, with the
code. -/
theorem copyCode_windows (source : AccountSource) (address : Address) :
    (∀ offset buffer,
      Copied (source.code address) offset buffer (source.copyCode address offset buffer)) ∧
    (∀ offset first second,
      source.copyCode address offset (first ++ second) =
        ((source.copyCode address offset first).1 +
            (source.copyCode address (offset + first.length) second).1,
          (source.copyCode address offset first).2 ++
            (source.copyCode address (offset + first.length) second).2)) ∧
    (∀ buffer copies, buffer ≠ [] →
      readPieces source address copies 0 buffer =
        if pieceCount (source.code address).length buffer.length < copies then
          some (source.code address)
        else none) :=
  ⟨source.copied_copyCode address, copyWindow_append _,
    fun _ copies hbuffer => readPieces_eq source address copies 0 hbuffer⟩

end CallGate.AccountSource
