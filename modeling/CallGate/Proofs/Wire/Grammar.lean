import CallGate.Proofs.Wire.Cursor

/-!
# Records by their pieces

The fields of a record lie one after the other, and a byte string after its length is two pieces of
the record, the length and the bytes. Where the pieces begin is known from the bytes before them. So
the sizes of the pieces decide how a record is read: either there is a first piece that does not fit
into the input, and the reader stops in front of it, or the pieces end within the input.

* `CutAt`: the first piece that does not fit.
* `Reader.Scans`, `Reader.ScansRecord`: reads that go by the pieces of a field and of a record.
* `Reader.Scans.bind`: a record is read field by field.
* `FieldType.allPieces_append`: bytes behind a record do not change its pieces.
-/

namespace CallGate

/-! ## The first piece that does not fit -/

/-- The first piece that does not fit into `length` bytes starts at `offset` and takes `wanted`
bytes. The pieces before it fit, as they end at `offset`. -/
def CutAt (pieces : List Nat) (length offset wanted : Nat) : Prop :=
  ∃ before after, pieces = before ++ wanted :: after ∧ offset = before.sum ∧
    offset ≤ length ∧ length < offset + wanted

/-- One piece is cut at its start if it is longer than the input. -/
theorem cutAt_singleton {size length offset wanted : Nat} :
    CutAt [size] length offset wanted ↔ offset = 0 ∧ wanted = size ∧ length < size := by
  constructor
  · rintro ⟨before, after, hpieces, rfl, -, hwanted⟩
    cases before with
    | nil =>
      obtain ⟨rfl, -⟩ := List.cons.inj hpieces
      exact ⟨rfl, rfl, by simpa using hwanted⟩
    | cons first before => simp at hpieces
  · rintro ⟨rfl, rfl, hlength⟩
    exact ⟨[], [], rfl, rfl, Nat.zero_le _, by omega⟩

/-- A piece that does not fit is one of the first pieces, or these fit and it is the first of the
others that does not fit into what is left. -/
theorem CutAt.of_append {first second : List Nat} {length offset wanted : Nat}
    (h : CutAt (first ++ second) length offset wanted) :
    CutAt first length offset wanted ∨
      first.sum ≤ length ∧ ∃ offset', offset = first.sum + offset' ∧
        CutAt second (length - first.sum) offset' wanted := by
  obtain ⟨before, after, hpieces, rfl, hfits, hwanted⟩ := h
  rcases List.append_eq_append_iff.1 hpieces with ⟨gap, rfl, rfl⟩ | ⟨gap, rfl, hgap⟩
  · rw [List.sum_append] at hfits hwanted ⊢
    exact .inr ⟨by omega, gap.sum, rfl, gap, after, rfl, rfl, by omega, by omega⟩
  · cases gap with
    | nil =>
      rw [List.nil_append] at hgap
      rw [List.append_nil]
      exact .inr ⟨hfits, 0, rfl, [], after, hgap.symm, rfl, by omega, by omega⟩
    | cons size gap =>
      obtain ⟨rfl, -⟩ := List.cons.inj hgap
      exact .inl ⟨before, gap, rfl, rfl, hfits, hwanted⟩

/-- Pieces that are longer than the input have a first that does not fit, and only these. -/
theorem exists_cutAt_iff (pieces : List Nat) (length : Nat) :
    (∃ offset wanted, CutAt pieces length offset wanted) ↔ length < pieces.sum := by
  constructor
  · rintro ⟨offset, wanted, before, after, rfl, rfl, -, hwanted⟩
    rw [List.sum_append, List.sum_cons]
    omega
  · intro h
    induction pieces generalizing length with
    | nil => exact absurd h (Nat.not_lt_zero length)
    | cons size pieces ih =>
      rw [List.sum_cons] at h
      by_cases hsize : size ≤ length
      · -- The first piece fits, so the cut lies among the others.
        obtain ⟨offset, wanted, before, after, rfl, rfl, hfits, hwanted⟩ :=
          ih (length - size) (by omega)
        refine ⟨size + before.sum, wanted, size :: before, after, rfl, List.sum_cons.symm, ?_, ?_⟩
        · omega
        · omega
      · exact ⟨0, size, [], pieces, rfl, rfl, Nat.zero_le _, by omega⟩

/-! ## Pieces of fields -/

namespace FieldType

/-- The sizes of the pieces of a field whose bytes, if there are enough, begin the given ones. -/
def pieces (bytes : Bytes) : FieldType → List Nat
  | .byte => [1]
  | .u32 => [4]
  | .i32 => [4]
  | .u64 => [8]
  | .raw length => [length]
  | .counted => [4, Bytes.toNatLE (bytes.take 4)]
  | .address => [20]
  | .word => [32]

/-- The sizes of the pieces of fields one after the other. -/
def allPieces (bytes : Bytes) : List FieldType → List Nat
  | [] => []
  | type :: types =>
    type.pieces bytes ++ allPieces (bytes.drop (type.pieces bytes).sum) types

/-- A field has its own pieces whatever follows it. -/
theorem pieces_append {type : FieldType} {front : Bytes}
    (h : (type.pieces front).sum ≤ front.length) (rest : Bytes) :
    type.pieces (front ++ rest) = type.pieces front := by
  cases type with
  | counted =>
    have hcount : 4 ≤ front.length := by
      simp only [pieces, List.sum_cons] at h
      omega
    rw [pieces, pieces, List.take_append_of_le_length hcount]
  | _ => rfl

/-- The pieces of fields that are all there do not depend on what follows them. -/
theorem allPieces_append {types : List FieldType} {front : Bytes}
    (h : (allPieces front types).sum ≤ front.length) (rest : Bytes) :
    allPieces (front ++ rest) types = allPieces front types := by
  induction types generalizing front with
  | nil => rfl
  | cons type types ih =>
    rw [allPieces, List.sum_append] at h
    have hfirst : (type.pieces front).sum ≤ front.length := by omega
    have hothers : (allPieces (front.drop (type.pieces front).sum) types).sum ≤
        (front.drop (type.pieces front).sum).length := by
      rw [List.length_drop]
      omega
    rw [allPieces, allPieces, pieces_append hfirst, List.drop_append_of_le_length hfirst,
      ih hothers]

end FieldType

/-! ## Reads that go by pieces -/

namespace Reader

variable {α β : Type} {position : Nat} {rest : Bytes}

/-- A read gives a value and moves behind the pieces of a field if they are all there, and otherwise
names the first one that is not. -/
structure Scans (read : Read α) (type : FieldType) (position : Nat) (rest : Bytes) : Prop where
  ok : (type.pieces rest).sum ≤ rest.length → ∃ value, read (.facing position rest) =
    .ok value (.facing (position + (type.pieces rest).sum) (rest.drop (type.pieces rest).sum))
  truncated : ∀ offset wanted, CutAt (type.pieces rest) rest.length offset wanted →
    ∃ reader, read (.facing position rest) =
      .error (.truncated (position + offset) wanted (rest.length - offset)) reader

/-- A read gives a value if the pieces of fields are all there and nothing else is. Otherwise it
names the first piece that is not there, or tells how many bytes are left. -/
structure ScansRecord (read : Read α) (types : List FieldType) (record : Record) (position : Nat)
    (rest : Bytes) : Prop where
  ok : rest.length = (FieldType.allPieces rest types).sum →
    ∃ value reader, read (.facing position rest) = .ok value reader
  truncated : ∀ offset wanted, CutAt (FieldType.allPieces rest types) rest.length offset wanted →
    ∃ reader, read (.facing position rest) =
      .error (.truncated (position + offset) wanted (rest.length - offset)) reader
  trailing : (FieldType.allPieces rest types).sum < rest.length →
    ∃ reader, read (.facing position rest) = .error
      (.malformedRecord (.trailing (rest.length - (FieldType.allPieces rest types).sum) record))
      reader

/-- A read of one piece needs to be known where the piece is there and where it is not. -/
theorem scans_of_single {read : Read α} {type : FieldType} {size : Nat}
    (hpieces : type.pieces rest = [size])
    (hok : size ≤ rest.length → ∃ value,
      read (.facing position rest) = .ok value (.facing (position + size) (rest.drop size)))
    (htruncated : rest.length < size → read (.facing position rest) =
      .error (.truncated position size rest.length) (.facing position rest)) :
    Scans read type position rest where
  ok h := by
    rw [hpieces, List.sum_singleton] at h ⊢
    exact hok h
  truncated offset wanted h := by
    rw [hpieces, cutAt_singleton] at h
    obtain ⟨rfl, rfl, hlength⟩ := h
    exact ⟨_, htruncated hlength⟩

/-- A value made of bytes of a fixed number goes by that one piece. -/
theorem scans_of_take {type : FieldType} {count : Nat} {value : Bytes → α}
    (hpieces : type.pieces rest = [count]) :
    Scans (do return value (← take count)) type position rest := by
  refine scans_of_single hpieces (fun h => ?_) fun h => ?_
  · exact ⟨value (rest.take count), bind_of_ok (take_of_le h)⟩
  · exact bind_of_error (take_of_lt h)

theorem scans_u32 : Scans u32 .u32 position rest :=
  scans_of_take rfl

theorem scans_u64 : Scans u64 .u64 position rest :=
  scans_of_take rfl

theorem scans_address : Scans address .address position rest :=
  scans_of_single rfl (fun h => ⟨_, fixed_of_le h⟩) fixed_of_lt

theorem scans_word : Scans word .word position rest :=
  scans_of_single rfl (fun h => ⟨_, fixed_of_le h⟩) fixed_of_lt

/-- A number of four bytes is not cut by its 32 bits. -/
theorem toNat_ofNat_take_four (h : 4 ≤ rest.length) :
    (UInt32.ofNat (Bytes.toNatLE (rest.take 4))).toNat = Bytes.toNatLE (rest.take 4) := by
  refine UInt32.toNat_ofNat_of_lt' ?_
  have hlt := Bytes.toNatLE_lt (rest.take 4)
  rwa [List.length_take_of_le h] at hlt

/-- A counted byte string is the bytes behind its length, as many as that says. -/
theorem counted_of_le (h : 4 + Bytes.toNatLE (rest.take 4) ≤ rest.length) :
    counted (.facing position rest) =
      .ok ((rest.drop 4).take (Bytes.toNatLE (rest.take 4)))
        (.facing (position + (4 + Bytes.toNatLE (rest.take 4)))
          (rest.drop (4 + Bytes.toNatLE (rest.take 4)))) := by
  have hcount : 4 ≤ rest.length := by omega
  have hbody : Bytes.toNatLE (rest.take 4) ≤ (rest.drop 4).length := by
    rw [List.length_drop]
    omega
  rw [counted, bind_of_ok (u32_of_le hcount), toNat_ofNat_take_four hcount, take_of_le hbody,
    List.drop_drop, Nat.add_assoc]

/-- A counted byte string is two pieces, its length and as many bytes as that says. -/
theorem scans_counted : Scans counted .counted position rest where
  ok h := by
    simp only [FieldType.pieces, List.sum_cons, List.sum_nil, Nat.add_zero] at h ⊢
    exact ⟨_, counted_of_le h⟩
  truncated offset wanted h := by
    have hpieces : CutAt ([4] ++ [Bytes.toNatLE (rest.take 4)]) rest.length offset wanted := h
    -- Either the length is cut, or it is there and its bytes are cut.
    rcases hpieces.of_append with hcount | ⟨hcount, offset', rfl, hbody⟩
    · obtain ⟨rfl, rfl, hlength⟩ := cutAt_singleton.1 hcount
      exact ⟨_, bind_of_error (u32_of_lt hlength)⟩
    · obtain ⟨rfl, rfl, hlength⟩ := cutAt_singleton.1 hbody
      rw [List.sum_singleton, ← List.length_drop] at hlength
      rw [counted, bind_of_ok (u32_of_le hcount), toNat_ofNat_take_four hcount,
        take_of_lt hlength, List.length_drop]
      exact ⟨_, rfl⟩

/-! ## Records -/

/-- Behind the last field nothing is read, and any byte that is left is told. -/
theorem scansRecord_finish (record : Record) (value : α) :
    ScansRecord (do finish record; return value) [] record position rest where
  ok h := by
    obtain rfl : rest = [] := List.length_eq_zero_iff.1 h
    exact ⟨value, _, bind_of_ok (finish_nil record position)⟩
  truncated offset wanted h := by
    obtain ⟨before, after, hpieces, -⟩ := h
    simp [FieldType.allPieces] at hpieces
  trailing h := by
    have hne : ¬rest.length = 0 := Nat.ne_of_gt h
    refine ⟨.facing position rest, bind_of_error ?_⟩
    rw [finish, bind_of_ok (get_eq _), remaining_facing, if_neg hne]
    rfl

/-- What is cut behind a field is named by what is read there. -/
theorem Scans.bind_truncated {first : Read α} {next : α → Read β} {type : FieldType}
    {pieces : List Nat} (hfirst : Scans first type position rest)
    (hnext : ∀ value offset wanted,
      CutAt pieces (rest.drop (type.pieces rest).sum).length offset wanted → ∃ reader,
        next value (.facing (position + (type.pieces rest).sum)
            (rest.drop (type.pieces rest).sum)) =
          .error (.truncated (position + (type.pieces rest).sum + offset) wanted
            ((rest.drop (type.pieces rest).sum).length - offset)) reader)
    {offset wanted : Nat} (h : CutAt (type.pieces rest ++ pieces) rest.length offset wanted) :
    ∃ reader, (first >>= next) (.facing position rest) =
      .error (.truncated (position + offset) wanted (rest.length - offset)) reader := by
  rcases h.of_append with hcut | ⟨hfits, offset', rfl, hcut⟩
  · obtain ⟨reader, herror⟩ := hfirst.truncated offset wanted hcut
    exact ⟨reader, bind_of_error herror⟩
  · -- The field is there, so what is cut is cut behind it.
    obtain ⟨value, hvalue⟩ := hfirst.ok hfits
    rw [← List.length_drop] at hcut
    obtain ⟨reader, herror⟩ := hnext value _ _ hcut
    refine ⟨reader, ?_⟩
    rw [bind_of_ok hvalue, herror, List.length_drop, Nat.add_assoc, Nat.sub_sub]

/-- A field and then the rest of a record are read by the pieces of both. -/
theorem Scans.bind {first : Read α} {next : α → Read β} {type : FieldType}
    {types : List FieldType} {record : Record} (hfirst : Scans first type position rest)
    (hnext : ∀ value position rest, ScansRecord (next value) types record position rest) :
    ScansRecord (first >>= next) (type :: types) record position rest where
  ok h := by
    rw [FieldType.allPieces, List.sum_append] at h
    obtain ⟨value, hvalue⟩ := hfirst.ok (by omega)
    rw [bind_of_ok hvalue]
    apply (hnext value _ _).ok
    rw [List.length_drop]
    omega
  truncated _ _ h :=
    hfirst.bind_truncated (fun value => (hnext value _ _).truncated) h
  trailing h := by
    rw [FieldType.allPieces, List.sum_append] at h
    obtain ⟨value, hvalue⟩ := hfirst.ok (by omega)
    have hmore : (FieldType.allPieces (rest.drop (type.pieces rest).sum) types).sum <
        (rest.drop (type.pieces rest).sum).length := by
      rw [List.length_drop]
      omega
    obtain ⟨reader, herror⟩ := (hnext value _ _).trailing hmore
    refine ⟨reader, ?_⟩
    rw [bind_of_ok hvalue, herror, FieldType.allPieces, List.sum_append, List.length_drop,
      Nat.sub_sub]

end Reader

end CallGate
