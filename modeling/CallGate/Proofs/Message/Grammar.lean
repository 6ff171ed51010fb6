import CallGate.Proofs.Message.WireForm
import CallGate.Proofs.Wire.Grammar

/-!
# What reads as a record, and why the rest does not

Call messages and program records start with the kind of a call. A byte that stands for no kind is
refused whatever follows it. Of all other byte strings the sizes of the pieces decide: one that ends
within a piece is truncated there, one that goes on behind the last piece has trailing bytes, and
one that ends with the last piece reads as a record.

* `Graded`: the verdict on a byte string, by its pieces.
* `KindedRead.graded`: the verdict on a byte string for every record that starts with a kind.
* `KindedRead.whole`: nothing can be cut off a record or put behind it.
* `records_grammar`: call messages and program records.
-/

namespace CallGate

/-- A byte string does not start with a byte that stands for no kind of call. -/
def KindKnown (bytes : Bytes) : Prop :=
  ∀ byte, bytes.head? = some byte → byte ≤ 4

/-- What comes of reading a byte string as a record with pieces of the given sizes. -/
structure Graded {α : Type} (decode : Bytes → Except WireError α) (record : Record)
    (pieces : List Nat) (bytes : Bytes) : Prop where
  invalidKind_iff : ∀ byte, decode bytes = .error (.invalidKind byte) ↔
    bytes.head? = some byte ∧ 4 < byte
  truncated_iff :
    (∃ offset wanted available, decode bytes = .error (.truncated offset wanted available)) ↔
      KindKnown bytes ∧ bytes.length < pieces.sum
  truncatedAt_iff : ∀ offset wanted available,
    decode bytes = .error (.truncated offset wanted available) ↔
      KindKnown bytes ∧ CutAt pieces bytes.length offset wanted ∧
        available = bytes.length - offset
  malformed_iff : ∀ fault, decode bytes = .error (.malformedRecord fault) ↔
    KindKnown bytes ∧ pieces.sum < bytes.length ∧
      fault = .trailing (bytes.length - pieces.sum) record
  ok_iff : (∃ value, decode bytes = .ok value) ↔ KindKnown bytes ∧ bytes.length = pieces.sum

/-- A byte string is refused as truncated without its end, and as malformed with more behind it. -/
structure Whole {α : Type} (decode : Bytes → Except WireError α) (bytes : Bytes) : Prop where
  truncated_of_prefix : ∀ front, front <+: bytes → front ≠ bytes →
    ∃ offset wanted available, decode front = .error (.truncated offset wanted available)
  malformed_of_longer : ∀ longer, bytes <+: longer → longer ≠ bytes →
    ∃ fault, decode longer = .error (.malformedRecord fault)

/-! ## Verdicts -/

/-- The results that reading a byte string as a record can have, each with its condition. -/
inductive Verdict {α : Type} (record : Record) (pieces : List Nat) (bytes : Bytes) :
    Except WireError α → Prop
  | invalidKind {byte : UInt8} (hhead : bytes.head? = some byte) (hbyte : 4 < byte) :
    Verdict record pieces bytes (.error (.invalidKind byte))
  | truncated {offset wanted : Nat} (hknown : KindKnown bytes)
    (hcut : CutAt pieces bytes.length offset wanted) :
    Verdict record pieces bytes (.error (.truncated offset wanted (bytes.length - offset)))
  | trailing (hknown : KindKnown bytes) (hmore : pieces.sum < bytes.length) :
    Verdict record pieces bytes
      (.error (.malformedRecord (.trailing (bytes.length - pieces.sum) record)))
  | ok {value : α} (hknown : KindKnown bytes) (hlength : bytes.length = pieces.sum) :
    Verdict record pieces bytes (.ok value)

/-- A byte string is graded if each condition leads to its result, as one of them always holds. -/
theorem Graded.of_verdicts {α : Type} {decode : Bytes → Except WireError α} {record : Record}
    {pieces : List Nat} {bytes : Bytes}
    (hrefused : ∀ byte, bytes.head? = some byte → 4 < byte →
      decode bytes = .error (.invalidKind byte))
    (htruncated : KindKnown bytes → ∀ offset wanted, CutAt pieces bytes.length offset wanted →
      decode bytes = .error (.truncated offset wanted (bytes.length - offset)))
    (htrailing : KindKnown bytes → pieces.sum < bytes.length →
      decode bytes = .error (.malformedRecord (.trailing (bytes.length - pieces.sum) record)))
    (hok : KindKnown bytes → bytes.length = pieces.sum → ∃ value, decode bytes = .ok value) :
    Graded decode record pieces bytes := by
  -- The conditions are exhaustive, so the result is one of the four.
  have hverdict : Verdict record pieces bytes (decode bytes) := by
    by_cases hknown : KindKnown bytes
    · rcases Nat.lt_trichotomy bytes.length pieces.sum with hless | hlength | hmore
      · obtain ⟨offset, wanted, hcut⟩ := (exists_cutAt_iff _ _).2 hless
        rw [htruncated hknown offset wanted hcut]
        exact .truncated hknown hcut
      · obtain ⟨value, hvalue⟩ := hok hknown hlength
        rw [hvalue]
        exact .ok hknown hlength
      · rw [htrailing hknown hmore]
        exact .trailing hknown hmore
    · simp only [KindKnown, not_forall, UInt8.not_le] at hknown
      obtain ⟨byte, hhead, hbyte⟩ := hknown
      rw [hrefused byte hhead hbyte]
      exact .invalidKind hhead hbyte
  -- Each result names its condition, so a verdict can be read from the result alone.
  have htruncatedAt (offset wanted available : Nat) :
      decode bytes = .error (.truncated offset wanted available) ↔
        KindKnown bytes ∧ CutAt pieces bytes.length offset wanted ∧
          available = bytes.length - offset := by
    constructor
    · intro h
      rw [h] at hverdict
      cases hverdict with
      | truncated hknown hcut => exact ⟨hknown, hcut, rfl⟩
    · rintro ⟨hknown, hcut, rfl⟩
      exact htruncated hknown offset wanted hcut
  refine ⟨fun byte => ⟨fun h => ?_, fun h => hrefused byte h.1 h.2⟩, ⟨?_, ?_⟩, htruncatedAt,
    fun fault => ⟨fun h => ?_, ?_⟩, ⟨?_, fun h => hok h.1 h.2⟩⟩
  · rw [h] at hverdict
    cases hverdict with
    | invalidKind hhead hbyte => exact ⟨hhead, hbyte⟩
  · rintro ⟨offset, wanted, available, h⟩
    obtain ⟨hknown, hcut, -⟩ := (htruncatedAt _ _ _).1 h
    exact ⟨hknown, (exists_cutAt_iff _ _).1 ⟨offset, wanted, hcut⟩⟩
  · rintro ⟨hknown, hless⟩
    obtain ⟨offset, wanted, hcut⟩ := (exists_cutAt_iff _ _).2 hless
    exact ⟨offset, wanted, _, htruncated hknown offset wanted hcut⟩
  · rw [h] at hverdict
    cases hverdict with
    | trailing hknown hmore => exact ⟨hknown, hmore, rfl⟩
  · rintro ⟨hknown, hmore, rfl⟩
    exact htrailing hknown hmore
  · rintro ⟨value, h⟩
    rw [h] at hverdict
    cases hverdict with
    | ok hknown hlength => exact ⟨hknown, hlength⟩

/-! ## Records that start with a kind -/

/-- A read of a record that starts with the kind of a call and goes on with the given fields. -/
structure KindedRead {α : Type} (read : Read α) (types : List FieldType) (record : Record) :
    Prop where
  refused : ∀ byte rest, 4 < byte →
    ∃ reader, read (.facing 0 (byte :: rest)) = .error (.invalidKind byte) reader
  scans : ∀ bytes, KindKnown bytes → Reader.ScansRecord read (.byte :: types) record 0 bytes

namespace CallKind

/-- The bytes above four are no kinds. -/
theorem ofByte?_eq_none_iff (byte : UInt8) : ofByte? byte = none ↔ 4 < byte := by
  unfold ofByte?
  -- The five bytes that stand for a kind are those up to four.
  split <;> grind

/-- The kind is decided by the first byte alone. -/
theorem read_cons (byte : UInt8) (position : Nat) (rest : Bytes) :
    read (.facing position (byte :: rest)) =
      match ofByte? byte with
      | some kind => .ok kind (.facing (position + 1) rest)
      | none => .error (.invalidKind byte) (.facing (position + 1) rest) := by
  have hbyte : Reader.byte (.facing position (byte :: rest)) =
      .ok byte (.facing (position + 1) rest) := Reader.byte_append byte position rest
  rw [read, Reader.bind_of_ok hbyte]
  cases ofByte? byte <;> rfl

/-- A kind is read as one byte where the byte stands for one. -/
theorem scans_read {position : Nat} {bytes : Bytes} (h : KindKnown bytes) :
    Reader.Scans read .byte position bytes := by
  refine Reader.scans_of_single rfl (fun hlength => ?_) fun hlength => ?_
  · obtain ⟨byte, rest, rfl⟩ := List.exists_cons_of_length_pos hlength
    have hle : ¬4 < byte := UInt8.not_lt.2 (h byte rfl)
    obtain ⟨kind, hkind⟩ := Option.ne_none_iff_exists'.1 (mt (ofByte?_eq_none_iff byte).1 hle)
    refine ⟨kind, ?_⟩
    rw [read_cons, hkind]
    rfl
  · exact Reader.bind_of_error (Reader.bind_of_error (Reader.take_of_lt hlength))

/-- Where the rest goes by pieces for every kind, the whole does behind the kind. -/
theorem kindedRead_bind {α : Type} {next : CallKind → Read α} {types : List FieldType}
    {record : Record}
    (hnext : ∀ kind position rest, Reader.ScansRecord (next kind) types record position rest) :
    KindedRead (read >>= next) types record where
  refused byte rest h := by
    have hkind := read_cons byte 0 rest
    rw [(ofByte?_eq_none_iff byte).2 h] at hkind
    exact ⟨_, Reader.bind_of_error hkind⟩
  scans _ h := (scans_read h).bind hnext

end CallKind

namespace KindedRead

variable {α : Type} {read : Read α} {types : List FieldType} {record : Record}

/-- A read that begins with a kind gives every byte string its verdict. -/
theorem graded (h : KindedRead read types record) (bytes : Bytes) :
    Graded (Reader.run read) record (FieldType.allPieces bytes (.byte :: types)) bytes := by
  apply Graded.of_verdicts
  · intro byte hhead hbyte
    obtain ⟨rest, rfl⟩ := List.head?_eq_some_iff.1 hhead
    obtain ⟨reader, hread⟩ := h.refused byte rest hbyte
    rw [Reader.run_eq, hread]
  · intro hknown offset wanted hcut
    obtain ⟨reader, hread⟩ := (h.scans bytes hknown).truncated offset wanted hcut
    rw [Reader.run_eq, hread, Nat.zero_add]
  · intro hknown hmore
    obtain ⟨reader, hread⟩ := (h.scans bytes hknown).trailing hmore
    rw [Reader.run_eq, hread]
  · intro hknown hlength
    obtain ⟨value, reader, hread⟩ := (h.scans bytes hknown).ok hlength
    refine ⟨value, ?_⟩
    rw [Reader.run_eq, hread]

/-- The bytes of a record tell where it ends, so it has no end before or behind that. -/
theorem whole (h : KindedRead read types record) {bytes : Bytes} {value : α}
    (hvalue : Reader.run read bytes = .ok value) : Whole (Reader.run read) bytes := by
  obtain ⟨hknown, hlength⟩ := (h.graded bytes).ok_iff.1 ⟨value, hvalue⟩
  constructor
  · rintro front ⟨back, rfl⟩ hne
    have hfront : KindKnown front := by
      intro byte hhead
      exact hknown byte (by rw [List.head?_append, hhead, Option.some_or])
    -- If all pieces were there, the record would end there too.
    have hcut : front.length < (FieldType.allPieces front (.byte :: types)).sum := by
      refine Nat.lt_of_not_le fun hfits => hne ?_
      rw [FieldType.allPieces_append hfits, List.length_append] at hlength
      have hback : back.length = 0 := by omega
      rw [List.length_eq_zero_iff.1 hback, List.append_nil]
    exact (h.graded front).truncated_iff.2 ⟨hfront, hcut⟩
  · rintro longer ⟨more, rfl⟩ hne
    have hpieces := FieldType.allPieces_append (Nat.le_of_eq hlength.symm) more
    have hmore : more ≠ [] := fun hnil => hne (by rw [hnil, List.append_nil])
    refine ⟨_, ((h.graded _).malformed_iff _).2 ⟨?_, ?_, rfl⟩⟩
    · -- A record has at least the byte of its kind.
      cases bytes with
      | nil =>
        simp only [FieldType.allPieces, FieldType.pieces, List.sum_append, List.sum_singleton,
          List.length_nil] at hlength
        omega
      | cons byte rest => exact hknown
    · rw [hpieces, ← hlength, List.length_append]
      exact Nat.lt_add_of_pos_right (List.length_pos_iff.2 hmore)

end KindedRead

/-! ## Call messages and program records -/

/-- The length of 32 bits that stands at an offset. -/
def lengthAt (bytes : Bytes) (offset : Nat) : Nat :=
  Bytes.toNatLE ((bytes.drop offset).take 4)

namespace CallMessage

/-- The sizes of the pieces of a message. -/
def pieces (bytes : Bytes) : List Nat :=
  [1, 4, 4, 8, 20, 20, 4, lengthAt bytes 57, 32, 32]

theorem kindedRead : KindedRead read
    [.u32, .u32, .u64, .address, .address, .counted, .word, .word] .callMessage :=
  CallKind.kindedRead_bind fun _ _ _ =>
    Reader.scans_u32.bind fun _ _ _ => Reader.scans_u32.bind fun _ _ _ =>
    Reader.scans_u64.bind fun _ _ _ => Reader.scans_address.bind fun _ _ _ =>
    Reader.scans_address.bind fun _ _ _ => Reader.scans_counted.bind fun _ _ _ =>
    Reader.scans_word.bind fun _ _ _ => Reader.scans_word.bind fun _ _ _ =>
    Reader.scansRecord_finish _ _

theorem allPieces_eq (bytes : Bytes) :
    FieldType.allPieces bytes
      [.byte, .u32, .u32, .u64, .address, .address, .counted, .word, .word] = pieces bytes := by
  simp only [FieldType.allPieces, FieldType.pieces, List.drop_drop, List.sum_singleton,
    List.cons_append, List.nil_append, Nat.reduceAdd, pieces, lengthAt]

end CallMessage

namespace Program

/-- The sizes of the pieces of a record. -/
def pieces (bytes : Bytes) : List Nat :=
  [1, 4, 4, 20, 20, 4, lengthAt bytes 49, 4, lengthAt bytes (53 + lengthAt bytes 49)]

theorem kindedRead : KindedRead read
    [.u32, .u32, .address, .address, .counted, .counted] .program :=
  CallKind.kindedRead_bind fun _ _ _ =>
    Reader.scans_u32.bind fun _ _ _ => Reader.scans_u32.bind fun _ _ _ =>
    Reader.scans_address.bind fun _ _ _ => Reader.scans_address.bind fun _ _ _ =>
    Reader.scans_counted.bind fun _ _ _ => Reader.scans_counted.bind fun _ _ _ =>
    Reader.scansRecord_finish _ _

theorem allPieces_eq (bytes : Bytes) :
    FieldType.allPieces bytes
      [.byte, .u32, .u32, .address, .address, .counted, .counted] = pieces bytes := by
  have hoffset (code : Nat) : 49 + (4 + (code + 0)) = 53 + code := by omega
  simp only [FieldType.allPieces, FieldType.pieces, List.drop_drop, List.sum_cons, List.sum_nil,
    List.cons_append, List.nil_append, Nat.reduceAdd, pieces, lengthAt, hoffset]

end Program

/-- What reads as a call message or a program record. For every byte string:

* It is refused for its first byte exactly when that stands for no kind of call.
* Otherwise it is refused as truncated exactly when it is shorter than its pieces, and then at the
  first piece that does not fit; it is refused as malformed exactly when it is longer, for the bytes
  behind the last piece; and it is read exactly when its pieces fill it. That is a length of 125 and
  the input for a call message, and of 57, the code and the input for a program record.
* What is written is refused as truncated without its end, and as malformed with more behind it. -/
theorem records_grammar (bytes : Bytes) :
    Graded CallMessage.decode .callMessage (CallMessage.pieces bytes) bytes ∧
    Graded Program.decode .program (Program.pieces bytes) bytes ∧
    ((∃ message, CallMessage.decode bytes = .ok message) ↔
      KindKnown bytes ∧ bytes.length = 125 + lengthAt bytes 57) ∧
    ((∃ program, Program.decode bytes = .ok program) ↔
      KindKnown bytes ∧
        bytes.length = 57 + lengthAt bytes 49 + lengthAt bytes (53 + lengthAt bytes 49)) ∧
    (∀ message capacity, CallMessage.encode message capacity = .ok bytes →
      Whole CallMessage.decode bytes) ∧
    (∀ program capacity, Program.encode program capacity = .ok bytes →
      Whole Program.decode bytes) := by
  -- The pieces are those of the fields, with the two lengths read where they stand.
  have hmessage : Graded CallMessage.decode .callMessage (CallMessage.pieces bytes) bytes := by
    rw [← CallMessage.allPieces_eq]
    exact CallMessage.kindedRead.graded bytes
  have hprogram : Graded Program.decode .program (Program.pieces bytes) bytes := by
    rw [← Program.allPieces_eq]
    exact Program.kindedRead.graded bytes
  refine ⟨hmessage, hprogram, ?_, ?_, fun message capacity h => ?_, fun program capacity h => ?_⟩
  · have hsum : (CallMessage.pieces bytes).sum = 125 + lengthAt bytes 57 := by
      simp only [CallMessage.pieces, List.sum_cons, List.sum_nil]
      omega
    rw [hmessage.ok_iff, hsum]
  · have hsum : (Program.pieces bytes).sum =
        57 + lengthAt bytes 49 + lengthAt bytes (53 + lengthAt bytes 49) := by
      simp only [Program.pieces, List.sum_cons, List.sum_nil]
      omega
    rw [hprogram.ok_iff, hsum]
  · exact CallMessage.kindedRead.whole
      ((CallMessage.wireForm.encode_eq_ok_iff_decode_eq_ok _ _ _).1 h).2
  · exact Program.kindedRead.whole ((Program.wireForm.encode_eq_ok_iff_decode_eq_ok _ _ _).1 h).2

/-- A call message with three bytes of input, cut within its input and followed by one more
byte. -/
theorem records_grammar_cut :
    let message : CallMessage := { (default : CallMessage) with input := [1, 2, 3] }
    let bytes : Bytes := List.replicate 57 0 ++ [3, 0, 0, 0, 1, 2, 3] ++ List.replicate 64 0
    message.encode 128 = .ok bytes ∧ KindKnown (bytes.take 63) ∧
      CutAt (CallMessage.pieces (bytes.take 63)) 63 61 3 ∧
      CallMessage.decode (bytes.take 63) = .error (.truncated 61 3 2) ∧
      ∃ fault, CallMessage.decode (bytes ++ [9]) = .error (.malformedRecord fault) := by
  intro message bytes
  have hencode : message.encode 128 = .ok bytes := by decide +kernel
  have hknown : KindKnown (bytes.take 63) := by
    intro byte hbyte
    obtain rfl : 0 = byte := Option.some.inj hbyte
    decide
  have hcut : CutAt (CallMessage.pieces (bytes.take 63)) 63 61 3 :=
    ⟨[1, 4, 4, 8, 20, 20, 4], [32, 32], by decide +kernel, by decide, by decide, by decide⟩
  have hlength : (bytes.take 63).length = 63 := by decide +kernel
  obtain ⟨hgraded, -⟩ := records_grammar (bytes.take 63)
  obtain ⟨-, -, -, -, hwhole, -⟩ := records_grammar bytes
  refine ⟨hencode, hknown, hcut, (hgraded.truncatedAt_iff 61 3 2).2 ?_, ?_⟩
  · rw [hlength]
    exact ⟨hknown, hcut, rfl⟩
  · refine (hwhole message 128 hencode).malformed_of_longer _ (List.prefix_append bytes [9]) ?_
    exact fun h => List.cons_ne_nil _ _ (List.append_right_eq_self.1 h)

end CallGate
