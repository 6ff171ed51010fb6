import Mathlib.Data.List.Nodup
import CallGate.Proofs.Host.Echo
import CallGate.Proofs.Host.Failure
import CallGate.Proofs.Message.Capacity

/-!
# Settings that can be used

Settings are checked once, by their capacities and numbers alone. What passes the check leaves room
for every kind of message: a call and a log record overflow their buffers exactly if the input, or
the data with the topics, is larger than the buffer without the fixed part of the message, and every
output that leaves room for the fixed part of an answer with gas comes back from a call, however gas
is accounted for.

* `Numbering.duplicate?_eq_find?`: which number is reported as a duplicate.
* `Host.call_overflow_iff`, `Host.emitLog_overflow_iff`: what is too large, for all lengths.
* `Settings.decode_resultBuffer`: an answer is read back from the result buffer.
* `Host.check_usable`: what it means that settings pass their check.
-/

namespace CallGate

/-- The operations after an operation. -/
def Syscall.later (syscall : Syscall) : List Syscall :=
  (all.dropWhile (· ≠ syscall)).tail

namespace Numbering

/-- The numbers differ if no two operations have the same. -/
theorem nodup_numbers_iff (numbering : Numbering) :
    numbering.numbers.Nodup ↔ Function.Injective numbering.number := by
  have hall : Syscall.all.Nodup := by decide
  rw [numbers, List.nodup_map_iff_inj_on hall]
  exact ⟨fun h first second => h first first.mem_all second second.mem_all,
    fun h first _ second _ => @h first second⟩

/-- The number of the first operation that has the number of a later one. -/
theorem duplicate?_eq_find? (numbering : Numbering) :
    numbering.duplicate? =
      (Syscall.all.find? fun syscall =>
        decide (numbering.number syscall ∈ syscall.later.map numbering.number)).map
        numbering.number := by
  -- Each operation in turn, with the operations that are left behind it.
  have hret : Syscall.ret.later = [.log, .selfDestruct, .call] := rfl
  have hlog : Syscall.log.later = [.selfDestruct, .call] := rfl
  have hselfDestruct : Syscall.selfDestruct.later = [.call] := rfl
  have hcall : Syscall.call.later = [] := rfl
  simp only [duplicate?, numbers, Syscall.all, List.map_cons, List.map_nil, firstRepeated?,
    List.find?_cons, hret, hlog, hselfDestruct, hcall]
  repeat' split
  all_goals simp_all

end Numbering

/-! ## What is too large -/

/-- A call message above the capacity is refused with its size. -/
theorem CallMessage.encode_overflow {message : CallMessage} {capacity : Nat}
    (hlarge : capacity < 125 + message.input.length) :
    message.encode capacity =
      .error (.bufferOverflow (min message.encodedLength maxSize) capacity) :=
  Writer.build_fields_overflow hlarge message.fields

/-- A log record above the capacity is refused with its size. -/
theorem LogRecord.encode_overflow {record : LogRecord} {capacity : Nat}
    (htopics : record.topics.length ≤ maxCountedLength)
    (hlarge : capacity < 8 + record.data.length + 32 * record.topics.length) :
    record.encode capacity =
      .error (.bufferOverflow (min record.encodedLength maxSize) capacity) := by
  rw [encode, Writer.build_guarded_of_le htopics]
  exact Writer.build_fields_overflow hlarge record.fields

namespace Settings

/-- No answer of the boundary says that something was too large to be written. -/
theorem readAnswer_ne_bufferOverflow (settings : Settings) (requestGas : UInt64) (answer : Bytes)
    (required capacity : Nat) :
    settings.readAnswer requestGas answer ≠ .error (.wire (.bufferOverflow required capacity)) := by
  intro h
  rcases settings.readAnswer_cases requestGas answer
    with ⟨-, hread⟩ | ⟨-, fault, hread⟩ | ⟨-, result, hread⟩ <;> rw [hread] at h <;> cases h

/-- An answer is read back from a result buffer that has room for the gas, in either accounting and
with gas or without. -/
theorem decode_resultBuffer {settings : Settings} {output : Bytes}
    (hmax : settings.callCapacity ≤ maxOutputLength)
    (houtput : output.length + 32 ≤ settings.callCapacity) (created : Address)
    (gas : Option UInt64) (accounting : GasAccounting) (requestGas : UInt64) :
    CallResult.decode (settings.resultBuffer (CallResult.encoding output created gas)) requestGas
        accounting =
      .ok (.success
        (match accounting with
          | .passThrough => requestGas
          | .trailer => gas.getD 0) output created) := by
  have hlength := CallResult.length_encoding output created gas
  rw [CallResult.encodedLength, CallResult.fixedLength] at hlength
  have hleast : accounting.answerLength ≤ 32 := by cases accounting <;> decide
  -- The buffer has room for the answer in either accounting.
  have hwhole : accounting.answerLength + output.length ≤
      (settings.resultBuffer (CallResult.encoding output created gas)).length := by
    rw [resultBuffer, List.length_append, List.length_replicate]
    omega
  -- Where the gas is not told, zeros stand in its place.
  have hzeros : gas = none →
      8 ≤ settings.callCapacity - (CallResult.encoding output created gas).length := by
    rintro rfl
    rw [hlength, Option.isSome_none, if_neg Bool.false_ne_true]
    omega
  have hdecode := CallResult.decode_encoding_append (Nat.le_trans (by omega) hmax) created gas _
    requestGas hwhole
  rw [GasAccounting.gasLeft_trailer_zeros _ _ hzeros] at hdecode
  exact hdecode

end Settings

namespace Host

/-- What the boundary refuses is refused with a status. -/
theorem verdict_ne_wire (host : Host) (syscall : Syscall) (error : WireError) :
    host.verdict syscall ≠ .error (.wire error) := by
  intro h
  obtain ⟨code, -, hstatus⟩ := of_verdict_eq_error h
  cases hstatus

/-- Once a message is written, a call does not say that it was too large. -/
theorem call_ne_bufferOverflow {host : Host} {message : CallMessage} {encoded : Bytes}
    (hencode : message.encode host.settings.callCapacity = .ok encoded) (required capacity : Nat) :
    (host.call message).1 ≠ .error (.wire (.bufferOverflow required capacity)) := by
  have hread := fun answer =>
    host.settings.readAnswer_ne_bufferOverflow message.gas answer required capacity
  simp only [call_reply, hencode]
  cases host.boundary.failures.find? host.settings.numbering.call with
  | none => exact hread _
  | some code =>
    -- The boundary gives a status; if that is zero, the empty buffer is read.
    show (host.verdict .call).bind _ ≠ _
    cases hverdict : host.verdict .call with
    | ok _ => exact hread []
    | error error =>
      intro h
      cases h
      exact host.verdict_ne_wire .call _ hverdict

/-- A call overflows its buffer exactly if the input is larger than what the fixed part leaves,
whatever the boundary does and however long the input is. -/
theorem call_overflow_iff {host : Host} (hmin : 125 ≤ host.settings.callCapacity)
    (hmax : host.settings.callCapacity ≤ maxOutputLength) (message : CallMessage) :
    (∃ required capacity,
        (host.call message).1 = .error (.wire (.bufferOverflow required capacity))) ↔
      host.settings.callCapacity - 125 < message.input.length := by
  constructor
  · rintro ⟨required, capacity, hcall⟩
    -- An input that fits is short enough to be counted, so the message is written.
    by_contra hfits
    have hinput : message.input.length < 2 ^ 32 := by
      rw [maxOutputLength] at hmax
      omega
    exact call_ne_bufferOverflow (encode_of_le hinput (by omega)) _ _ hcall
  · intro hlarge
    have hsize : host.settings.callCapacity < 125 + message.input.length := by omega
    exact ⟨_, _, congrArg Prod.fst (call_of_error (CallMessage.encode_overflow hsize))⟩

/-- A log record is refused for its size exactly if it is above what the capacity leaves behind the
two counts. -/
theorem emitLog_overflow_iff {host : Host} (hmin : 8 ≤ host.settings.logCapacity)
    (hmax : host.settings.logCapacity ≤ maxOutputLength) (record : LogRecord)
    (htopics : record.topics.length < 2 ^ 32) :
    (∃ required capacity,
        (host.emitLog record).1 = .error (.wire (.bufferOverflow required capacity))) ↔
      host.settings.logCapacity - 8 < record.data.length + 32 * record.topics.length := by
  have hcount : record.topics.length ≤ maxCountedLength := Nat.le_of_lt_succ htopics
  constructor
  · rintro ⟨required, capacity, hlog⟩
    by_contra hfits
    have hdata : record.data.length ≤ maxCountedLength := by
      rw [maxOutputLength] at hmax
      rw [maxCountedLength]
      omega
    have hsize : record.encodedLength ≤ host.settings.logCapacity := by
      rw [LogRecord.encodedLength, LogRecord.fixedLength, LogRecord.topicLength]
      omega
    -- A record that is written is refused with a status, if at all.
    obtain ⟨encoded, hencode⟩ :=
      ((LogRecord.exactFit hdata hcount).exists_ok_iff host.settings.logCapacity).2 hsize
    rw [emitLog_reply, hencode] at hlog
    exact host.verdict_ne_wire .log _ hlog
  · intro hlarge
    have hsize : host.settings.logCapacity <
        8 + record.data.length + 32 * record.topics.length := by omega
    exact ⟨_, _, congrArg Prod.fst (emitLog_of_error (LogRecord.encode_overflow hcount hsize))⟩

/-- An answer that the boundary gives to a call whose message fits comes back from it. -/
theorem call_of_answer {host : Host} {message : CallMessage} {output : Bytes} {created : Address}
    {gas : Option UInt64} (hmax : host.settings.callCapacity ≤ maxOutputLength)
    (houtput : output.length + 32 ≤ host.settings.callCapacity)
    (hencode : message.encode host.settings.callCapacity = .ok message.encoding)
    (hfind : host.boundary.failures.find? host.settings.numbering.call = none)
    (hanswer : host.boundary.answer message.encoding = CallResult.encoding output created gas) :
    (host.call message).1 =
      .ok (.success
        (match host.settings.gasAccounting with
          | .passThrough => message.gas
          | .trailer => gas.getD 0) output created) := by
  have hlength : (CallResult.encoding output created gas).length ≤ host.settings.callCapacity := by
    rw [CallResult.length_encoding, CallResult.encodedLength, CallResult.fixedLength]
    split <;> omega
  rw [call_of_none hencode hfind, hanswer, Settings.readAnswer_of_le hlength,
    Settings.decode_resultBuffer hmax houtput]
  rfl

/-- Settings pass their check exactly if both capacities are in range and no two operations share a
number; the number reported otherwise is that of the first operation with the number of a later one.
Under settings that pass, whatever else the host holds,

* a call overflows exactly if its input is larger than the buffer without the 125 bytes of an empty
  message, and a log record exactly if its data and topics are larger than the buffer without its 8;
* every output that leaves 32 bytes of the buffer can be written as an answer, with gas or without,
  and the buffer that holds the answer is read back in either accounting;
* a call with an input that fits, to a boundary that takes it and gives this answer, succeeds with
  what was answered. -/
theorem check_usable (host : Host) :
    let settings := host.settings
    (settings.check = .ok () ↔
      (125 ≤ settings.callCapacity ∧ settings.callCapacity ≤ 16 * 1024 * 1024) ∧
      (8 ≤ settings.logCapacity ∧ settings.logCapacity ≤ 16 * 1024 * 1024) ∧
      Function.Injective settings.numbering.number) ∧
    (settings.numbering.duplicate? = none ↔ Function.Injective settings.numbering.number) ∧
    settings.numbering.duplicate? =
      (Syscall.all.find? fun syscall =>
        decide (settings.numbering.number syscall ∈
          syscall.later.map settings.numbering.number)).map settings.numbering.number ∧
    (settings.check = .ok () →
      125 ≤ settings.callCapacity ∧ 8 ≤ settings.logCapacity ∧
      (∀ message,
        (∃ required capacity,
          (host.call message).1 = .error (.wire (.bufferOverflow required capacity))) ↔
        settings.callCapacity - 125 < message.input.length) ∧
      (∀ record : LogRecord, record.topics.length < 2 ^ 32 →
        ((∃ required capacity,
          (host.emitLog record).1 = .error (.wire (.bufferOverflow required capacity))) ↔
        settings.logCapacity - 8 < record.data.length + 32 * record.topics.length)) ∧
      (∀ output created gas, output.length ≤ settings.callCapacity - 32 →
        ∃ answer, CallResult.encode output created gas settings.callCapacity = .ok answer ∧
          answer.length ≤ settings.callCapacity ∧
          (∀ accounting requestGas,
            CallResult.decode (settings.resultBuffer answer) requestGas accounting =
              .ok (.success
                (match accounting with
                  | .passThrough => requestGas
                  | .trailer => gas.getD 0) output created)) ∧
          (∀ message : CallMessage, message.input.length ≤ settings.callCapacity - 125 →
            ∃ encoded, message.encode settings.callCapacity = .ok encoded ∧
              (host.boundary.failures.find? settings.numbering.call = none →
                host.boundary.answer encoded = answer →
                (host.call message).1 =
                  .ok (.success
                    (match settings.gasAccounting with
                      | .passThrough => message.gas
                      | .trailer => gas.getD 0) output created))))) := by
  intro settings
  have hcheck := settings.check_eq_ok_iff
  rw [Numbering.nodup_numbers_iff] at hcheck
  have hduplicate := settings.numbering.duplicate?_eq_none_iff
  rw [Numbering.nodup_numbers_iff] at hduplicate
  refine ⟨hcheck, hduplicate, settings.numbering.duplicate?_eq_find?, fun hok => ?_⟩
  obtain ⟨⟨hcallMin, hcallMax⟩, ⟨hlogMin, hlogMax⟩, -⟩ := hcheck.1 hok
  -- The largest buffer is smaller than what the counts on the wire can tell.
  have hmax : 16 * 1024 * 1024 ≤ maxOutputLength := by decide
  have hcall : settings.callCapacity ≤ maxOutputLength := Nat.le_trans hcallMax hmax
  refine ⟨hcallMin, hlogMin, call_overflow_iff hcallMin hcall,
    emitLog_overflow_iff hlogMin (Nat.le_trans hlogMax hmax), ?_⟩
  intro output created gas houtput
  have hroom : output.length + 32 ≤ settings.callCapacity := by omega
  have hsize : CallResult.encodedLength output gas ≤ settings.callCapacity := by
    rw [CallResult.encodedLength, CallResult.fixedLength]
    split <;> omega
  have hencode : CallResult.encode output created gas settings.callCapacity =
      .ok (CallResult.encoding output created gas) :=
    (CallResult.encode_eq_ok_iff _ _ _ _ _).2 ⟨by omega, hsize, rfl⟩
  refine ⟨_, hencode, ?_, Settings.decode_resultBuffer hcall hroom created gas, ?_⟩
  · rwa [CallResult.length_encoding]
  · intro message hinput
    have hmessage : message.encode settings.callCapacity = .ok message.encoding :=
      encode_of_le (by omega) (by omega)
    exact ⟨_, hmessage, fun hfind hanswer => call_of_answer hcall hroom hmessage hfind hanswer⟩

/-- The smallest buffers hold an empty call, and an answer of 93 bytes with gas fills one of
them. -/
theorem check_usable_smallest :
    let settings : Settings := { callCapacity := 125, logCapacity := 8, gasAccounting := .trailer }
    let output : Bytes := List.replicate 93 1
    let boundary : Boundary :=
      { responder := some (.stateless fun _ => CallResult.encoding output .zero (some 7)) }
    let host : Host := ⟨boundary, { origin := .zero }, .blank, settings⟩
    settings.check = .ok () ∧ settings.numbering.duplicate? = none ∧
      (∃ required capacity, (host.call { (default : CallMessage) with input := [0] }).1 =
        .error (.wire (.bufferOverflow required capacity))) ∧
      (∃ required capacity, (host.emitLog ⟨[0], []⟩).1 =
        .error (.wire (.bufferOverflow required capacity))) ∧
      (host.call default).1 = .ok (.success 7 output .zero) := by
  intro settings output boundary host
  have hcheck : settings.check = .ok () := rfl
  obtain ⟨-, -, -, husable⟩ := check_usable host
  obtain ⟨-, -, hcall, hlog, hanswer⟩ := husable hcheck
  obtain ⟨answer, hencode, -, -, hcalls⟩ := hanswer output .zero (some 7) (by decide)
  obtain ⟨-, -, hbytes⟩ := (CallResult.encode_eq_ok_iff _ _ _ _ _).1 hencode
  obtain ⟨encoded, -, hresult⟩ := hcalls default (by decide)
  -- One byte of input or of data is more than the smallest buffers leave room for.
  exact ⟨hcheck, rfl, (hcall _).2 (by decide), (hlog _ (by decide)).2 (by decide),
    hresult rfl hbytes.symm⟩

end Host

end CallGate
