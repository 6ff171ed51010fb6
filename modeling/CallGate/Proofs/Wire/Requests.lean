import Mathlib.Order.Basic
import CallGate.Proofs.Run
import CallGate.Proofs.Wire.Sequence

/-!
# Requests to a writer

A writer is asked for one thing after the other, and any request may fail. A request succeeds
exactly when the bytes that it asks for fit behind those written so far. One that fails changes
nothing, so smaller ones behind it may still succeed. What is written in the end is what the
successful requests wrote, in their order.

* `Writer.Request`, `Writer.run`: requests and their outcomes.
* `Writer.step_of_hasRoom`, `Writer.step_of_not_hasRoom`: the two outcomes of a request.
* `Writer.written_run`, `Writer.size_run_le`: what a run writes, and how much.
* `Writer.run_requests`: every request of a run under a capacity of 64 bits.
-/

namespace CallGate

namespace Writer

/-- One thing that a writer is asked for. -/
inductive Request where
  /-- Write a field. -/
  | put (field : Field)
  /-- Tell whether this many more bytes fit. -/
  | ensure (additional : UInt64)
deriving DecidableEq

namespace Request

/-- The operation that carries a request out. -/
def operation : Request → Write Unit
  | .put field => field.put
  | .ensure additional => Writer.ensure additional.toNat

/-- How many bytes a request asks for. -/
def asked : Request → Nat
  | .put field => field.size
  | .ensure additional => additional.toNat

/-- What a request writes if it succeeds. -/
def fields : Request → List Field
  | .put field => [field]
  | .ensure _ => []

/-- Whether the lengths in a request can be counted. -/
def Countable (request : Request) : Prop :=
  ∀ field ∈ request.fields, field.Countable

end Request

/-- The outcome of a request, and the writer after it. -/
def step (writer : Writer) (request : Request) : Except WireError Unit × Writer :=
  match request.operation writer with
  | .ok _ writer => (.ok (), writer)
  | .error error writer => (.error error, writer)

/-- The outcomes of requests one after the other, whether or not those before them failed, and the
writer after the last. -/
def run (writer : Writer) : List Request → List (Except WireError Unit) × Writer
  | [] => ([], writer)
  | request :: requests =>
    let (outcome, writer) := writer.step request
    let (outcomes, writer) := writer.run requests
    (outcome :: outcomes, writer)

/-- What the successful ones of some requests write, from the requests and their outcomes. -/
def accepted (requests : List Request) (outcomes : List (Except WireError Unit)) : List Field :=
  (requests.zip outcomes).flatMap fun
    | (request, .ok _) => request.fields
    | (_, .error _) => []

/-! ## One request -/

/-- Under a capacity that can be counted, every size up to it can be counted. -/
theorem hasRoom_iff {writer : Writer} (hcapacity : writer.capacity ≤ maxSize) (count : Nat) :
    writer.HasRoom count ↔ writer.size + count ≤ writer.capacity := by
  rw [HasRoom, and_iff_left_iff_imp]
  intro hle
  exact Nat.le_trans hle hcapacity

variable {request : Request} {writer : Writer}

/-- A request with room for its bytes succeeds and writes its fields. -/
theorem step_of_hasRoom (hcount : request.Countable) (hroom : writer.HasRoom request.asked) :
    writer.step request = (.ok (), writer.append (Field.encodings request.fields)) := by
  cases request with
  | put field =>
    -- A field asks for as many bytes as encode it.
    have hfield : field.Countable := hcount field List.mem_cons_self
    rw [Request.asked, ← Field.length_encoding] at hroom
    have hput : field.put writer = .ok () (writer.append field.encoding) := by
      rw [Field.put_eq hfield, put_of_hasRoom hroom]
    simp [step, Request.operation, hput, Request.fields, Field.encodings]
  | ensure additional =>
    have hensure : ensure additional.toNat writer = .ok () writer := ensure_of_hasRoom hroom
    simp [step, Request.operation, hensure, Request.fields, Field.encodings, append_nil]

/-- A request without room for its bytes leaves the writer as it was, and tells how large the
writer would have had to be. -/
theorem step_of_not_hasRoom (hcount : request.Countable) (hroom : ¬writer.HasRoom request.asked) :
    writer.step request =
      (.error (.bufferOverflow (min (writer.size + request.asked) maxSize) writer.capacity),
        writer) := by
  cases request with
  | put field =>
    have hfield : field.Countable := hcount field List.mem_cons_self
    rw [Request.asked, ← Field.length_encoding] at hroom ⊢
    simp [step, Request.operation, Field.put_eq hfield, put_of_not_hasRoom hroom]
  | ensure additional =>
    have hensure := ensure_of_not_hasRoom hroom
    rw [Request.asked] at hensure ⊢
    simp [step, Request.operation, hensure]

/-- A question about room writes nothing, whatever its answer. -/
theorem step_ensure (writer : Writer) (additional : UInt64) :
    (writer.step (.ensure additional)).2 = writer := by
  have hcount : (Request.ensure additional).Countable := nofun
  by_cases hroom : writer.HasRoom (Request.ensure additional).asked
  · rw [step_of_hasRoom hcount hroom]
    exact append_nil writer
  · rw [step_of_not_hasRoom hcount hroom]

/-- No request changes the capacity. -/
theorem capacity_step (hcount : request.Countable) (writer : Writer) :
    (writer.step request).2.capacity = writer.capacity := by
  by_cases hroom : writer.HasRoom request.asked
  · rw [step_of_hasRoom hcount hroom, capacity_append]
  · rw [step_of_not_hasRoom hcount hroom]

/-- A request writes at most as many bytes as it asks for. -/
theorem Request.length_fields_le (request : Request) :
    (Field.encodings request.fields).length ≤ request.asked := by
  cases request with
  | put field => simp [fields, Field.encodings, Field.length_encoding, asked]
  | ensure additional => exact Nat.zero_le _

/-- A request does not fill a writer beyond its capacity. -/
theorem size_step_le (hcount : request.Countable) (hsize : writer.size ≤ writer.capacity) :
    (writer.step request).2.size ≤ (writer.step request).2.capacity := by
  by_cases hroom : writer.HasRoom request.asked
  · rw [step_of_hasRoom hcount hroom, size_append, capacity_append]
    -- What is written is at most what there was room for.
    have hlength := request.length_fields_le
    have hfits := hroom.1
    omega
  · rw [step_of_not_hasRoom hcount hroom]
    exact hsize

/-- A request that succeeds writes its fields behind what was written, and one that fails writes
nothing. -/
theorem written_step (hcount : request.Countable) (writer : Writer) :
    (writer.step request).2.written =
      writer.written ++ Field.encodings (accepted [request] [(writer.step request).1]) := by
  by_cases hroom : writer.HasRoom request.asked
  · rw [step_of_hasRoom hcount hroom, written_append]
    simp [accepted]
  · rw [step_of_not_hasRoom hcount hroom]
    simp [accepted, Field.encodings]

/-! ## Runs -/

theorem isRun : IsRun Writer.step Writer.run :=
  ⟨fun _ => rfl, fun _ _ _ => rfl⟩

theorem run_cons (writer : Writer) (request : Request) (requests : List Request) :
    writer.run (request :: requests) =
      ((writer.step request).1 :: ((writer.step request).2.run requests).1,
        ((writer.step request).2.run requests).2) := rfl

/-- The requests of a second list find the writer as those of the first have left it. -/
theorem run_append (writer : Writer) (first second : List Request) :
    writer.run (first ++ second) =
      ((writer.run first).1 ++ ((writer.run first).2.run second).1,
        ((writer.run first).2.run second).2) :=
  isRun.append writer first second

/-- The outcome of a request in a run is that of the request after those before it. -/
theorem run_outcome (writer : Writer) (before after : List Request) (request : Request) :
    (writer.run (before ++ request :: after)).1[before.length]? =
      some ((writer.run before).2.step request).1 :=
  isRun.getElem? writer before request after

/-- What is written is what the first request writes and then what the others write. -/
theorem accepted_cons (request : Request) (requests : List Request)
    (outcome : Except WireError Unit) (outcomes : List (Except WireError Unit)) :
    accepted (request :: requests) (outcome :: outcomes) =
      accepted [request] [outcome] ++ accepted requests outcomes := by
  simp [accepted]

variable {requests : List Request}

/-- No requests change the capacity. -/
theorem capacity_run (hcount : ∀ request ∈ requests, request.Countable) (writer : Writer) :
    (writer.run requests).2.capacity = writer.capacity := by
  induction requests generalizing writer with
  | nil => rfl
  | cons request rest ih =>
    obtain ⟨hrequest, hrest⟩ := List.forall_mem_cons.1 hcount
    rw [run_cons, ih hrest, capacity_step hrequest]

/-- No run fills a writer beyond its capacity. -/
theorem size_run_le (hcount : ∀ request ∈ requests, request.Countable)
    (hsize : writer.size ≤ writer.capacity) :
    (writer.run requests).2.size ≤ (writer.run requests).2.capacity := by
  induction requests generalizing writer with
  | nil => exact hsize
  | cons request rest ih =>
    obtain ⟨hrequest, hrest⟩ := List.forall_mem_cons.1 hcount
    exact ih hrest (size_step_le hrequest hsize)

/-- A run adds what its successful requests write, in their order, and nothing else. -/
theorem written_run (hcount : ∀ request ∈ requests, request.Countable) (writer : Writer) :
    (writer.run requests).2.written =
      writer.written ++ Field.encodings (accepted requests (writer.run requests).1) := by
  induction requests generalizing writer with
  | nil => simp [run, accepted, Field.encodings]
  | cons request rest ih =>
    obtain ⟨hrequest, hrest⟩ := List.forall_mem_cons.1 hcount
    -- What the first request wrote is what the others find written.
    rw [run_cons, accepted_cons, Field.encodings_append, ← List.append_assoc,
      ← written_step hrequest]
    exact ih hrest _

/-- Requests to an empty writer under any capacity of 64 bits, where counted byte strings are
shorter than `2 ^ 32` bytes.

* What is written are the encodings of the fields whose requests succeeded, in order.
* After any number of the requests, no more is written than the capacity, and what is written and
  what remains make up the capacity.
* Each request succeeds exactly when the bytes that it asks for fit behind those written before. If
  not, the writer stays as it was, and the error tells the size that it would have had to have, cut
  to 64 bits, and its capacity. To ask whether bytes fit changes nothing in any case. -/
theorem run_requests (capacity : UInt64) (requests : List Request)
    (hcount : ∀ bytes, .put (.counted bytes) ∈ requests → bytes.length < 2 ^ 32) :
    let start := ofCapacity capacity.toNat
    let outcomes := (start.run requests).1
    (start.run requests).2.written = Field.encodings (accepted requests outcomes) ∧
    (∀ before : List Request, before <+: requests →
      let writer := (start.run before).2
      writer.size ≤ capacity.toNat ∧ writer.size + writer.remaining = capacity.toNat) ∧
    ∀ (before after : List Request) (request : Request), requests = before ++ request :: after →
      let writer := (start.run before).2
      let later := (start.run (before ++ [request])).2
      (outcomes[before.length]? = some (.ok ()) ↔
        writer.size + request.asked ≤ capacity.toNat) ∧
      (capacity.toNat < writer.size + request.asked →
        outcomes[before.length]? = some (.error
          (.bufferOverflow (min (writer.size + request.asked) (2 ^ 64 - 1)) capacity.toNat)) ∧
        later = writer) ∧
      (∀ additional, request = .ensure additional → later = writer) := by
  intro start outcomes
  have hcountable : ∀ request ∈ requests, request.Countable := by
    intro request hrequest
    cases request with
    | put field =>
      apply Field.countable_of_length_lt
      intro bytes hbytes
      obtain rfl := List.mem_singleton.1 hbytes
      exact hcount bytes hrequest
    | ensure additional => nofun
  have hmax : capacity.toNat ≤ maxSize := Nat.le_of_lt_succ capacity.toNat_lt
  refine ⟨written_run hcountable start, ?_, ?_⟩
  · rintro before ⟨after, rfl⟩ writer
    have hbefore := (List.forall_mem_append.1 hcountable).1
    have hcapacity : writer.capacity = capacity.toNat := capacity_run hbefore start
    have hsize : writer.size ≤ writer.capacity := size_run_le hbefore (Nat.zero_le _)
    rw [remaining]
    omega
  · rintro before after request rfl writer later
    obtain ⟨hbefore, hothers⟩ := List.forall_mem_append.1 hcountable
    have hrequest : request.Countable := hothers request List.mem_cons_self
    have hcapacity : writer.capacity = capacity.toNat := capacity_run hbefore start
    have houtcome : outcomes[before.length]? = some (writer.step request).1 :=
      start.run_outcome before after request
    have hlater : later = (writer.step request).2 := by
      show (start.run (before ++ [request])).2 = _
      rw [run_append]
      rfl
    -- The capacity is one of 64 bits, so only the capacity limits the sum.
    have hroom : writer.HasRoom request.asked ↔ writer.size + request.asked ≤ capacity.toNat := by
      rw [hasRoom_iff (hcapacity.trans_le hmax), hcapacity]
    rw [houtcome, hlater]
    refine ⟨?_, ?_, ?_⟩
    · rw [← hroom]
      by_cases hfits : writer.HasRoom request.asked
      · simp [step_of_hasRoom hrequest hfits, hfits]
      · simp [step_of_not_hasRoom hrequest hfits, hfits]
    · intro hlt
      have hfits : ¬writer.HasRoom request.asked := fun h => Nat.not_le.2 hlt (hroom.1 h)
      rw [step_of_not_hasRoom hrequest hfits, hcapacity]
      exact ⟨rfl, rfl⟩
    · rintro additional rfl
      exact step_ensure writer additional

/-- Four bytes under a capacity of six, then three that do not fit, a size that cannot be counted, a
counted byte string that does not fit, and two bytes that fill what remains. -/
theorem run_requests_filled :
    let requests : List Request := [.put (.u32 7), .put (.raw [0, 0, 0]),
      .ensure 0xFFFFFFFFFFFFFFFF, .put (.counted [1]), .put (.raw [1, 2])]
    let start := ofCapacity (6 : UInt64).toNat
    let outcomes := (start.run requests).1
    (∀ bytes, .put (.counted bytes) ∈ requests → bytes.length < 2 ^ 32) ∧
      (start.run requests).2.written = [7, 0, 0, 0, 1, 2] ∧
      (start.run requests).2.size + (start.run requests).2.remaining = 6 ∧
      outcomes[1]? = some (Except.error (WireError.bufferOverflow 7 6)) ∧
      outcomes[2]? = some (Except.error (WireError.bufferOverflow (2 ^ 64 - 1) 6)) ∧
      outcomes[4]? = some (Except.ok ()) := by
  intro requests start outcomes
  have hcount : ∀ bytes, .put (.counted bytes) ∈ requests → bytes.length < 2 ^ 32 := by
    intro bytes hbytes
    obtain rfl : bytes = [1] := by simpa [requests] using hbytes
    decide
  obtain ⟨hwritten, hwithin, hrequest⟩ := run_requests 6 requests hcount
  -- Each outcome is that of the request behind the ones before it.
  obtain ⟨-, hsecond, -⟩ := hrequest [.put (.u32 7)] _ _ rfl
  obtain ⟨-, hthird, -⟩ := hrequest [.put (.u32 7), .put (.raw [0, 0, 0])] _ _ rfl
  obtain ⟨hlast, -, -⟩ := hrequest [.put (.u32 7), .put (.raw [0, 0, 0]),
    .ensure 0xFFFFFFFFFFFFFFFF, .put (.counted [1])] _ _ rfl
  refine ⟨hcount, ?_, (hwithin requests (List.prefix_refl _)).2, ?_, ?_, ?_⟩
  · rw [hwritten]
    decide +kernel
  · exact (hsecond (by decide +kernel)).1
  · exact (hthird (by decide +kernel)).1
  · exact hlast.2 (by decide +kernel)

end Writer

end CallGate
