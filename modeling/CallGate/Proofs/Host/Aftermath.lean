import CallGate.Proofs.Host.Lifecycle
import CallGate.Proofs.Host.Separation

/-!
# Storage after a self-destruction

What the storage makes of a self-destruction is up to the settings. Strict ones seal it, whatever
the boundary said to the notice: from then on nothing is written, and nothing changes but the values
that the embedder notes. Under other settings the storage does not notice, and a run could do
without its self-destructions.

* `Host.Sealed.run_storage`: the storage after a run from a sealed host.
* `Host.SameLenient.unwinds`: without the self-destructions all else is answered as before.
* `Host.run_aftermath`: both over every run.
-/

namespace CallGate

/-- The two sets of an outcome. -/
def Outcome.storage (outcome : Outcome) : Overlay :=
  ⟨outcome.observed, outcome.written⟩

namespace Host

/-- The slot that the embedder notes a value for, with the value. -/
def Callback.noted? : Callback → Option (Word × Word)
  | .observe key value => some (key, value)
  | _ => none

/-! ## Strict settings -/

/-- A host that refuses every write. -/
structure Sealed (host : Host) : Prop where
  destructed : host.session.state = .destructed
  strict : host.settings.strictDestruct = true

/-- Under strict settings a host is sealed from the first self-destruction on. -/
theorem sealed_run {host : Host} (hstrict : host.settings.strictDestruct = true)
    (callbacks : List Callback)
    (h : host.session.state = .destructed ∨ ∃ callback ∈ callbacks, callback.beneficiary?.isSome) :
    (host.run callbacks).2.Sealed where
  destructed := (host.run_state callbacks).2 h
  strict := by
    rw [run_host]
    exact hstrict

namespace Sealed

variable {host : Host}

/-- A sealed host stays sealed through any run. -/
theorem run (h : host.Sealed) (callbacks : List Callback) : (host.run callbacks).2.Sealed :=
  sealed_run h.strict callbacks (.inl h.destructed)

theorem step (h : host.Sealed) (callback : Callback) : (host.step callback).2.Sealed :=
  h.run [callback]

/-- A sealed host refuses every write, and is left as it was. -/
theorem step_write (h : host.Sealed) (key value : Word) :
    host.step (.write key value) = (.error (.writeAfterDestruct key), host) := by
  have hrefused : (host.session.isDestructed && host.settings.strictDestruct) = true := by
    rw [Session.isDestructed, h.destructed, h.strict]
    rfl
  rw [Host.step, writeSlot, if_pos hrefused]
  rfl

/-- In a sealed host the written values stay, and so do the observed ones but for what the embedder
notes. -/
theorem step_storage (h : host.Sealed) (callback : Callback) :
    (host.step callback).2.session.storage =
      ⟨host.session.storage.observed.insertAll callback.noted?.toList,
        host.session.storage.written⟩ := by
  cases callback with
  | write key value =>
    rw [h.step_write]
    rfl
  | selfDestruct beneficiary | markDestructed beneficiary =>
    rw [step_host]
    exact host.session.markDestructed_storage beneficiary
  | _ =>
    rw [step_host]
    rfl

/-- In a sealed host a run changes nothing in the storage but the values that the embedder notes. -/
theorem run_storage (h : host.Sealed) (callbacks : List Callback) :
    (host.run callbacks).2.session.storage =
      ⟨host.session.storage.observed.insertAll (callbacks.filterMap Callback.noted?),
        host.session.storage.written⟩ := by
  induction callbacks generalizing host with
  | nil => rfl
  | cons callback rest ih =>
    rw [run_cons, ih (h.step callback), h.step_storage, List.filterMap_cons]
    cases callback.noted? <;> rfl

end Sealed

/-- A self-destruction leaves the storage as it was. -/
theorem step_storage_of_beneficiary? (host : Host) {callback : Callback}
    (h : callback.beneficiary?.isSome) :
    (host.step callback).2.session.storage = host.session.storage := by
  rw [step_host]
  cases callback with
  | selfDestruct beneficiary | markDestructed beneficiary =>
    exact host.session.markDestructed_storage beneficiary
  | _ => cases h

/-- A written slot reads as the value written to it. -/
theorem readSlot_of_written {host : Host} {key value : Word}
    (h : host.session.storage.written.find? key = some value) : host.readSlot key = value := by
  simp [readSlot, Overlay.read, h]

/-! ## Lenient settings -/

/-- Hosts that let a destructed session write, and differ at most in the beneficiary and in the
payloads that the boundary has taken. -/
structure SameLenient (host other : Host) : Prop where
  lenient : host.settings.strictDestruct = false
  origin : other.session.origin = host.session.origin
  storage : other.session.storage = host.session.storage
  accounts : other.accounts = host.accounts
  settings : other.settings = host.settings
  boundary : other.boundary = { host.boundary with sent := other.boundary.sent }

namespace SameLenient

variable {host other : Host} {callback : Callback}

theorem refl (h : host.settings.strictDestruct = false) : host.SameLenient host :=
  ⟨h, rfl, rfl, rfl, rfl, rfl⟩

theorem failures (h : host.SameLenient other) :
    other.boundary.failures = host.boundary.failures := by
  rw [h.boundary]

/-- What the boundary answers does not depend on the payloads it has taken. -/
theorem answer (h : host.SameLenient other) : other.boundary.answer = host.boundary.answer := by
  rw [h.boundary]
  rfl

/-- Nested calls are answered alike. -/
theorem call_reply (h : host.SameLenient other) (message : CallMessage) :
    (other.call message).1 = (host.call message).1 :=
  call_congr h.settings h.failures h.answer message

/-- Writes are answered alike. -/
theorem writeSlot_reply (h : host.SameLenient other) (key value : Word) :
    (other.writeSlot key value).1 = (host.writeSlot key value).1 := by
  simp only [writeSlot, h.settings, h.lenient, Bool.and_false, Bool.false_eq_true, if_false,
    Session.write, Overlay.write, h.storage]

/-- Every callback but a self-destruction is answered alike. -/
theorem step_reply (h : host.SameLenient other) (hkept : callback.beneficiary? = none) :
    (other.step callback).1 = (host.step callback).1 := by
  cases callback with
  | transaction => simp only [Host.step, transaction, h.origin]
  | account address offset buffer => simp only [Host.step, h.accounts]
  | settings => exact congrArg Reply.settings h.settings
  | read key => simp only [Host.step, readSlot, h.storage]
  | write key value => exact congrArg (Reply.ofExcept .status) (h.writeSlot_reply key value)
  | observe key value => rfl
  | call message => exact congrArg (Reply.ofExcept .result) (h.call_reply message)
  | callOrFailure message =>
    exact congrArg Reply.result (callOrFailure_congr (h.call_reply message))
  | log record =>
    exact congrArg (Reply.ofExcept fun _ => .done) (emitLog_congr h.settings h.failures record)
  | selfDestruct beneficiary | markDestructed beneficiary => cases hkept

theorem sessionAfter_storage (h : host.SameLenient other) (callback : Callback) :
    (other.sessionAfter callback).storage = (host.sessionAfter callback).storage := by
  cases callback with
  | write key value =>
    simp only [sessionAfter, h.settings, h.lenient, Bool.and_false, Bool.false_eq_true, if_false,
      Session.write, h.storage]
  | observe key value => exact congrArg (Overlay.observe · key value) h.storage
  | selfDestruct beneficiary | markDestructed beneficiary =>
    simp only [sessionAfter, Session.markDestructed_storage, h.storage]
  | _ => exact h.storage

/-- No callback makes such hosts differ in more. -/
theorem step (h : host.SameLenient other) (callback : Callback) :
    (host.step callback).2.SameLenient (other.step callback).2 := by
  rw [step_host, step_host]
  refine ⟨h.lenient, ?_, h.sessionAfter_storage callback, h.accounts, h.settings, ?_⟩
  · rw [sessionAfter_origin, sessionAfter_origin, h.origin]
  · -- The messages that are kept are the same.
    rw [recorded?_congr h.settings h.failures, h.boundary]
    rfl

/-- A self-destruction leaves the beneficiary, and the payload that tells the boundary of it. -/
theorem step_left (h : host.SameLenient other) (hdropped : callback.beneficiary?.isSome) :
    (host.step callback).2.SameLenient other := by
  have hmessage : callback.message? = none := by
    cases callback with
    | selfDestruct | markDestructed => rfl
    | _ => cases hdropped
  refine ⟨?_, ?_, ?_, ?_, ?_, ?_⟩
  · rw [step_settings, h.lenient]
  · rw [step_host, h.origin]
    exact (host.sessionAfter_origin callback).symm
  · rw [host.step_storage_of_beneficiary? hdropped, h.storage]
  · rw [step_host, h.accounts]
  · rw [step_settings, h.settings]
  · rw [step_host, recorded?_of_message?_eq_none host callback hmessage]
    simp only [Boundary.keep, Option.toList_none, List.append_nil, Boundary.map_after_nil]
    exact h.boundary

/-- A run that leaves the self-destructions out can be compared with the whole run. -/
theorem unwinds : Unwinds (fun callback => callback.beneficiary?.isNone) SameLenient where
  served h hkept := ⟨h.step_reply (Option.isNone_iff_eq_none.1 hkept), h.step _⟩
  dropped h hkept := h.step_left (by simpa using hkept)

/-- Both executions end with the same storage. -/
theorem finish_storage (h : host.SameLenient other) (success : Bool) (output : Bytes) :
    (other.finish success output).1.map Outcome.storage =
      (host.finish success output).1.map Outcome.storage := by
  have hstorage : other.session.outcome.storage = host.session.outcome.storage := h.storage
  rw [finish_reply, finish_reply, verdict_congr h.settings h.failures]
  cases if success then host.verdict .ret else .ok () with
  | error error => rfl
  | ok accepted => exact congrArg Except.ok hstorage

end SameLenient

/-! ## Every run -/

/-- Storage after a self-destruction.

* Under strict settings, at every point after a self-destruction, taken or refused by the boundary,
  the written set is the one from before it, and the observed set is the one from before it with
  the values that the embedder has noted since. A write is refused with the key of its slot, a read
  of a written slot answers its value, and an ending that has an outcome leaves these two sets.
* Under other settings, a run without its self-destructions answers all else as before. The storage
  ends as before, and an ending has an outcome as before, with the same two sets. -/
theorem run_aftermath (host : Host) (callbacks : List Callback) :
    (host.settings.strictDestruct = true →
      ∀ (before : List Callback) (first : Callback) (middle : List Callback),
      first.beneficiary?.isSome →
      let moment := (host.run before).2.session.storage
      let storage : Overlay :=
        ⟨moment.observed.insertAll (middle.filterMap Callback.noted?), moment.written⟩
      let earlier := before ++ first :: middle
      let here := (host.run earlier).2
      here.session.storage = storage ∧
      (∀ key value (later : List Callback),
        (host.run (earlier ++ .write key value :: later)).1[earlier.length]? =
          some (Reply.error (.writeAfterDestruct key))) ∧
      (∀ key value (later : List Callback), moment.written.find? key = some value →
        (host.run (earlier ++ .read key :: later)).1[earlier.length]? =
          some (Reply.value value)) ∧
      ∀ success output outcome, (here.finish success output).1 = .ok outcome →
        outcome.storage = storage) ∧
    (host.settings.strictDestruct = false →
      let kept := fun callback : Callback => callback.beneficiary?.isNone
      let full := host.run callbacks
      let rest := host.run (callbacks.filter kept)
      rest.1 = repliesTo kept callbacks full.1 ∧
      rest.2.session.storage = full.2.session.storage ∧
      ∀ success output, (rest.2.finish success output).1.map Outcome.storage =
        (full.2.finish success output).1.map Outcome.storage) := by
  constructor
  · intro hstrict before first middle hfirst moment storage earlier here
    have hstrict' : (host.run before).2.settings.strictDestruct = true := by
      rw [run_host]
      exact hstrict
    -- The host is sealed by the self-destruction, which leaves the storage as it was.
    have hsealed : ((host.run before).2.step first).2.Sealed :=
      sealed_run hstrict' [first] (.inr ⟨first, List.mem_singleton_self first, hfirst⟩)
    have hhere : here = (((host.run before).2.step first).2.run middle).2 := by
      simp only [here, earlier, run_append, run_cons]
    have hstorage : here.session.storage = storage := by
      rw [hhere, hsealed.run_storage, step_storage_of_beneficiary? _ hfirst]
    have hsealed' : here.Sealed := hhere ▸ hsealed.run middle
    refine ⟨hstorage, fun key value later => ?_, fun key value later hwritten => ?_,
      fun success output outcome hending => ?_⟩
    · rw [getElem?_run]
      exact congrArg (fun result => some result.1) (hsealed'.step_write key value)
    · rw [getElem?_run]
      have hfind : here.session.storage.written.find? key = some value := by
        rw [hstorage]
        exact hwritten
      exact congrArg (fun found => some (Reply.value found)) (readSlot_of_written hfind)
    · rw [((finish_eq_ok_iff ..).1 hending).2]
      exact hstorage
  · intro hlenient kept full rest
    obtain ⟨hreplies, hsame⟩ := SameLenient.unwinds.run (.refl hlenient) callbacks
    exact ⟨hreplies, hsame.storage, hsame.finish_storage⟩

/-- Under strict settings a refused self-destruction seals the storage, and a value that is noted
later is not read. -/
theorem run_aftermath_refused :
    let boundary := Boundary.failWith {} Syscall.selfDestruct.defaultNumber 1
    let host : Host := ⟨boundary, { origin := .zero }, .blank, { strictDestruct := true }⟩
    let key : Word := .ofNat 1
    let first : Callback := .selfDestruct .zero
    let earlier : List Callback := [.write key (.ofNat 5), first, .observe key (.ofNat 7)]
    host.settings.strictDestruct = true ∧ first.beneficiary?.isSome ∧
      (host.run earlier).1[1]? = some (Reply.error (.status ⟨.selfDestruct, 3077, 1⟩)) ∧
      (host.run (earlier ++ [Callback.write key .zero])).1[3]? =
        some (Reply.error (.writeAfterDestruct key)) ∧
      (host.run (earlier ++ [Callback.read key])).1[3]? = some (Reply.value (.ofNat 5)) := by
  intro boundary host key first earlier
  obtain ⟨hstrict, -⟩ := run_aftermath host []
  obtain ⟨-, hwrite, hread, -⟩ :=
    hstrict rfl [.write key (.ofNat 5)] first [.observe key (.ofNat 7)] rfl
  exact ⟨rfl, rfl, by decide +kernel, hwrite key .zero [],
    hread key (.ofNat 5) [] (by decide +kernel)⟩

end Host

end CallGate
