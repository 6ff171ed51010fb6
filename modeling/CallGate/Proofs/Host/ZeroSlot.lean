import CallGate.Proofs.Host.Separation

/-!
# Slots noted as zero

A slot that was never seen counts as zero, both when it is read and when the effect of a write is
reported. So nobody can tell it from a slot that was noted as zero, except by looking at the
observed values of the outcome, where it may be missing or be zero.

Two runs of the same callbacks are compared, from a host and from the same host after the note.

* `Host.ZeroApart.step_reply`, `Host.ZeroApart.step`: one callback tells no difference and makes
  none.
* `Host.run_observe_zero`: the same for a run and its ending.
-/

namespace CallGate

/-- The second set holds the values of the first, and it may hold a zero for a slot that the first
has no value for. -/
def Slots.ZeroApart (key : Word) (plain noted : Slots) : Prop :=
  ∀ slot, noted.find? slot = plain.find? slot ∨
    (slot = key ∧ plain.find? slot = none ∧ noted.find? slot = some .zero)

/-- Outcomes that differ at most in a zero among the observed values. -/
structure Outcome.ZeroApart (key : Word) (plain noted : Outcome) : Prop where
  observed : Slots.ZeroApart key plain.observed noted.observed
  written : noted.written = plain.written
  destructed : noted.destructed = plain.destructed
  beneficiary : noted.beneficiary = plain.beneficiary

/-- Endings with the same error, or with outcomes that differ at most in such a zero. -/
def Outcome.EndsZeroApart (key : Word) :
    Except HostError Outcome → Except HostError Outcome → Prop
  | .ok plain, .ok noted => Outcome.ZeroApart key plain noted
  | .error error, .error error' => error' = error
  | _, _ => False

namespace Slots.ZeroApart

variable {key : Word} {plain noted : Slots}

/-- A slot counts the same in both sets. -/
theorem getD_find? (h : Slots.ZeroApart key plain noted) (slot : Word) :
    (noted.find? slot).getD .zero = (plain.find? slot).getD .zero := by
  rcases h slot with hsame | ⟨-, hplain, hnoted⟩
  · rw [hsame]
  · rw [hplain, hnoted]
    rfl

theorem insert (h : Slots.ZeroApart key plain noted) (slot value : Word) :
    Slots.ZeroApart key (plain.insert slot value) (noted.insert slot value) := by
  intro other
  by_cases hslot : other = slot
  · -- The new value ends the difference if it is there.
    subst hslot
    left
    rw [OrderedMap.find?_insert_self, OrderedMap.find?_insert_self]
  · rw [OrderedMap.find?_insert_of_ne _ hslot, OrderedMap.find?_insert_of_ne _ hslot]
    exact h other

/-- A zero for a slot without a value makes no more difference than that. -/
theorem of_insert_zero (hunseen : plain.contains key = false) :
    Slots.ZeroApart key plain (plain.insert key .zero) := by
  intro slot
  by_cases hslot : slot = key
  · subst hslot
    right
    refine ⟨rfl, ?_, OrderedMap.find?_insert_self ..⟩
    simpa [OrderedMap.contains] using hunseen
  · left
    exact OrderedMap.find?_insert_of_ne _ hslot _

end Slots.ZeroApart

/-- The status of a write takes nothing for zero. -/
theorem StatusPolicy.status_congr (policy : StatusPolicy) {prior prior' : Option Word}
    (h : prior'.getD .zero = prior.getD .zero) (value : Word) :
    policy.status prior' value = policy.status prior value := by
  cases policy with
  | byEffect => simp only [status, WriteStatus.ofWrite, h]
  | alwaysAdded => rfl

/-! ## Storage -/

/-- Overlays that differ at most in a zero among the observed values. -/
structure Overlay.ZeroApart (key : Word) (plain noted : Overlay) : Prop where
  written : noted.written = plain.written
  observed : Slots.ZeroApart key plain.observed noted.observed

namespace Overlay.ZeroApart

variable {key : Word} {plain noted : Overlay}

/-- A slot reads the same, with zero for what has no value. -/
theorem getD_read (h : ZeroApart key plain noted) (slot : Word) :
    (noted.read slot).getD .zero = (plain.read slot).getD .zero := by
  rw [read, read, h.written]
  -- A written value hides the observed one.
  cases plain.written.find? slot with
  | some value => rfl
  | none => exact h.observed.getD_find? slot

/-- A value that is observed by both keeps them alike. -/
theorem observe (h : ZeroApart key plain noted) (slot value : Word) :
    ZeroApart key (plain.observe slot value) (noted.observe slot value) :=
  ⟨h.written, h.observed.insert slot value⟩

/-- A write has the same status. -/
theorem write_status (h : ZeroApart key plain noted) (policy : StatusPolicy) (slot value : Word) :
    (noted.write policy slot value).1 = (plain.write policy slot value).1 :=
  policy.status_congr (h.observed.getD_find? slot) value

/-- A write to both keeps them alike. -/
theorem write (h : ZeroApart key plain noted) (policy : StatusPolicy) (slot value : Word) :
    ZeroApart key (plain.write policy slot value).2 (noted.write policy slot value).2 := by
  refine ⟨?_, h.observed.insert slot value⟩
  rw [written_write, written_write, h.written]

end Overlay.ZeroApart

namespace Host

/-- Hosts that differ at most in a zero among the observed values. -/
structure ZeroApart (key : Word) (plain noted : Host) : Prop extends SameOuter plain noted where
  accounts : noted.accounts = plain.accounts
  origin : noted.session.origin = plain.session.origin
  storage : Overlay.ZeroApart key plain.session.storage noted.session.storage

/-! ## One callback -/

namespace ZeroApart

variable {key : Word} {plain noted : Host}

theorem isDestructed (h : ZeroApart key plain noted) :
    noted.session.isDestructed = plain.session.isDestructed := by
  rw [Session.isDestructed, Session.isDestructed, Session.state, Session.state, h.beneficiary]

/-- Writes are answered alike. -/
theorem writeSlot_reply (h : ZeroApart key plain noted) (slot value : Word) :
    (noted.writeSlot slot value).1 = (plain.writeSlot slot value).1 := by
  rw [writeSlot, writeSlot, h.isDestructed, h.settings]
  split
  · rfl
  · exact congrArg Except.ok (h.storage.write_status plain.settings.statusPolicy slot value)

/-- No callback tells whether the slot was noted. -/
theorem step_reply (h : ZeroApart key plain noted) (callback : Callback) :
    (noted.step callback).1 = (plain.step callback).1 := by
  cases callback with
  | transaction => exact congrArg (fun origin => Reply.transaction { origin }) h.origin
  | account address offset buffer =>
    exact congrArg (fun accounts : AccountSource => Reply.account (accounts.report ..)) h.accounts
  | read slot => exact congrArg Reply.value (h.storage.getD_read slot)
  | write slot value => exact congrArg (Reply.ofExcept .status) (h.writeSlot_reply slot value)
  | observe slot value => rfl
  | _ =>
    -- All other callbacks look at the outer half, which is the same.
    exact h.toSameOuter.step_reply rfl

theorem sessionAfter_storage (h : ZeroApart key plain noted) (callback : Callback) :
    Overlay.ZeroApart key (plain.sessionAfter callback).storage
      (noted.sessionAfter callback).storage := by
  cases callback with
  | write slot value =>
    -- Both writes are refused or none is.
    rw [sessionAfter, sessionAfter, h.isDestructed, h.settings]
    split
    · exact h.storage
    · exact h.storage.write plain.settings.statusPolicy slot value
  | observe slot value => exact h.storage.observe slot value
  | selfDestruct beneficiary | markDestructed beneficiary =>
    rw [sessionAfter, sessionAfter, Session.markDestructed_storage, Session.markDestructed_storage]
    exact h.storage
  | _ => exact h.storage

/-- Later notes and writes leave no other difference. -/
theorem step (h : ZeroApart key plain noted) (callback : Callback) :
    ZeroApart key (plain.step callback).2 (noted.step callback).2 := by
  have houter := h.toSameOuter.step callback
  rw [step_host, step_host] at houter ⊢
  refine ⟨houter, h.accounts, ?_, h.sessionAfter_storage callback⟩
  show (noted.sessionAfter callback).origin = (plain.sessionAfter callback).origin
  rw [sessionAfter_origin, sessionAfter_origin, h.origin]

/-! ## Runs -/

/-- Any run is answered alike, and leaves the hosts alike. -/
theorem run (h : ZeroApart key plain noted) (callbacks : List Callback) :
    (noted.run callbacks).1 = (plain.run callbacks).1 ∧
      ZeroApart key (plain.run callbacks).2 (noted.run callbacks).2 := by
  induction callbacks generalizing plain noted with
  | nil => exact ⟨rfl, h⟩
  | cons callback rest ih =>
    obtain ⟨hreplies, hlast⟩ := ih (h.step callback)
    rw [run_cons, run_cons, h.step_reply, hreplies]
    exact ⟨rfl, hlast⟩

theorem outcome (h : ZeroApart key plain noted) :
    Outcome.ZeroApart key plain.session.outcome noted.session.outcome :=
  ⟨h.storage.observed, h.storage.written, h.isDestructed, h.beneficiary⟩

/-- Both executions end alike. -/
theorem finish_reply (h : ZeroApart key plain noted) (success : Bool) (output : Bytes) :
    Outcome.EndsZeroApart key (plain.finish success output).1 (noted.finish success output).1 := by
  rw [Host.finish_reply, Host.finish_reply, verdict_congr h.settings h.failures]
  -- The boundary refuses the output of both or of none.
  cases (if success then plain.verdict .ret else .ok ()) with
  | error error => rfl
  | ok _ => exact h.outcome

end ZeroApart

/-- A slot that is noted as zero cannot be told from one that was not seen. Compare a run from a
host that has not seen the slot with the same run after the note.

* All callbacks are answered alike, and the boundary has taken the same.
* The sessions leave the same behind, but that the slot may be a zero among the observed values
  where it is missing in the plain run.
* Every ending hands over the same, and fails with the same error or leaves this behind. -/
theorem run_observe_zero {host : Host} {key : Word}
    (hunseen : host.session.storage.observed.contains key = false) (callbacks : List Callback) :
    let plain := host.run callbacks
    let noted := (host.step (.observe key .zero)).2.run callbacks
    noted.1 = plain.1 ∧ noted.2.boundary = plain.2.boundary ∧
      Outcome.ZeroApart key plain.2.session.outcome noted.2.session.outcome ∧
      ∀ success output,
        (noted.2.finish success output).2 = (plain.2.finish success output).2 ∧
        Outcome.EndsZeroApart key (plain.2.finish success output).1
          (noted.2.finish success output).1 := by
  intro plain noted
  have hstart : ZeroApart key host (host.step (.observe key .zero)).2 :=
    { SameOuter.refl host with
      accounts := rfl
      origin := rfl
      storage := ⟨rfl, .of_insert_zero hunseen⟩ }
  obtain ⟨hreplies, hlast⟩ := hstart.run callbacks
  refine ⟨hreplies, hlast.boundary, hlast.outcome, fun success output => ?_⟩
  exact ⟨hlast.finish_boundary success output, hlast.finish_reply success output⟩

/-- Reads and a write of the slot, and a self-destruction before a refused write. -/
theorem run_observe_zero_written :
    let host : Host := ⟨{}, { origin := .zero }, .blank, { strictDestruct := true }⟩
    let key : Word := .ofNat 1
    let callbacks : List Callback :=
      [.read key, .write key .zero, .write key (.ofNat 2), .read key, .selfDestruct .zero,
        .write key .zero]
    host.session.storage.observed.contains key = false ∧
      ((host.step (.observe key .zero)).2.run callbacks).1 =
        [.value .zero, .status .unchanged, .status .added, .value (.ofNat 2), .first true,
          .error (.writeAfterDestruct key)] := by
  intro host key callbacks
  have hunseen : host.session.storage.observed.contains key = false := rfl
  obtain ⟨hreplies, -⟩ := run_observe_zero hunseen callbacks
  refine ⟨hunseen, hreplies.trans ?_⟩
  decide +kernel

end Host

end CallGate
