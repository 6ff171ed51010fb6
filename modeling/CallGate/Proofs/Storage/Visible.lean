import CallGate.Host.Basic
import CallGate.Proofs.Storage.History

/-!
# Statuses and what is read

The status of a write is taken from the observed value of its slot, while a read prefers the
written one. The two tell the same story exactly where the sets agree: where the slot is not
written, or its written value is also the observed one. A write makes the sets agree on its slot,
and only a value that is noted after a write can part them.

* `Overlay.status_eq_ofWrite_read_iff`: statuses go by what is read exactly where the sets agree.
* `Overlay.agreesAt_run`: which runs keep the sets in agreement on a slot.
* `Overlay.status_visible_iff`: both over every run, and what an interpreter sees of it.
-/

namespace CallGate

/-- A write is without effect exactly when the slot held its value; no value counts as zero. -/
theorem WriteStatus.ofWrite_eq_unchanged_iff (prior : Option Word) (new : Word) :
    WriteStatus.ofWrite prior new = .unchanged ↔ prior.getD .zero = new := by
  simp only [ofWrite]
  by_cases hsame : prior.getD .zero = new
  · exact iff_of_true (if_pos hsame) hsame
  · rw [if_neg hsame]
    refine iff_of_false ?_ hsame
    -- A write over another value has one of the other three statuses.
    split
    · decide
    · split <;> decide

namespace Overlay

/-- A slot is not written, or its written value is the observed one. -/
def AgreesAt (overlay : Overlay) (key : Word) : Prop :=
  overlay.written.contains key = false ∨
    overlay.observed.find? key = overlay.written.find? key

instance (overlay : Overlay) (key : Word) : Decidable (overlay.AgreesAt key) :=
  inferInstanceAs (Decidable (_ ∨ _))

/-! ## Statuses -/

/-- Where written and observed values agree, a slot reads as its observed value. -/
theorem read_of_agreesAt {overlay : Overlay} {key : Word} (h : overlay.AgreesAt key) :
    overlay.read key = overlay.observed.find? key := by
  rw [read_eq_or]
  rcases h with hwritten | hsame
  · rw [(OrderedMap.contains_eq_false_iff _ _).1 hwritten, Option.none_or]
  · rw [hsame, Option.or_self]

/-- Where the sets hold different values for a slot, the written value tells them apart: writing
it again changes nothing that is read, and yet is reported as a change. -/
theorem status_ne_ofWrite_read {overlay : Overlay} {key value other : Word}
    (hwritten : overlay.written.find? key = some value)
    (hobserved : overlay.observed.find? key = some other) (hne : other ≠ value) :
    (overlay.write .byEffect key value).1 ≠ .ofWrite (overlay.read key) value := by
  have hread : WriteStatus.ofWrite (overlay.read key) value = .unchanged := by
    rw [WriteStatus.ofWrite_eq_unchanged_iff, read_eq_or, hwritten, Option.some_or,
      Option.getD_some]
  intro h
  have hstatus : WriteStatus.ofWrite (overlay.observed.find? key) value = .unchanged :=
    h.trans hread
  rw [WriteStatus.ofWrite_eq_unchanged_iff, hobserved, Option.getD_some] at hstatus
  exact hne hstatus

/-- If a written slot is always an observed one, the status of every write to a slot goes by what
is read before it exactly when the sets agree on the slot. -/
theorem status_eq_ofWrite_read_iff {overlay : Overlay} {key : Word}
    (hseen : overlay.written.contains key → overlay.observed.contains key) :
    (∀ value, (overlay.write .byEffect key value).1 = .ofWrite (overlay.read key) value) ↔
      overlay.AgreesAt key := by
  constructor
  · intro h
    cases hwritten : overlay.written.find? key with
    | none => exact .inl (by rw [OrderedMap.contains, hwritten]; rfl)
    | some value =>
      have hcontains : overlay.written.contains key := by
        rw [OrderedMap.contains, hwritten]
        rfl
      obtain ⟨other, hobserved⟩ := Option.isSome_iff_exists.1 (hseen hcontains)
      -- The status of writing the same value again says whether the sets hold the same.
      by_cases heq : other = value
      · exact .inr (by rw [hobserved, hwritten, heq])
      · exact absurd (h value) (status_ne_ofWrite_read hwritten hobserved heq)
  · intro h value
    rw [read_of_agreesAt h]
    rfl

/-! ## Runs -/

/-- A step keeps the sets in agreement on a slot unless it notes a value for a written one. -/
theorem agreesAt_step {overlay : Overlay} {key : Word} (h : overlay.AgreesAt key) {step : Step}
    (hnoted : overlay.written.contains key → step.noted? key = none) :
    (overlay.step step).2.AgreesAt key := by
  rw [AgreesAt, OrderedMap.contains, find?_written_step, find?_observed_step, Step.seen?]
  cases step.written? key with
  | some value =>
    -- A write puts its value into both sets.
    exact .inr rfl
  | none =>
    rw [Option.none_or, Option.none_or]
    rcases h with hwritten | hsame
    · exact .inl hwritten
    · cases hcontains : (overlay.written.find? key).isSome with
      | false => exact .inl rfl
      | true =>
        rw [hnoted hcontains, Option.none_or]
        exact .inr hsame

/-- Every value of a slot that is noted is noted before the first write to the slot. -/
def NotedFirst (key : Word) (steps : List Step) : Prop :=
  steps.Pairwise fun earlier later => (earlier.written? key).isSome → later.noted? key = none

instance (key : Word) (steps : List Step) : Decidable (NotedFirst key steps) :=
  inferInstanceAs (Decidable (List.Pairwise _ _))

/-- A run keeps the sets in agreement on a slot if no value is noted for the slot once it is
written. -/
theorem agreesAt_run {overlay : Overlay} {key : Word} (h : overlay.AgreesAt key)
    {steps : List Step} (hfirst : NotedFirst key steps)
    (hnoted : overlay.written.contains key → ∀ step ∈ steps, step.noted? key = none) :
    (overlay.run steps).2.AgreesAt key := by
  induction steps generalizing overlay with
  | nil => exact h
  | cons step rest ih =>
    obtain ⟨hstep, hrest⟩ := List.pairwise_cons.1 hfirst
    rw [run_cons]
    refine ih (agreesAt_step h fun hwritten => hnoted hwritten step List.mem_cons_self) hrest ?_
    intro hwritten later hlater
    -- The slot is written after the step because the step wrote it, or because it was before.
    rw [OrderedMap.contains, find?_written_step, Option.isSome_or, Bool.or_eq_true] at hwritten
    rcases hwritten with hnow | hbefore
    · exact hstep later hlater hnow
    · exact hnoted hbefore later (List.mem_cons_of_mem _ hlater)

theorem agreesAt_empty (key : Word) : empty.AgreesAt key :=
  .inl rfl

/-- Right after a write the sets agree on its slot, whatever they were before. -/
theorem agreesAt_run_write (overlay : Overlay) (steps : List Step) (key : Word)
    (policy : StatusPolicy) (value : Word) :
    (overlay.run (steps ++ [.write policy key value])).2.AgreesAt key := by
  refine .inr ?_
  rw [run_append]
  show ((overlay.run steps).2.observed.insert key value).find? key =
    ((overlay.run steps).2.written.insert key value).find? key
  rw [OrderedMap.find?_insert_self, OrderedMap.find?_insert_self]

end Overlay

/-! ## What an interpreter sees -/

/-- Where the sets agree on a slot, a host that reports by effect reports the change of the value
that it reads for the slot, unless it refuses the write. -/
theorem Host.writeSlot_of_agreesAt {host : Host} {key : Word}
    (h : host.session.storage.AgreesAt key) (hpolicy : host.settings.statusPolicy = .byEffect)
    (value : Word) :
    (host.writeSlot key value).1 =
      if host.session.isDestructed && host.settings.strictDestruct then
        .error (.writeAfterDestruct key)
      else
        .ok (.ofWrite (some (host.readSlot key)) ((host.writeSlot key value).2.readSlot key)) := by
  rw [writeSlot]
  split
  · rfl
  · rw [hpolicy]
    have hafter : ((host.session.storage.write .byEffect key value).2.read key).getD .zero =
        value := by
      rw [Overlay.read_write_self, Option.getD_some]
    show Except.ok (WriteStatus.ofWrite (host.session.storage.observed.find? key) value) =
      .ok (.ofWrite (some ((host.session.storage.read key).getD .zero))
        (((host.session.storage.write .byEffect key value).2.read key).getD .zero))
    rw [hafter, Overlay.read_of_agreesAt h]
    -- A slot without a value counts as zero on both sides.
    rfl

namespace Overlay

/-- Statuses and reads of an overlay over two given sets after a run. For each slot:

* every write reports the change of what is read before it exactly when the slot is not written
  or both sets hold the same value for it;
* that is so right after every write to the slot;
* in a run from the empty overlay that notes no value for the slot after a write to it, that is so
  at every point, and a host reports the change of what it reads. -/
theorem status_visible_iff (observed written : Slots) (steps : List Step) (key : Word) :
    let overlay := ((ofParts observed written).run steps).2
    ((∀ value, (overlay.write .byEffect key value).1 = .ofWrite (overlay.read key) value) ↔
      overlay.written.contains key = false ∨
        overlay.observed.find? key = overlay.written.find? key) ∧
    (∀ policy value,
      ((ofParts observed written).run (steps ++ [.write policy key value])).2.AgreesAt key) ∧
    (NotedFirst key steps → ∀ before, before <+: steps →
      let overlay := (empty.run before).2
      overlay.AgreesAt key ∧
      (∀ value, (overlay.write .byEffect key value).1 = .ofWrite (overlay.read key) value) ∧
      ∀ (host : Host) value, host.session.storage = overlay →
        host.settings.statusPolicy = .byEffect →
        (host.writeSlot key value).1 =
          if host.session.isDestructed && host.settings.strictDestruct then
            .error (.writeAfterDestruct key)
          else
            .ok (.ofWrite (some (host.readSlot key))
              ((host.writeSlot key value).2.readSlot key))) := by
  intro overlay
  refine ⟨status_eq_ofWrite_read_iff ((covered_ofParts observed written).run steps key),
    agreesAt_run_write _ _ _, ?_⟩
  intro hfirst before hbefore overlay
  have hagrees : overlay.AgreesAt key := by
    refine agreesAt_run (agreesAt_empty key) (hfirst.sublist hbefore.sublist) ?_
    intro hwritten
    cases hwritten
  -- Where the values agree the status is right, in the overlay and through the host.
  refine ⟨hagrees, ?_, ?_⟩
  · exact (status_eq_ofWrite_read_iff ((covered_ofParts .empty .empty).run before key)).2 hagrees
  · intro host value hstorage hpolicy
    exact Host.writeSlot_of_agreesAt (hstorage ▸ hagrees) hpolicy value

/-- A slot that was noted and then written is cleared. -/
theorem status_visible_cleared :
    let key : Word := .ofNat 1
    let steps : List Step := [.observe key (.ofNat 5), .write .byEffect key (.ofNat 6), .read key]
    let host : Host := ⟨{}, { origin := .zero, storage := (empty.run steps).2 }, .blank, {}⟩
    NotedFirst key steps ∧ steps <+: steps ∧ host.session.storage = (empty.run steps).2 ∧
      host.settings.statusPolicy = .byEffect ∧
      (host.writeSlot key .zero).1 = .ok .deleted := by
  intro key steps host
  have hfirst : NotedFirst key steps := by decide +kernel
  obtain ⟨-, -, hrun⟩ := status_visible_iff .empty .empty steps key
  obtain ⟨-, -, hhost⟩ := hrun hfirst steps (List.prefix_refl steps)
  refine ⟨hfirst, List.prefix_refl steps, rfl, rfl, ?_⟩
  have hstatus : WriteStatus.ofWrite (some (host.readSlot key))
      ((host.writeSlot key .zero).2.readSlot key) = .deleted := by
    decide +kernel
  rw [hhost host .zero rfl rfl, hstatus]
  rfl

/-- After a value that is noted late, writing the value that is read counts as a change. -/
example :
    let key : Word := .ofNat 1
    let overlay := (empty.run [.write .byEffect key (.ofNat 6), .observe key (.ofNat 5)]).2
    overlay.read key = some (.ofNat 6) ∧
      (overlay.write .byEffect key (.ofNat 6)).1 = .modified := by
  decide +kernel

end Overlay

end CallGate
