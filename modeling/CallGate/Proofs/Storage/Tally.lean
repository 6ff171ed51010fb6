import Mathlib.Algebra.Ring.Int.Defs
import CallGate.Proofs.Storage.Visible

/-!
# The tally of statuses

A slot holds something if its observed value is not zero. Each write that is reported by its effect
changes how many slots hold something by what its status says: one more if it was added, one less
if it was deleted, and the same otherwise. So the statuses of a run account for all that the run
did to this number.

* `WriteStatus.gain_ofWrite`: the status of one write against the values before and after it.
* `Overlay.holdings_step`, `Overlay.holdings_run`: one step, and a run.
* `Overlay.run_tally`: the number of slots after a run, and the runs that change nothing.
-/

namespace CallGate

/-! ## One write -/

/-- Whether a word is not zero. -/
def Word.isNonzero (value : Word) : Bool :=
  !value.isZero

/-- By how much a write with a status changes the number of slots that hold something. -/
def WriteStatus.gain : WriteStatus → Int
  | .unchanged => 0
  | .added => 1
  | .modified => 0
  | .deleted => -1

theorem Word.any_isNonzero (prior : Option Word) :
    prior.any Word.isNonzero = Word.isNonzero (prior.getD .zero) := by
  cases prior with
  | none => rfl
  | some value => rfl

/-- The status of a write says how what is held of its slot changes. -/
theorem WriteStatus.gain_ofWrite (prior : Option Word) (new : Word) :
    (ofWrite prior new).gain =
      ((Word.isNonzero new).toNat : Int) - ((prior.any Word.isNonzero).toNat : Int) := by
  rw [Word.any_isNonzero, ofWrite]
  generalize prior.getD .zero = old
  by_cases hsame : old = new
  · simp [hsame, gain]
  · simp only [hsame, if_false, Word.isNonzero]
    cases hold : old.isZero with
    | false => cases hnew : new.isZero <;> simp [gain]
    | true =>
      -- Another value than zero is not zero.
      have hnew : new.isZero = false := by
        rw [← Bool.not_eq_true]
        intro hzero
        exact hsame (((FixedBytes.isZero_iff old).1 hold).trans
          ((FixedBytes.isZero_iff new).1 hzero).symm)
      simp [hnew, gain]

namespace Overlay

/-! ## One step -/

/-- A step is a read, or a write that is reported by its effect. -/
def Step.ReportsEffect : Step → Prop
  | .observe _ _ => False
  | .read _ => True
  | .write policy _ _ => policy = .byEffect

instance : DecidablePred Step.ReportsEffect
  | .observe _ _ => inferInstanceAs (Decidable False)
  | .read _ => inferInstanceAs (Decidable True)
  | .write policy _ _ => inferInstanceAs (Decidable (policy = .byEffect))

/-- By how much the step with an answer changes the number of slots that hold something. -/
def Reply.gain : Reply → Int
  | .status effect => effect.gain
  | _ => 0

/-- How many slots hold something: their observed values are not zero. -/
def holdings (overlay : Overlay) : Nat :=
  overlay.observed.keyCount Word.isNonzero

/-- A step that reports its effect changes the number of slots that hold something as it says. -/
theorem holdings_step {step : Step} (h : step.ReportsEffect) (overlay : Overlay) :
    ((overlay.step step).2.holdings : Int) =
      overlay.holdings + (overlay.step step).1.gain := by
  cases step with
  | observe key value => exact h.elim
  | read key => simp [step, Reply.gain]
  | write policy key value =>
    obtain rfl : policy = .byEffect := h
    -- Status and count compare the new value with the same one before it.
    have hcount := overlay.observed.keyCount_insert Word.isNonzero key value
    have hgain := WriteStatus.gain_ofWrite (overlay.observed.find? key) value
    show ((overlay.observed.insert key value).keyCount Word.isNonzero : Int) =
      overlay.observed.keyCount Word.isNonzero +
        (WriteStatus.ofWrite (overlay.observed.find? key) value).gain
    omega

/-- A step that reports no change leaves every slot with its value, where nothing counts as zero. -/
theorem getD_observed_step {step : Step} (h : step.ReportsEffect) {overlay : Overlay}
    (hunchanged : ∀ status, (overlay.step step).1 = .status status → status = .unchanged)
    (key : Word) :
    ((overlay.step step).2.observed.find? key).getD .zero =
      (overlay.observed.find? key).getD .zero := by
  cases step with
  | observe slot value => exact h.elim
  | read slot => rfl
  | write policy slot value =>
    obtain rfl : policy = .byEffect := h
    -- No change is reported only where the slot counted as the new value already.
    have hsame : (overlay.observed.find? slot).getD .zero = value :=
      (WriteStatus.ofWrite_eq_unchanged_iff _ _).1 (hunchanged _ rfl)
    show ((overlay.observed.insert slot value).find? key).getD .zero = _
    rw [OrderedMap.find?_insert]
    split
    · next hkey => rw [← hkey, hsame, Option.getD_some]
    · rfl

/-! ## Runs -/

/-- The gains of a run are its slots added less its slots deleted. -/
theorem sum_gain (replies : List Reply) :
    (replies.map Reply.gain).sum =
      (replies.count (.status .added) : Int) - replies.count (.status .deleted) := by
  induction replies with
  | nil => rfl
  | cons reply rest ih =>
    rw [List.map_cons, List.sum_cons, ih, List.count_cons, List.count_cons]
    cases reply with
    | done => simp [Reply.gain]
    | value value => simp [Reply.gain]
    | status status =>
      cases status <;> simp [Reply.gain, WriteStatus.gain] <;> omega

/-- A run changes how many slots hold something by its gains. -/
theorem holdings_run {steps : List Step} (h : ∀ step ∈ steps, step.ReportsEffect)
    (overlay : Overlay) :
    ((overlay.run steps).2.holdings : Int) =
      overlay.holdings + ((overlay.run steps).1.map Reply.gain).sum := by
  induction steps generalizing overlay with
  | nil => simp [run]
  | cons step rest ih =>
    obtain ⟨hstep, hrest⟩ := List.forall_mem_cons.1 h
    rw [run_cons, List.map_cons, List.sum_cons]
    calc (((overlay.step step).2.run rest).2.holdings : Int)
      _ = (overlay.step step).2.holdings +
          (((overlay.step step).2.run rest).1.map Reply.gain).sum := ih hrest _
      _ = overlay.holdings + ((overlay.step step).1.gain +
          (((overlay.step step).2.run rest).1.map Reply.gain).sum) := by
        rw [holdings_step hstep, Int.add_assoc]

/-- A run whose writes all leave their slots unchanged leaves every slot as it was. -/
theorem getD_observed_run {steps : List Step} (h : ∀ step ∈ steps, step.ReportsEffect)
    {overlay : Overlay}
    (hunchanged : ∀ status, .status status ∈ (overlay.run steps).1 → status = .unchanged)
    (key : Word) :
    ((overlay.run steps).2.observed.find? key).getD .zero =
      (overlay.observed.find? key).getD .zero := by
  induction steps generalizing overlay with
  | nil => rfl
  | cons step rest ih =>
    obtain ⟨hstep, hrest⟩ := List.forall_mem_cons.1 h
    rw [run_cons] at hunchanged ⊢
    have hfirst : ∀ status, (overlay.step step).1 = .status status → status = .unchanged := by
      intro status hstatus
      exact hunchanged status (hstatus ▸ List.mem_cons_self)
    have hothers : ∀ status, .status status ∈ ((overlay.step step).2.run rest).1 →
        status = .unchanged :=
      fun status hstatus => hunchanged status (List.mem_cons_of_mem _ hstatus)
    rw [ih hrest hothers, getD_observed_step hstep hfirst]

/-- The statuses of a run of reads and of writes that are reported by their effect, from any
overlay.

* The number of slots with an observed value other than zero after the run is the number before it,
  plus the writes reported as added, minus those reported as deleted.
* If every write is reported as unchanged, every slot has the observed value from before the run,
  where no value counts as zero. -/
theorem run_tally (overlay : Overlay) (steps : List Step)
    (heffect : ∀ step ∈ steps, step.ReportsEffect) :
    let replies := (overlay.run steps).1
    let after := (overlay.run steps).2
    (after.observed.keyCount Word.isNonzero : Int) =
        overlay.observed.keyCount Word.isNonzero +
          replies.count (.status .added) - replies.count (.status .deleted) ∧
      ((∀ status, .status status ∈ replies → status = .unchanged) →
        ∀ key, (after.observed.find? key).getD .zero =
          (overlay.observed.find? key).getD .zero) := by
  intro replies after
  refine ⟨?_, getD_observed_run heffect⟩
  have hrun : (after.holdings : Int) = overlay.holdings + (replies.map Reply.gain).sum :=
    holdings_run heffect overlay
  rw [sum_gain, ← Int.add_sub_assoc] at hrun
  exact hrun

/-- A slot is filled, overwritten, cleared, cleared again after a read, and filled again. And a slot
that was never seen gets a zero, which counts as no change. -/
theorem run_tally_refilled :
    let key : Word := .ofNat 1
    let steps : List Step := [.write .byEffect key (.ofNat 5), .write .byEffect key (.ofNat 6),
      .write .byEffect key .zero, .read key, .write .byEffect key .zero,
      .write .byEffect key (.ofNat 7)]
    let idle : List Step := [.write .byEffect key .zero, .read key]
    (∀ step ∈ steps, step.ReportsEffect) ∧
      (empty.run steps).2.observed.keyCount Word.isNonzero = 1 ∧
      (∀ step ∈ idle, step.ReportsEffect) ∧
      (∀ status, .status status ∈ (empty.run idle).1 → status = .unchanged) ∧
      (empty.run idle).2.observed.find? key = some .zero ∧
      ((empty.run idle).2.observed.find? key).getD .zero =
        (empty.observed.find? key).getD .zero := by
  intro key steps idle
  have hsteps : ∀ step ∈ steps, step.ReportsEffect := by decide +kernel
  have hidle : ∀ step ∈ idle, step.ReportsEffect := by decide +kernel
  obtain ⟨hcount, -⟩ := run_tally empty steps hsteps
  obtain ⟨-, hsame⟩ := run_tally empty idle hidle
  have hadded : (empty.run steps).1.count (.status .added) = 2 := by decide +kernel
  have hdeleted : (empty.run steps).1.count (.status .deleted) = 1 := by decide +kernel
  have hstart : empty.observed.keyCount Word.isNonzero = 0 := rfl
  have hunchanged : ∀ status, .status status ∈ (empty.run idle).1 → status = .unchanged := by
    have hreplies : (empty.run idle).1 = [.status .unchanged, .value (some .zero)] := by
      decide +kernel
    intro status hstatus
    simpa [hreplies] using hstatus
  refine ⟨hsteps, ?_, hidle, hunchanged, by decide +kernel, hsame hunchanged key⟩
  rw [hadded, hdeleted, hstart] at hcount
  omega

end Overlay

end CallGate
