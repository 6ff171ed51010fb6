import Mathlib.Algebra.Group.Fin.Basic
import Mathlib.Algebra.Group.Units.Equiv
import Mathlib.Data.List.FinRange
import Mathlib.Data.List.TakeDrop
import CallGate.Proofs.Storage.History

/-!
# The order of steps on different slots

What a step answers, and what a run leaves of a slot, depends on the steps on that slot alone. So
the steps of a run can be put in any order that keeps the order of the steps on each slot: every
step is answered as before, and the overlay after the run is the same.

* `Reordering`: the places that the steps of one run have in another.
* `Reordering.filter_take_eq`: up to any point, the steps on one slot are the same in both.
* `Overlay.run_reordered`: both runs have the same answers and the same end.
-/

namespace CallGate

/-- The elements of a list up to some point that pass a test, by their places. -/
theorem filter_take_eq_map_finRange {α : Type} (p : α → Bool) (elements : List α) (bound : Nat) :
    (elements.take bound).filter p =
      ((List.finRange elements.length).filter fun i => i.val < bound && p elements[i]).map
        (elements[·]) := by
  induction elements generalizing bound with
  | nil => rw [List.take_nil, List.filter_nil]; rfl
  | cons head rest ih =>
    have hplaces : List.finRange (head :: rest).length =
        0 :: (List.finRange rest.length).map Fin.succ := List.finRange_succ
    cases bound with
    | zero => simp
    | succ bound =>
      rw [hplaces, List.take_succ_cons, List.filter_cons, List.filter_cons, ih, List.filter_map]
      cases hhead : p head <;> simp [Function.comp_def, hhead]

/-- Places that keep their order are the same list on both sides. -/
theorem map_filter_finRange {n m : Nat} (place : Fin n ≃ Fin m) {p : Fin n → Bool}
    {q : Fin m → Bool} (hsame : ∀ i, q (place i) = p i)
    (horder : ∀ i j, p i → p j → i < j → place i < place j) :
    ((List.finRange n).filter p).map place = (List.finRange m).filter q := by
  -- Both lists are increasing, and both have the places that pass the test.
  have hfirst : (((List.finRange n).filter p).map place).Pairwise (· < ·) := by
    rw [List.pairwise_map]
    refine List.Pairwise.imp_of_mem ?_ ((List.pairwise_lt_finRange n).filter p)
    intro i j hi hj hlt
    exact horder i j (List.mem_filter.1 hi).2 (List.mem_filter.1 hj).2 hlt
  have hsecond : ((List.finRange m).filter q).Pairwise (· < ·) :=
    (List.pairwise_lt_finRange m).filter q
  have hperm : (((List.finRange n).filter p).map place).Perm ((List.finRange m).filter q) := by
    rw [List.perm_ext_iff_of_nodup hfirst.nodup hsecond.nodup]
    intro i
    obtain ⟨j, rfl⟩ := place.surjective i
    simp [hsame]
  refine hperm.eq_of_pairwise ?_ hfirst hsecond
  intro i j _ _ hij hji
  exact absurd hij (lt_asymm hji)

namespace Overlay

/-- The slot that a step concerns. -/
def Step.key : Step → Word
  | .observe key _ => key
  | .read key => key
  | .write _ key _ => key

/-- The steps of one sequence in other places, where those on one slot stand in the same order. -/
structure Reordering (first second : List Step) where
  /-- The place that a step has in the second sequence. -/
  place : Fin first.length ≃ Fin second.length
  /-- The step is the same in both places. -/
  step_place : ∀ i, second[place i] = first[i]
  /-- Of two steps on one slot, the one that comes first does so in both. -/
  place_lt_place : ∀ i j, first[i].key = first[j].key → i < j → place i < place j

/-! ## The steps on one slot -/

namespace Reordering

variable {first second : List Step}

/-- Up to points that agree for a slot, the steps on the slot are the same in both sequences. -/
theorem filter_take_eq (order : Reordering first second) {key : Word} {bound bound' : Nat}
    (hbound : ∀ i, first[i].key = key → ((order.place i).val < bound' ↔ i.val < bound)) :
    (second.take bound').filter (fun step => step.key = key) =
      (first.take bound).filter (fun step => step.key = key) := by
  rw [filter_take_eq_map_finRange, filter_take_eq_map_finRange]
  rw [← map_filter_finRange order.place
    (p := fun i => i.val < bound && decide (first[i].key = key))]
  · rw [List.map_map]
    refine List.map_congr_left fun i _ => ?_
    exact order.step_place i
  · intro i
    rw [order.step_place]
    by_cases hkey : first[i].key = key
    · simp only [hkey, decide_true, Bool.and_true, hbound i hkey]
    · simp only [hkey, decide_false, Bool.and_false]
  · intro i j hi hj
    simp only [Bool.and_eq_true, decide_eq_true_eq] at hi hj
    exact order.place_lt_place i j (hi.2.trans hj.2.symm)

/-- Each slot sees its own steps in the same order. -/
theorem filter_eq (order : Reordering first second) (key : Word) :
    second.filter (fun step => step.key = key) = first.filter (fun step => step.key = key) := by
  have hall : (second.take second.length).filter (fun step => step.key = key) =
      (first.take first.length).filter (fun step => step.key = key) :=
    order.filter_take_eq fun i _ => iff_of_true (order.place i).isLt i.isLt
  rwa [List.take_length, List.take_length] at hall

/-- Before a step, the steps on its slot are the same in both sequences. -/
theorem filter_before_eq (order : Reordering first second) (i : Fin first.length) :
    (second.take (order.place i)).filter (fun step => step.key = first[i].key) =
      (first.take i).filter (fun step => step.key = first[i].key) := by
  refine order.filter_take_eq fun j hkey => ?_
  rcases lt_trichotomy j i with hlt | rfl | hgt
  · exact iff_of_true (order.place_lt_place j i hkey hlt) hlt
  · exact iff_of_false (lt_irrefl _) (lt_irrefl _)
  · exact iff_of_false (lt_asymm (order.place_lt_place i j hkey.symm hgt)) (lt_asymm hgt)

end Reordering

/-! ## What depends on the steps on one slot -/

/-- The last value for a view of a slot is that of the steps on the slot. -/
theorem last?_filter {value? : Step → Option Word} {key : Word}
    (hkey : ∀ step, (value? step).isSome → step.key = key) (steps : List Step) :
    last? value? (steps.filter fun step => step.key = key) = last? value? steps := by
  rw [last?, List.filterMap_filter, last?]
  congr 2
  funext step
  split
  · rfl
  · next hne =>
    -- A step on another slot has no value for the view.
    cases hvalue : value? step with
    | none => rfl
    | some value => simp [hkey step (by rw [hvalue]; rfl)] at hne

theorem Step.key_of_written? {key : Word} {step : Step} (h : (step.written? key).isSome) :
    step.key = key := by
  cases step with
  | observe slot value => cases h
  | read slot => cases h
  | write policy slot value =>
    rw [written?] at h
    split at h
    · assumption
    · cases h

theorem Step.key_of_seen? {key : Word} {step : Step} (h : (step.seen? key).isSome) :
    step.key = key := by
  cases step with
  | observe slot value =>
    rw [seen?_observe] at h
    split at h
    · assumption
    · cases h
  | read slot => cases h
  | write policy slot value =>
    rw [seen?_write] at h
    split at h
    · assumption
    · cases h

/-- Two overlays hold the same for a slot. -/
def SameAt (key : Word) (first second : Overlay) : Prop :=
  first.written.find? key = second.written.find? key ∧
    first.observed.find? key = second.observed.find? key

/-- Runs with the same steps on a slot leave the same for it. -/
theorem sameAt_run (overlay : Overlay) {first second : List Step} {key : Word}
    (h : first.filter (fun step => step.key = key) = second.filter (fun step => step.key = key)) :
    SameAt key (overlay.run first).2 (overlay.run second).2 := by
  constructor
  · rw [find?_written_run, find?_written_run, ← last?_filter (fun _ => Step.key_of_written?) first,
      h, last?_filter fun _ => Step.key_of_written?]
  · rw [find?_observed_run, find?_observed_run, ← last?_filter (fun _ => Step.key_of_seen?) first,
      h, last?_filter fun _ => Step.key_of_seen?]

/-- A step is answered by what an overlay holds for its slot. -/
theorem SameAt.step_reply {step : Step} {first second : Overlay}
    (h : SameAt step.key first second) :
    (first.step step).1 = (second.step step).1 := by
  obtain ⟨hwritten, hobserved⟩ := h
  cases step with
  | observe key value => rfl
  | read key =>
    have hread : first.read key = second.read key := by
      rw [read_eq_or, read_eq_or]
      exact congrArg₂ Option.or hwritten hobserved
    exact congrArg Reply.value hread
  | write policy key value =>
    exact congrArg (fun prior => Reply.status (policy.status prior value)) hobserved

/-- Overlays that hold the same for every slot are equal. -/
theorem eq_of_sameAt {first second : Overlay} (h : ∀ key, SameAt key first second) :
    first = second := by
  obtain ⟨observed, written⟩ := first
  obtain ⟨observed', written'⟩ := second
  obtain rfl : observed = observed' := OrderedMap.ext_find? fun key => (h key).2
  obtain rfl : written = written' := OrderedMap.ext_find? fun key => (h key).1
  rfl

/-! ## Runs -/

/-- A step of a run is answered by the overlay that the steps before it have left. -/
theorem getElem?_run (overlay : Overlay) (steps : List Step) (i : Fin steps.length) :
    (overlay.run steps).1[i.val]? = some ((overlay.run (steps.take i)).2.step steps[i]).1 := by
  have hreply := overlay.run_reply (steps.take i) (steps.drop (i + 1)) steps[i]
  have hsteps : steps.take i ++ steps[i] :: steps.drop (i + 1) = steps := by
    rw [Fin.getElem_fin, List.cons_getElem_drop_succ, List.take_append_drop]
  rwa [hsteps, List.length_take_of_le i.isLt.le] at hreply

/-- Runs whose steps are the same up to the order of steps on different slots, from any overlay. The
overlay after them is the same, with the same entries in both sets. Every step is answered in the
one run as in the other. -/
theorem run_reordered (overlay : Overlay) {first second : List Step}
    (order : Reordering first second) :
    (overlay.run first).2 = (overlay.run second).2 ∧
    ∀ i, ∃ reply, (overlay.run first).1[i.val]? = some reply ∧
      (overlay.run second).1[(order.place i).val]? = some reply := by
  refine ⟨eq_of_sameAt fun key => sameAt_run overlay (order.filter_eq key).symm, fun i => ?_⟩
  refine ⟨_, overlay.getElem?_run first i, ?_⟩
  -- Both overlays before the step have seen the same steps on its slot.
  have hsame := sameAt_run overlay (order.filter_before_eq i)
  rw [getElem?_run, order.step_place, hsame.step_reply]

/-- A read that goes in front of a write and an observation of another slot. -/
theorem run_reordered_rotated :
    let noted : Word := .ofNat 1
    let other : Word := .ofNat 2
    let first : List Step := [.write .byEffect noted (.ofNat 5), .observe noted .zero, .read other]
    let second : List Step := [.read other, .write .byEffect noted (.ofNat 5), .observe noted .zero]
    ∃ order : Reordering first second, order.place 0 = 1 ∧
      (empty.run first).2 = (empty.run second).2 ∧
      (empty.run second).1[(order.place 0).val]? = some (.status .added) := by
  intro noted other first second
  let order : Reordering first second := {
    place := Equiv.addRight (1 : Fin 3)
    step_place := by decide +kernel
    place_lt_place := by decide +kernel }
  obtain ⟨hend, hreplies⟩ := run_reordered empty order
  obtain ⟨reply, hfirst, hsecond⟩ := hreplies 0
  have hreply : reply = .status .added := by
    have hwrite : (empty.run first).1[0]? = some (.status .added) := by decide +kernel
    exact Option.some.inj (hfirst.symm.trans hwrite)
  exact ⟨order, rfl, hend, hreply ▸ hsecond⟩

end Overlay

end CallGate
