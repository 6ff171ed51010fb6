import CallGate.Proofs.OrderedMap
import CallGate.Proofs.Run
import CallGate.Storage.Overlay

/-!
# Overlays by their history

The two sets of an overlay, and what it reads, are determined by the last steps that concern a
slot. The written value is that of the last write. The observed value is that of the last write
or observation, whichever came later. A read prefers all that was written, at the start or since,
to all that was observed.

* `Overlay.find?_observed_ofParts`: the observed values at the start.
* `Overlay.run_eq_last?_or`: a run changes a view of an overlay as its last step on that view does.
* `Overlay.run_history`: the sets and the reads after a run.
-/

namespace CallGate

namespace Overlay

/-! ## The start -/

/-- Entries that go to the observed values only where there are none. -/
theorem find?_foldl_insert (observed : Slots) (entries : List (Word × Word)) (key : Word) :
    (entries.foldl (fun observed slot =>
      if observed.contains slot.1 then observed else observed.insert slot.1 slot.2)
        observed).find? key =
      (observed.find? key).or (OrderedMap.valueAt? key entries) := by
  induction entries generalizing observed with
  | nil => rw [List.foldl_nil, OrderedMap.valueAt?, Option.or_none]
  | cons slot rest ih =>
    obtain ⟨other, value⟩ := slot
    rw [List.foldl_cons, ih, OrderedMap.valueAt?]
    by_cases heq : compare key other = .eq
    · -- The first entry of a key decides, and only where the key had no value.
      obtain rfl := Std.LawfulEqOrd.eq_of_compare heq
      rw [if_pos heq]
      cases hfind : observed.find? key with
      | some found =>
        rw [if_pos (by rw [OrderedMap.contains, hfind]; rfl), hfind, Option.some_or,
          Option.some_or]
      | none =>
        rw [if_neg (by rw [OrderedMap.contains, hfind]; exact Bool.false_ne_true),
          OrderedMap.find?_insert_self, Option.some_or, Option.none_or]
    · rw [if_neg heq]
      split
      · rfl
      · have hne : key ≠ other := by
          rintro rfl
          exact heq Std.ReflOrd.compare_self
        rw [OrderedMap.find?_insert_of_ne _ hne]

/-- At the start a slot that was not observed counts as observed with its written value. -/
theorem find?_observed_ofParts (observed written : Slots) (key : Word) :
    (ofParts observed written).observed.find? key =
      (observed.find? key).or (written.find? key) :=
  find?_foldl_insert observed written.entries key

theorem ofParts_empty : ofParts .empty .empty = empty := rfl

/-! ## One step -/

namespace Step

/-- The value that a step writes to a slot. -/
def written? (key : Word) : Step → Option Word
  | .write _ slot value => if slot = key then some value else none
  | _ => none

/-- The value that a step notes for a slot from outside the execution. -/
def noted? (key : Word) : Step → Option Word
  | .observe slot value => if slot = key then some value else none
  | _ => none

/-- The value of a slot that a step leaves among the observed ones. -/
def seen? (key : Word) (step : Step) : Option Word :=
  (step.written? key).or (step.noted? key)

theorem seen?_observe (key slot value : Word) :
    (observe slot value).seen? key = if slot = key then some value else none :=
  Option.none_or

theorem seen?_write (key : Word) (policy : StatusPolicy) (slot value : Word) :
    (write policy slot value).seen? key = if slot = key then some value else none :=
  Option.or_none

/-- A step with its effect alone: a write under a given policy, and no step in place of a read. -/
def effect? (policy : StatusPolicy) : Step → Option Step
  | .observe key value => some (.observe key value)
  | .read _ => none
  | .write _ key value => some (.write policy key value)

end Step

/-- A step leaves the value that it writes, and else the one that was written before. -/
theorem find?_written_step (overlay : Overlay) (step : Step) (key : Word) :
    (overlay.step step).2.written.find? key =
      (step.written? key).or (overlay.written.find? key) := by
  cases step with
  | observe slot value => rfl
  | read slot => rfl
  | write policy slot value =>
    show (overlay.written.insert slot value).find? key = _
    rw [OrderedMap.find?_insert, Step.written?]
    split <;> rfl

/-- A step leaves the value that it shows, and else the one that was observed before. -/
theorem find?_observed_step (overlay : Overlay) (step : Step) (key : Word) :
    (overlay.step step).2.observed.find? key =
      (step.seen? key).or (overlay.observed.find? key) := by
  cases step with
  | observe slot value =>
    show (overlay.observed.insert slot value).find? key = _
    rw [OrderedMap.find?_insert, Step.seen?_observe]
    split <;> rfl
  | read slot => rfl
  | write policy slot value =>
    show (overlay.observed.insert slot value).find? key = _
    rw [OrderedMap.find?_insert, Step.seen?_write]
    split <;> rfl

/-! ## Runs -/

/-- The last value that a sequence of steps has for a view. -/
def last? (value? : Step → Option Word) (steps : List Step) : Option Word :=
  (steps.filterMap value?).getLast?

/-- A later step counts before an earlier one. -/
theorem last?_cons (value? : Step → Option Word) (step : Step) (steps : List Step) :
    last? value? (step :: steps) = (last? value? steps).or (value? step) := by
  rw [last?, last?, List.filterMap_cons]
  cases value? step with
  | none => rw [Option.or_none]
  | some value =>
    rw [List.getLast?_cons]
    cases (steps.filterMap value?).getLast? <;> rfl

theorem isRun : IsRun Overlay.step Overlay.run :=
  ⟨fun _ => rfl, fun _ _ _ => rfl⟩

theorem run_cons (overlay : Overlay) (step : Step) (steps : List Step) :
    overlay.run (step :: steps) =
      ((overlay.step step).1 :: ((overlay.step step).2.run steps).1,
        ((overlay.step step).2.run steps).2) := rfl

/-- The steps of a second run find the overlay as the first has left it. -/
theorem run_append (overlay : Overlay) (first second : List Step) :
    overlay.run (first ++ second) =
      ((overlay.run first).1 ++ ((overlay.run first).2.run second).1,
        ((overlay.run first).2.run second).2) :=
  isRun.append overlay first second

/-- A view that every step either sets or leaves has, after a run, the last value that a step set,
or else the value from before. -/
theorem run_eq_last?_or (view : Overlay → Option Word) {value? : Step → Option Word}
    (hstep : ∀ overlay step, view (overlay.step step).2 = (value? step).or (view overlay))
    (overlay : Overlay) (steps : List Step) :
    view (overlay.run steps).2 = (last? value? steps).or (view overlay) := by
  induction steps generalizing overlay with
  | nil => rfl
  | cons step rest ih =>
    rw [run_cons]
    calc view ((overlay.step step).2.run rest).2
      _ = (last? value? rest).or (view (overlay.step step).2) := ih _
      _ = (last? value? rest).or ((value? step).or (view overlay)) := by rw [hstep]
      _ = (last? value? (step :: rest)).or (view overlay) := by rw [last?_cons, Option.or_assoc]

/-- A run leaves the last value that it wrote, and else the one that was written before. -/
theorem find?_written_run (overlay : Overlay) (steps : List Step) (key : Word) :
    (overlay.run steps).2.written.find? key =
      (last? (Step.written? key) steps).or (overlay.written.find? key) :=
  run_eq_last?_or (fun overlay => overlay.written.find? key)
    (fun overlay step => overlay.find?_written_step step key) overlay steps

/-- A run leaves the last value that it showed, and else the one that was observed before. -/
theorem find?_observed_run (overlay : Overlay) (steps : List Step) (key : Word) :
    (overlay.run steps).2.observed.find? key =
      (last? (Step.seen? key) steps).or (overlay.observed.find? key) :=
  run_eq_last?_or (fun overlay => overlay.observed.find? key)
    (fun overlay step => overlay.find?_observed_step step key) overlay steps

/-- Where nothing is written, the values seen are those noted. -/
theorem last?_seen?_of_none {key : Word} {steps : List Step}
    (h : last? (Step.written? key) steps = none) :
    last? (Step.seen? key) steps = last? (Step.noted? key) steps := by
  induction steps with
  | nil => rfl
  | cons step rest ih =>
    rw [last?_cons, Option.or_eq_none_iff] at h
    obtain ⟨hrest, hstep⟩ := h
    rw [last?_cons, last?_cons, ih hrest, Step.seen?, hstep, Option.none_or]

/-- A slot that is written is seen. -/
theorem isSome_last?_seen? {key : Word} {steps : List Step}
    (h : (last? (Step.written? key) steps).isSome) : (last? (Step.seen? key) steps).isSome := by
  induction steps with
  | nil => cases h
  | cons step rest ih =>
    rw [last?_cons, Option.isSome_or, Bool.or_eq_true] at h ⊢
    refine h.imp ih fun hstep => ?_
    rw [Step.seen?, Option.isSome_or, hstep, Bool.true_or]

/-- Reads and policies have no effect on the sets. -/
theorem run_filterMap_effect? (policy : StatusPolicy) (overlay : Overlay) (steps : List Step) :
    (overlay.run (steps.filterMap (Step.effect? policy))).2 = (overlay.run steps).2 := by
  induction steps generalizing overlay with
  | nil => rfl
  | cons step rest ih =>
    cases step with
    | observe key value => exact ih (overlay.observe key value)
    | read key => exact ih overlay
    | write used key value => exact ih (overlay.write used key value).2

/-- A slot reads as its written value, or else as its observed value. -/
theorem read_eq_or (overlay : Overlay) (key : Word) :
    overlay.read key = (overlay.written.find? key).or (overlay.observed.find? key) := by
  rw [read, Option.orElse_eq_orElse, Option.orElse_eq_or]

/-- A step during a run is answered for the steps before it. -/
theorem run_reply (overlay : Overlay) (before after : List Step) (step : Step) :
    (overlay.run (before ++ step :: after)).1[before.length]? =
      some ((overlay.run before).2.step step).1 :=
  isRun.getElem? overlay before step after

/-- Every written slot is an observed one. -/
def Covered (overlay : Overlay) : Prop :=
  ∀ key, overlay.written.contains key → overlay.observed.contains key

/-- An overlay that is made of two sets observes whatever it has written. -/
theorem covered_ofParts (observed written : Slots) : (ofParts observed written).Covered := by
  intro key hwritten
  rw [OrderedMap.contains, find?_observed_ofParts, Option.isSome_or, Bool.or_eq_true]
  exact .inr hwritten

/-- Whatever is done with an overlay, every written slot stays an observed one. -/
theorem Covered.run {overlay : Overlay} (h : overlay.Covered) (steps : List Step) :
    (overlay.run steps).2.Covered := by
  intro key hwritten
  rw [OrderedMap.contains, find?_written_run, Option.isSome_or, Bool.or_eq_true] at hwritten
  rw [OrderedMap.contains, find?_observed_run, Option.isSome_or, Bool.or_eq_true]
  exact hwritten.imp isSome_last?_seen? (h key)

/-- An overlay over two given sets after a run. For each slot:

* the written value is that of the last write, else the one given;
* the observed value is that of the last write or observation, else the observed one given, else
  the written one given;
* a read gives the value last written, else the written one given, else the one last noted, else
  the observed one given, and so does every read during a run for the steps before it;
* a written slot is an observed slot.

The sets are those of the same run without reads and under any one policy, and an empty overlay is
one over empty sets. -/
theorem run_history (observed written : Slots) (steps : List Step) :
    let overlay := ((ofParts observed written).run steps).2
    (∀ key,
      overlay.written.find? key = (last? (Step.written? key) steps).or (written.find? key) ∧
      overlay.observed.find? key = (last? (Step.seen? key) steps).or
        ((observed.find? key).or (written.find? key)) ∧
      overlay.read key = (last? (Step.written? key) steps).or ((written.find? key).or
        ((last? (Step.noted? key) steps).or (observed.find? key))) ∧
      (∀ later, ((ofParts observed written).run (steps ++ .read key :: later)).1[steps.length]? =
        some (.value (overlay.read key))) ∧
      (overlay.written.contains key → overlay.observed.contains key)) ∧
    (∀ policy, overlay =
      ((ofParts observed written).run (steps.filterMap (Step.effect? policy))).2) ∧
    ofParts .empty .empty = empty := by
  intro overlay
  refine ⟨fun key => ?_, fun policy => (run_filterMap_effect? policy _ steps).symm, ofParts_empty⟩
  have hwritten : overlay.written.find? key =
      (last? (Step.written? key) steps).or (written.find? key) := find?_written_run _ _ _
  have hobserved : overlay.observed.find? key = (last? (Step.seen? key) steps).or
      ((observed.find? key).or (written.find? key)) := by
    rw [find?_observed_run, find?_observed_ofParts]
  refine ⟨hwritten, hobserved, ?_, fun later => run_reply _ _ _ _,
    (covered_ofParts observed written).run steps key⟩
  rw [read_eq_or, hwritten, hobserved]
  -- Without a write since the start, all that was seen was noted.
  cases hlast : last? (Step.written? key) steps with
  | some value => rfl
  | none =>
    rw [last?_seen?_of_none hlast, Option.none_or]
    cases written.find? key with
    | some value => rfl
    | none => rw [Option.none_or, Option.none_or, Option.or_none]; rfl

end Overlay

end CallGate
