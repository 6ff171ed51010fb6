import CallGate.Proofs.Storage.History
import CallGate.Session

/-!
# Overlays taken apart and set up again

An overlay that is set up over two sets takes over the written values of slots that were not
observed, and changes nothing else. After any run there are no such slots. So an execution can be
cut at any point: its two sets are handed out, an overlay is set up over them, and the rest goes on
as if there had been no cut.

* `Overlay.mem_observed_ofParts_iff`: what is observed once an overlay is set up.
* `Overlay.Covered.ofParts_eq`: an overlay that is set up over its own sets.
* `Overlay.runPieces_eq_run`: a run with any number of cuts.
* `Overlay.run_cut`: runs with and without cuts, over any two sets.
-/

namespace CallGate.Overlay

/-- The answers to steps that come in pieces, and the overlay after the last piece. After each piece
the overlay is taken apart, and one is set up over its two sets. -/
def runPieces (overlay : Overlay) : List (List Step) → List Reply × Overlay
  | [] => ([], overlay)
  | piece :: pieces =>
    let (replies, overlay) := overlay.run piece
    let (later, overlay) := (ofParts overlay.observed overlay.written).runPieces pieces
    (replies ++ later, overlay)

/-- An entry is observed at the start if it is one of the observed entries given, or a written one
given for a slot without an observed value. -/
theorem mem_observed_ofParts_iff (observed written : Slots) (slot : Word × Word) :
    slot ∈ (ofParts observed written).observed.entries ↔
      slot ∈ observed.entries ∨ slot ∈ written.entries ∧ observed.contains slot.1 = false := by
  obtain ⟨key, value⟩ := slot
  rw [← OrderedMap.find?_eq_some_iff, ← OrderedMap.find?_eq_some_iff,
    ← OrderedMap.find?_eq_some_iff, find?_observed_ofParts, OrderedMap.contains_eq_false_iff,
    Option.or_eq_some_iff, and_comm (a := written.find? key = some value)]

/-- Set up over its own sets, an overlay without written slots that were not observed is the same
again. -/
theorem Covered.ofParts_eq {overlay : Overlay} (h : overlay.Covered) :
    ofParts overlay.observed overlay.written = overlay := by
  have hobserved : (ofParts overlay.observed overlay.written).observed = overlay.observed := by
    apply OrderedMap.ext_find?
    intro key
    rw [find?_observed_ofParts]
    cases hwritten : overlay.written.find? key with
    | none => exact Option.or_none
    | some value =>
      -- A written slot has an observed value, which comes first.
      obtain ⟨seen, hseen⟩ := Option.isSome_iff_exists.1 (h key (Option.isSome_of_mem hwritten))
      have hfind : overlay.observed.find? key = some seen := hseen
      rw [hfind, Option.some_or]
  exact congrArg (Overlay.mk · overlay.written) hobserved

theorem runPieces_cons (overlay : Overlay) (piece : List Step) (pieces : List (List Step)) :
    overlay.runPieces (piece :: pieces) =
      let middle := (overlay.run piece).2
      let rest := (ofParts middle.observed middle.written).runPieces pieces
      ((overlay.run piece).1 ++ rest.1, rest.2) := rfl

/-- Cuts between the pieces of a run leave no trace in its answers or in the overlay after it. -/
theorem runPieces_eq_run {overlay : Overlay} (h : overlay.Covered) (pieces : List (List Step)) :
    overlay.runPieces pieces = overlay.run pieces.flatten := by
  -- The induction goes on from the overlay after a piece, which has all written slots observed.
  induction pieces generalizing overlay with
  | nil => rfl
  | cons piece rest ih =>
    have hmiddle := h.run piece
    rw [runPieces_cons, List.flatten_cons, run_append]
    dsimp only
    rw [hmiddle.ofParts_eq, ih hmiddle]

/-- An overlay over two given sets, with cuts during its run.

* The overlay after any steps is the one that is set up over its own sets, and so the one that is
  set up over the outcome of a session with this storage.
* If it is taken apart and set up again, the later steps are answered and leave the two sets as in
  the run without the cut. So do any number of cuts.
* At the start the written set is the one given, and an entry is observed if it was given as
  observed, or if it was given as written and its slot has no observed value. An empty overlay is
  one over empty sets. -/
theorem run_cut (observed written : Slots) (before after : List Step) :
    let start := ofParts observed written
    let overlay := (start.run before).2
    let resumed := (ofParts overlay.observed overlay.written).run after
    let whole := start.run (before ++ after)
    ofParts overlay.observed overlay.written = overlay ∧
    (∀ origin beneficiary,
      let outcome := ({ origin, storage := overlay, beneficiary } : Session).outcome
      ofParts outcome.observed outcome.written = overlay) ∧
    whole.1 = (start.run before).1 ++ resumed.1 ∧
    whole.2.observed = resumed.2.observed ∧
    whole.2.written = resumed.2.written ∧
    (∀ pieces, start.runPieces pieces = start.run pieces.flatten) ∧
    start.written = written ∧
    (∀ slot, slot ∈ start.observed.entries ↔
      slot ∈ observed.entries ∨ slot ∈ written.entries ∧ observed.contains slot.1 = false) ∧
    ofParts .empty .empty = empty := by
  intro start overlay resumed whole
  have hstart : start.Covered := covered_ofParts observed written
  -- Every reachable overlay observes what it has written, and so is rebuilt from its parts.
  have hsame : ofParts overlay.observed overlay.written = overlay := (hstart.run before).ofParts_eq
  have hresumed : resumed = overlay.run after := congrArg (Overlay.run · after) hsame
  have hwhole : whole = ((start.run before).1 ++ resumed.1, resumed.2) := by
    rw [hresumed]
    exact run_append start before after
  refine ⟨hsame, fun _ _ => hsame, ?_, ?_, ?_, runPieces_eq_run hstart, rfl,
    mem_observed_ofParts_iff observed written, ofParts_empty⟩
  · rw [hwhole]
  · rw [hwhole]
  · rw [hwhole]

end CallGate.Overlay
