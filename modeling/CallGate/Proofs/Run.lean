/-!
# Runs

Hosts, bridges, overlays, ordered maps and writers are run over a list of steps in one and the same
way: each step is answered and changes the state, and the steps behind it go on from there. What
follows from that alone is here.

* `IsRun.append`: a run goes on where the run before it stopped.
* `IsRun.getElem?`: a step of a run is answered by the state after the steps before it.
-/

namespace CallGate

universe u

variable {σ : Type u} {α ρ : Type}

/-- A function takes steps one after another and collects their answers. -/
structure IsRun (step : σ → α → ρ × σ) (run : σ → List α → List ρ × σ) : Prop where
  /-- Without steps nothing happens. -/
  nil : ∀ state, run state [] = ([], state)
  /-- The first step is answered, and the others go on from the state after it. -/
  cons : ∀ state input inputs, run state (input :: inputs) =
    ((step state input).1 :: (run (step state input).2 inputs).1,
      (run (step state input).2 inputs).2)

namespace IsRun

variable {step : σ → α → ρ × σ} {run : σ → List α → List ρ × σ}

/-- The second part of a run finds the state as the first has left it. -/
theorem append (h : IsRun step run) (state : σ) (first second : List α) :
    run state (first ++ second) =
      ((run state first).1 ++ (run (run state first).2 second).1,
        (run (run state first).2 second).2) := by
  induction first generalizing state with
  | nil =>
    rw [h.nil]
    rfl
  | cons input rest ih => rw [List.cons_append, h.cons, ih, h.cons, List.cons_append]

/-- Every step is answered. -/
theorem length (h : IsRun step run) (state : σ) (inputs : List α) :
    (run state inputs).1.length = inputs.length := by
  induction inputs generalizing state with
  | nil =>
    rw [h.nil]
    rfl
  | cons input rest ih => rw [h.cons, List.length_cons, ih, List.length_cons]

/-- A step of a run is answered by the state after the steps before it. -/
theorem getElem? (h : IsRun step run) (state : σ) (before : List α) (input : α)
    (after : List α) :
    (run state (before ++ input :: after)).1[before.length]? =
      some (step (run state before).2 input).1 := by
  -- The answers to the steps before are as many as these steps.
  have hlength := h.length state before
  rw [h.append, h.cons, ← hlength, List.getElem?_append_right (Nat.le_refl _), Nat.sub_self,
    List.getElem?_cons_zero]

end IsRun

end CallGate
