import CallGate.OrderedMap
import CallGate.Storage.Status

/-!
# Storage overlay

The storage of one execution: the slots it wrote over the slots it observed. Reads look at the
written slots first. A write goes to both sets, so an overlay that starts with every written slot
among the observed ones stays so.

An `Overlay.Step` is one use of an overlay and `Overlay.run` is a sequence of them.
-/

namespace CallGate

/-- A set of storage slots with their values. -/
abbrev Slots := OrderedMap Word Word

/-- The storage that one execution sees. -/
structure Overlay where
  /-- Values observed or written. -/
  observed : Slots
  /-- Values written. -/
  written : Slots
deriving DecidableEq, Inhabited

namespace Overlay

/-- Nothing observed and nothing written. -/
def empty : Overlay :=
  ⟨.empty, .empty⟩

/-- An overlay over two given sets. Written slots that were not observed count as observed with
the written value. -/
def ofParts (observed written : Slots) : Overlay where
  -- The entries come in the order of their keys, each key once, so their order does not matter.
  observed := written.entries.foldl
    (fun observed slot =>
      if observed.contains slot.1 then observed else observed.insert slot.1 slot.2) observed
  written := written

/-- Note a value that a slot has outside this execution. -/
def observe (overlay : Overlay) (key value : Word) : Overlay :=
  { overlay with observed := overlay.observed.insert key value }

/-- The value of a slot: the one written, else the one observed. -/
def read (overlay : Overlay) (key : Word) : Option Word :=
  overlay.written.find? key <|> overlay.observed.find? key

/-- Write a slot, and report the write's effect on the value observed so far. -/
def write (overlay : Overlay) (policy : StatusPolicy) (key value : Word) : WriteStatus × Overlay :=
  (policy.status (overlay.observed.find? key) value,
    ⟨overlay.observed.insert key value, overlay.written.insert key value⟩)

/-- One use of an overlay. -/
inductive Step where
  /-- Note a value that a slot has outside this execution. -/
  | observe (key value : Word)
  /-- Read a slot. -/
  | read (key : Word)
  /-- Write a slot, reporting under a policy. -/
  | write (policy : StatusPolicy) (key value : Word)
deriving DecidableEq

/-- What a step answers. -/
inductive Reply where
  /-- Nothing. -/
  | done
  /-- The value of a slot, if it has one. -/
  | value (value : Option Word)
  /-- The effect of a write. -/
  | status (status : WriteStatus)
deriving DecidableEq

/-- The answer to a step and the overlay after it. -/
def step (overlay : Overlay) : Step → Reply × Overlay
  | .observe key value => (.done, overlay.observe key value)
  | .read key => (.value (overlay.read key), overlay)
  | .write policy key value =>
    let (status, overlay) := overlay.write policy key value
    (.status status, overlay)

/-- The answers to a sequence of steps and the overlay after the last. -/
def run (overlay : Overlay) : List Step → List Reply × Overlay
  | [] => ([], overlay)
  | step :: steps =>
    let (reply, overlay) := overlay.step step
    let (replies, overlay) := overlay.run steps
    (reply :: replies, overlay)

@[simp]
theorem observed_observe (overlay : Overlay) (key value : Word) :
    (overlay.observe key value).observed = overlay.observed.insert key value := rfl

@[simp]
theorem written_observe (overlay : Overlay) (key value : Word) :
    (overlay.observe key value).written = overlay.written := rfl

@[simp]
theorem observed_write (overlay : Overlay) (policy : StatusPolicy) (key value : Word) :
    (overlay.write policy key value).2.observed = overlay.observed.insert key value := rfl

@[simp]
theorem written_write (overlay : Overlay) (policy : StatusPolicy) (key value : Word) :
    (overlay.write policy key value).2.written = overlay.written.insert key value := rfl

/-- A slot reads as the value last written to it. -/
theorem read_write_self (overlay : Overlay) (policy : StatusPolicy) (key value : Word) :
    (overlay.write policy key value).2.read key = some value := by
  simp [read]

end Overlay

end CallGate
