import CallGate.FixedBytes

/-!
# Status of a storage write

A write is reported by its effect on the slot. A slot that was never seen counts as zero.
-/

namespace CallGate

/-- The effect of a write on a slot. -/
inductive WriteStatus where
  /-- The slot held the written value already. -/
  | unchanged
  /-- A zero slot became non-zero. -/
  | added
  /-- A non-zero slot got another non-zero value. -/
  | modified
  /-- A non-zero slot became zero. -/
  | deleted
deriving DecidableEq, Repr

/-- The effect of writing `new` over `prior`, where nothing counts as zero. -/
def WriteStatus.ofWrite (prior : Option Word) (new : Word) : WriteStatus :=
  let prior := prior.getD .zero
  -- Equal values come first, so a zero written over zero changes nothing.
  if prior = new then .unchanged
  else if prior.isZero then .added
  else if new.isZero then .deleted
  else .modified

/-- How writes are reported. -/
inductive StatusPolicy where
  /-- Every write is reported by its effect. -/
  | byEffect
  /-- Every write is reported as `added`. -/
  | alwaysAdded
deriving DecidableEq, Repr, Inhabited

/-- The status reported for a write under a policy. -/
def StatusPolicy.status (policy : StatusPolicy) (prior : Option Word) (new : Word) : WriteStatus :=
  match policy with
  | .byEffect => .ofWrite prior new
  | .alwaysAdded => .added

end CallGate
