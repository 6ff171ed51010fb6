/-!
# Decimal numerals

Numbers are written without leading zeros. A text is read as a number when it consists of decimal
digits alone; the empty text is zero.

* `value_render`: a written number reads as itself.
-/

namespace CallGate.Decimal

/-- The character of a digit below ten. -/
def digit (d : Nat) : Char :=
  Char.ofNat ('0'.toNat + d)

/-- Whether a character is one of the ten ASCII digits. -/
def isDigit (c : Char) : Bool :=
  '0' ≤ c && c ≤ '9'

/-- The value of a digit. -/
def digitValue (c : Char) : Nat :=
  c.toNat - '0'.toNat

/-- The numeral of a number, most significant digit first and without leading zeros. -/
def render (n : Nat) : List Char :=
  if n < 10 then [digit n] else render (n / 10) ++ [digit (n % 10)]
termination_by n

/-- The number that a list of digits stands for. -/
def value (digits : List Char) : Nat :=
  digits.foldl (fun n c => 10 * n + digitValue c) 0

/-- The numeral of a number, as a string. -/
def text (n : Nat) : String :=
  String.ofList (render n)

/-- The numeral of an integer, with a sign when it is negative. -/
def signedText (i : Int) : String :=
  if i < 0 then "-" ++ text i.natAbs else text i.natAbs

/-- Why a text is not an unsigned 256-bit number. -/
inductive QuantityError where
  /-- Some character is not a digit. -/
  | notADigit
  /-- The number is `2 ^ 256` or more. -/
  | tooLarge
deriving DecidableEq, Repr

/-- The name under which the fault is reported. -/
def QuantityError.message : QuantityError → String
  | .notADigit => "InvalidCharacter"
  | .tooLarge => "InvalidLength"

/-- Read the digits of an unsigned 256-bit number that goes on from the number read so far. The
first character that is no digit, or that makes the number too large, decides. -/
def quantityFrom (number : Nat) : List Char → Except QuantityError Nat
  | [] => .ok number
  | c :: rest =>
    if isDigit c then
      if 10 * number + digitValue c < 1 <<< 256 then quantityFrom (10 * number + digitValue c) rest
      else .error .tooLarge
    else
      .error .notADigit

/-- Read an unsigned 256-bit number. -/
def quantity (text : List Char) : Except QuantityError Nat :=
  quantityFrom 0 text

/-- What holds of the ten digits holds of every number below ten. -/
theorem digit_cases {P : Nat → Prop} (h : ∀ d : Fin 10, P d) {d : Nat} (hd : d < 10) : P d :=
  h ⟨d, hd⟩

/-- The digits that are written are digits. -/
theorem isDigit_digit {d : Nat} (hd : d < 10) : isDigit (digit d) = true :=
  digit_cases (P := fun d => isDigit (digit d) = true) (by decide) hd

/-- A digit that is written is worth its number. -/
theorem digitValue_digit {d : Nat} (hd : d < 10) : digitValue (digit d) = d :=
  digit_cases (P := fun d => digitValue (digit d) = d) (by decide) hd

/-- One more digit multiplies the number by ten. -/
theorem value_append_digit (digits : List Char) (c : Char) :
    value (digits ++ [c]) = 10 * value digits + digitValue c := by
  simp [value]

/-- A written number reads as itself. -/
@[simp]
theorem value_render (n : Nat) : value (render n) = n := by
  fun_induction render n with
  | case1 n h => simp [value, digitValue_digit h]
  | case2 n h ih =>
    rw [value_append_digit, ih, digitValue_digit (Nat.mod_lt n (by decide))]
    omega

/-- A written number consists of digits. -/
theorem all_isDigit_render (n : Nat) : (render n).all isDigit = true := by
  fun_induction render n with
  | case1 n h => simp [isDigit_digit h]
  | case2 n h ih => simp [ih, isDigit_digit (Nat.mod_lt n (by decide))]

end CallGate.Decimal
