import CallGate.Decimal

/-!
# TOML numbers

Integers of 64 bits in four bases, and floating-point numbers. Underscores may stand between
digits. Decimal numbers have no leading zeros; the other bases have no sign.

* `valueUpTo_eq`: digits are read as the number they stand for, unless it exceeds the limit.
-/

namespace CallGate.Toml

/-- The digits of a text in which single underscores may stand between digits. -/
def separated? (isDigit : Char → Bool) : List Char → Option (List Char)
  | [] => none
  | [c] => if isDigit c then some [c] else none
  | c :: '_' :: rest => if isDigit c then (separated? isDigit rest).map (c :: ·) else none
  | c :: rest => if isDigit c then (separated? isDigit rest).map (c :: ·) else none

/-- The value of a digit of a base up to sixteen. -/
def digitValue (c : Char) : Nat :=
  if Decimal.isDigit c then c.toNat - '0'.toNat
  else if 'a' ≤ c ∧ c ≤ 'f' then c.toNat - 'a'.toNat + 10
  else if 'A' ≤ c ∧ c ≤ 'F' then c.toNat - 'A'.toNat + 10
  else 16

/-- Whether a character is a digit of a base up to sixteen. -/
def isDigitOf (base : Nat) (c : Char) : Bool :=
  digitValue c < base

/-- The number that digits of a base stand for. -/
def digitsValue (base : Nat) (digits : List Char) : Nat :=
  digits.foldl (fun n c => base * n + digitValue c) 0

/-- The number that digits of a base stand for after those of `number`, unless it exceeds a limit.
The first digit with which the limit is exceeded decides. -/
def valueUpTo (base limit number : Nat) : List Char → Option Nat
  | [] => some number
  | c :: rest =>
    let number := base * number + digitValue c
    if number ≤ limit then valueUpTo base limit number rest else none

/-- A number within the limit is the number of all digits; otherwise there is none. -/
theorem valueUpTo_eq {base limit number : Nat} (hbase : 0 < base) (hnumber : number ≤ limit)
    (digits : List Char) :
    valueUpTo base limit number digits =
      if digits.foldl (fun n c => base * n + digitValue c) number ≤ limit then
        some (digits.foldl (fun n c => base * n + digitValue c) number)
      else none := by
  induction digits generalizing number with
  | nil => simp [valueUpTo, hnumber]
  | cons c rest ih =>
    -- No digit makes a number smaller.
    have le_foldl : ∀ (l : List Char) (n : Nat),
        n ≤ l.foldl (fun n c => base * n + digitValue c) n := by
      intro l
      induction l with
      | nil => exact fun n => Nat.le_refl n
      | cons d l ihl =>
        intro n
        refine Nat.le_trans ?_ (ihl _)
        exact Nat.le_trans (Nat.le_mul_of_pos_left n hbase) (Nat.le_add_right _ _)
    rw [valueUpTo, List.foldl_cons]
    by_cases hle : base * number + digitValue c ≤ limit
    · simp only [hle, if_true, ih hle]
    · -- Further digits only make the number larger.
      have hlarge := le_foldl rest (base * number + digitValue c)
      simp only [hle, if_false]
      rw [if_neg (by omega)]

/-- The largest integer. -/
def maxInteger : Nat := 0x7FFFFFFFFFFFFFFF

/-- The largest number that an integer can have after its sign. -/
def maxMagnitude (negative : Bool) : Nat :=
  if negative then maxInteger + 1 else maxInteger

/-- An integer without a sign in a base. -/
def magnitude? (base : Nat) (text : List Char) : Option Int :=
  ((separated? (isDigitOf base) text).bind (valueUpTo base maxInteger 0)).map Int.ofNat

/-- The digits of a decimal number without a sign and without leading zeros. -/
def decimal? (text : List Char) : Option (List Char) :=
  match separated? Decimal.isDigit text with
  | some ('0' :: _ :: _) => none
  | digits => digits

/-- The integer with a sign and a number after it. -/
def signed (negative : Bool) (magnitude : Nat) : Int :=
  if negative then -(magnitude : Int) else magnitude

/-- Whether a text has a minus sign in front, and the text after its sign. -/
def splitSign : List Char → Bool × List Char
  | '-' :: rest => (true, rest)
  | '+' :: rest => (false, rest)
  | text => (false, text)

/-- The integer that a word of a document is. -/
def integer? (word : List Char) : Option Int :=
  match word with
  | '0' :: 'x' :: digits => magnitude? 16 digits
  | '0' :: 'o' :: digits => magnitude? 8 digits
  | '0' :: 'b' :: digits => magnitude? 2 digits
  | word =>
    let (negative, digits) := splitSign word
    ((decimal? digits).bind (valueUpTo 10 (maxMagnitude negative) 0)).map (signed negative)

/-- Whether a character is a decimal digit or an underscore. -/
def isDigitPart (c : Char) : Bool :=
  Decimal.isDigit c || c == '_'

/-- The number of an exponent. Once it has more than sixteen bits, further digits are left out. -/
def exponentValue (digits : List Char) : Nat :=
  digits.foldl (fun n c => if n < 0x10000 then 10 * n + Decimal.digitValue c else n) 0

/-- The exponent that a text is; no text is no exponent. -/
def exponent? : List Char → Option Int
  | [] => some 0
  | c :: rest =>
    if c == 'e' || c == 'E' then
      let (negative, digits) := splitSign rest
      (separated? Decimal.isDigit digits).map fun digits => signed negative (exponentValue digits)
    else
      none

/-- Whether `digits * 10 ^ exponent` is too large for a floating-point number of 64 bits, even
after rounding: whether it is at least half a step above the largest one. That bound is whole and
has 309 digits, so the digits in front of the point decide. -/
def overflows (digits : List Char) (exponent : Int) : Bool :=
  let digits := digits.dropWhile (· == '0')
  let places := exponent + digits.length
  if digits.isEmpty || places < 309 then false
  else if 309 < places then true
  else 1 <<< 1024 - 1 <<< 970 ≤ Decimal.value ((digits ++ List.replicate 309 '0').take 309)

/-- Whether a word of a document is a floating-point number. A number that rounds to positive
infinity is none; the one that rounds to negative infinity is. -/
def isFloat (word : List Char) : Bool :=
  let (negative, body) := splitSign word
  if body == ['i', 'n', 'f'] || body == ['n', 'a', 'n'] then true
  else
    let whole := body.takeWhile isDigitPart
    match decimal? whole, body.dropWhile isDigitPart with
    | none, _ | some _, [] => false
    | some digits, '.' :: rest =>
      match separated? Decimal.isDigit (rest.takeWhile isDigitPart),
        exponent? (rest.dropWhile isDigitPart) with
      | some fraction, some exponent =>
        negative || !overflows (digits ++ fraction) (exponent - fraction.length)
      | _, _ => false
    | some digits, rest =>
      match exponent? rest with
      | some exponent => negative || !overflows digits exponent
      | none => false

end CallGate.Toml
