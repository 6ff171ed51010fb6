import CallGate.Decimal

/-!
# TOML dates and times

A date of the calendar, a time of the day, or both, and with both an offset from universal time.
-/

namespace CallGate.Toml

/-- The number of two digits. -/
def twoDigits? (a b : Char) : Option Nat :=
  if Decimal.isDigit a && Decimal.isDigit b then some (Decimal.value [a, b]) else none

/-- Number of days of a month. -/
def daysInMonth (year month : Nat) : Nat :=
  if month == 2 then
    if year % 4 == 0 && (year % 100 != 0 || year % 400 == 0) then 29 else 28
  else if month == 4 || month == 6 || month == 9 || month == 11 then 30
  else 31

/-- The text after a date, if it starts with one. -/
def date? : List Char → Option (List Char)
  | a :: b :: c :: d :: '-' :: e :: f :: '-' :: g :: h :: rest => do
    let century ← twoDigits? a b
    let yearOfCentury ← twoDigits? c d
    let month ← twoDigits? e f
    let day ← twoDigits? g h
    let valid := 1 ≤ month && month ≤ 12 && 1 ≤ day
      && day ≤ daysInMonth (100 * century + yearOfCentury) month
    if valid then some rest else none
  | _ => none

/-- The text after an hour and a minute, if it starts with them. -/
def hourMinute? : List Char → Option (List Char)
  | a :: b :: ':' :: c :: d :: rest => do
    let hour ← twoDigits? a b
    let minute ← twoDigits? c d
    if hour ≤ 23 && minute ≤ 59 then some rest else none
  | _ => none

/-- The text after the fraction of a second, if there is one. -/
def fraction? : List Char → Option (List Char)
  | '.' :: c :: rest => if Decimal.isDigit c then some (rest.dropWhile Decimal.isDigit) else none
  | '.' :: [] => none
  | text => some text

/-- The text after a time of the day, if it starts with one. A second sixty may be inserted. -/
def time? (text : List Char) : Option (List Char) := do
  match ← hourMinute? text with
  | ':' :: a :: b :: rest =>
    let second ← twoDigits? a b
    if second ≤ 60 then fraction? rest else none
  | _ => none

/-- Whether a text is an offset from universal time. -/
def isOffset : List Char → Bool
  | ['Z'] | ['z'] => true
  | '+' :: rest | '-' :: rest => hourMinute? rest == some []
  | _ => false

/-- Whether a text is a time of the day, with or without an offset. -/
def isTimeOfDate (text : List Char) : Bool :=
  match time? text with
  | some rest => rest.isEmpty || isOffset rest
  | none => false

/-- Whether a text is a date and nothing more. -/
def isDate (text : List Char) : Bool :=
  date? text == some []

/-- Whether a word of a document is a date, a time, or both. -/
def isMoment (word : List Char) : Bool :=
  match date? word with
  | some [] => true
  | some (c :: rest) => (c == 'T' || c == 't') && isTimeOfDate rest
  | none => time? word == some []

end CallGate.Toml
