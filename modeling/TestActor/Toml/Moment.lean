import TestActor.Toml.Number

/-!
# Dates and times

A date and a time are joined by `T`, `t` or one space, and an offset may follow them. Seconds may
be left out, and a second of sixty is a leap second. An offset is shorter than a day.
-/

namespace TestActor.Toml

/-- A number of two digits at the front of a text. -/
def twoDigits? : List Char → Option (Nat × List Char)
  | a :: b :: r => if isDecimal a && isDecimal b then some (numberOf 10 [a, b], r) else none
  | _ => none

/-- Is the year one with a leap day? -/
def isLeap (year : Nat) : Bool :=
  year % 4 = 0 && (year % 100 ≠ 0 || year % 400 = 0)

/-- The number of days of a month; of no month there are none. -/
def daysIn (year month : Nat) : Nat :=
  if month = 2 then (if isLeap year then 29 else 28)
  else if month = 4 ∨ month = 6 ∨ month = 9 ∨ month = 11 then 30
  else if 1 ≤ month ∧ month ≤ 12 then 31
  else 0

/-- What follows a given character at the front of a text. -/
def behind? (c : Char) : List Char → Option (List Char)
  | d :: r => if d = c then some r else none
  | [] => none

/-- What follows a date at the front of a text. -/
def afterDate? (s : List Char) : Option (List Char) := do
  let (century, r) ← twoDigits? s
  let (rest, r) ← twoDigits? r
  let (month, r) ← twoDigits? (← behind? '-' r)
  let (day, r) ← twoDigits? (← behind? '-' r)
  if 1 ≤ day && day ≤ daysIn (100 * century + rest) month then some r else none

/-- What follows the fraction of a second, if there is one. -/
def afterFraction? (s : List Char) : Option (List Char) :=
  match s with
  | '.' :: c :: r => if isDecimal c then some (r.dropWhile isDecimal) else none
  | '.' :: [] => none
  | _ => some s

/-- What follows the seconds of a time, if there are any. -/
def afterSeconds? (s : List Char) : Option (List Char) :=
  match s with
  | ':' :: r => do
    let (second, r) ← twoDigits? r
    if second ≤ 60 then afterFraction? r else none
  | _ => some s

/-- What follows a time at the front of a text. -/
def afterTime? (s : List Char) : Option (List Char) := do
  let (hour, r) ← twoDigits? s
  let (minute, r) ← twoDigits? (← behind? ':' r)
  if hour ≤ 23 && minute ≤ 59 then afterSeconds? r else none

/-- A whole offset from universal time, or nothing. -/
def isOffset (s : List Char) : Bool :=
  match s with
  | [] => true
  | c :: r =>
    if c = 'Z' ∨ c = 'z' then r.isEmpty
    else if c = '+' ∨ c = '-' then
      match twoDigits? r with
      | some (hours, ':' :: r) =>
        match twoDigits? r with
        | some (minutes, []) => hours ≤ 23 && minutes ≤ 59
        | _ => false
      | _ => false
    else false

/-- Is a lexeme a date, a time, or a date with a time and perhaps an offset? -/
def isMoment (s : List Char) : Bool :=
  match afterDate? s with
  | none => afterTime? s == some []
  | some [] => true
  | some (c :: r) =>
    if c = 'T' ∨ c = 't' ∨ c = ' ' then
      match afterTime? r with
      | none => false
      | some r => isOffset r
    else false

end TestActor.Toml
