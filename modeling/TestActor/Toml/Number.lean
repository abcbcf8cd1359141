import TestActor.Text.Hex

/-!
# Numbers

A number of a document is kept as it is written. Two questions are asked about it. Whether it has
the form of a number is asked of every value of a document. Which number it is, is asked only of
values that are used, and not every form has an answer.

## Forms

* An underscore stands between two digits.
* A decimal number has no leading zero.
* Integers of base sixteen, eight and two have no sign. Their digits may be missing.
* Behind its first underscore a decimal integer may hold other characters, but no space and none
  that makes it a float.

## Numbers

An integer is written with digits of its base alone, at least one, and fits into one hundred and
twenty-eight bits, signed or not. A float does not round to infinity unless it is written as
infinity.
-/

namespace TestActor.Toml

open Text

/-! ## Digits and signs -/

/-- A decimal digit. -/
def isDecimal (c : Char) : Bool :=
  '0' ≤ c && c ≤ '9'

/-- A digit of base sixteen, in either case. -/
def isHexDigit (c : Char) : Bool :=
  (hexValue? c).isSome

/-- A digit of a base up to sixteen. -/
def isDigitOf (base : Nat) (c : Char) : Bool :=
  match hexValue? c with
  | none => false
  | some n => n < base

/-- The number that digits of a base write. -/
def numberOf (base : Nat) (digits : List Char) : Nat :=
  digits.foldl (fun n c => n * base + (hexValue? c).getD 0) 0

/-- The number that a text of digits writes. -/
def natural? (base : Nat) (s : List Char) : Option Nat :=
  if s.isEmpty || !s.all (isDigitOf base) then none else some (numberOf base s)

/-- The sign of a number. -/
inductive Sign where
  | plus
  | minus
  deriving DecidableEq

/-- The sign at the front of a text, if there is one, and the text behind it. -/
def signed : List Char → Option Sign × List Char
  | '-' :: r => (some .minus, r)
  | '+' :: r => (some .plus, r)
  | s => (none, s)

/-- A number with a sign before it. -/
def withSign (sign : Option Sign) (n : Nat) : Int :=
  if sign = some .minus then -n else n

/-- Does a text begin with a zero? -/
def beginsWithZero (s : List Char) : Bool :=
  s.head? == some '0'

/-! ## Underscores -/

/-- The text without underscores. -/
def withoutUnderscores (s : List Char) : List Char :=
  s.filter (· ≠ '_')

/-- Does every underscore of a text stand between two digits? -/
def isGrouped (isDigit : Char → Bool) : List Char → Bool
  | [] => true
  | '_' :: _ => false
  | a :: '_' :: b :: r => isDigit a && isDigit b && isGrouped isDigit (b :: r)
  | _ :: r => isGrouped isDigit r

/-! ## Integers -/

/-- The base of an integer that names one, and the text behind its name. -/
def radix? : List Char → Option (Nat × List Char)
  | '0' :: 'x' :: r => some (16, r)
  | '0' :: 'o' :: r => some (8, r)
  | '0' :: 'b' :: r => some (2, r)
  | _ => none

/-- A character that makes a number a float. -/
def isFloatMark (c : Char) : Bool :=
  c = '.' || c = 'e' || c = 'E'

/-- Has a text the form of a decimal integer? -/
def isDecimalInteger (s : List Char) : Bool :=
  let body := (signed s).2
  match body.dropWhile isDecimal with
  | [] => body = ['0'] || !(body.isEmpty || beginsWithZero body)
  | '_' :: r =>
    !beginsWithZero body && !(r.any fun c => c = ' ' || isFloatMark c)
      && isGrouped isHexDigit body
  | _ => false

/-- Has a text the form of an integer? -/
def isInteger (s : List Char) : Bool :=
  match radix? s with
  | none => isDecimalInteger s
  | some (base, digits) =>
    (withoutUnderscores digits).all (isDigitOf base) && isGrouped isHexDigit digits

/-- Fits into one hundred and twenty-eight bits, signed or not. -/
def inRange (n : Int) : Bool :=
  -(Int.pow 2 127) ≤ n && n < Int.pow 2 128

/-- The integer that a text writes. -/
def integer? (s : List Char) : Option Int :=
  let number := match radix? s with
    | none =>
      let (sign, digits) := signed (withoutUnderscores s)
      (natural? 10 digits).map (withSign sign)
    | some (base, digits) => (natural? base (withoutUnderscores digits)).map Int.ofNat
  number.filter inRange

/-! ## Floats -/

/-- The digits of a decimal number before and behind its point, and its exponent. -/
structure Decimal where
  whole : List Char
  fraction : List Char
  exponent : Int

/-- A run of decimal digits at the front of a text, and the text behind it. -/
def digits? (s : List Char) : Option (List Char × List Char) :=
  let digits := s.takeWhile isDecimal
  if digits.isEmpty then none else some (digits, s.dropWhile isDecimal)

/-- The exponent that a text writes behind its letter. -/
def exponent? (s : List Char) : Option Int :=
  let (sign, digits) := signed s
  (natural? 10 digits).map (withSign sign)

/-- The number with a fraction or an exponent that a text without sign and underscores writes. -/
def decimal? (s : List Char) : Option Decimal := do
  let (whole, r) ← digits? s
  let (fraction, r) ← match r with
    | '.' :: r => digits? r
    | r => some ([], r)
  match r with
  | [] => if fraction.isEmpty then none else some ⟨whole, fraction, 0⟩
  | c :: r =>
    if c = 'e' ∨ c = 'E' then (exponent? r).map fun exponent => ⟨whole, fraction, exponent⟩
    else none

/-- Infinity, or no number. -/
def isSpecial (body : List Char) : Bool :=
  body = "inf".toList || body = "nan".toList

/-- Has a text the form of a float? -/
def isFloat (s : List Char) : Bool :=
  let body := (signed s).2
  if isSpecial body then true
  else match decimal? (withoutUnderscores body) with
    | none => false
    | some d =>
      !(beginsWithZero body && 1 < d.whole.length) && isGrouped isDecimal body

/-- Does a number round to a finite double? The least number that does not is half way between the
greatest double and the next power of two. -/
def Decimal.isFinite (d : Decimal) : Bool :=
  let significant := (d.whole ++ d.fraction).dropWhile (· == '0')
  let exponent := d.exponent - d.fraction.length
  let size := significant.length + exponent
  let mantissa := numberOf 10 significant
  let limit := Nat.pow 2 1024 - Nat.pow 2 970
  if significant.isEmpty || size < 309 then true
  else if 309 < size then false
  else if 0 ≤ exponent then mantissa * Nat.pow 10 exponent.toNat < limit
  else mantissa < limit * Nat.pow 10 (-exponent).toNat

/-- Does a text of the form of a float write one that can be used? -/
def isUsableFloat (s : List Char) : Bool :=
  let body := (signed s).2
  isSpecial body || (decimal? (withoutUnderscores body)).any Decimal.isFinite

end TestActor.Toml
