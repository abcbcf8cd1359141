/-!
# Hexadecimal digits

Bytes are written as two lower-case digits each, the high half first.
-/

namespace TestActor.Text

/-- The lower-case digit of a value below sixteen. -/
def hexDigit (n : Nat) : Char :=
  if n < 10 then Char.ofNat (0x30 + n) else Char.ofNat (0x61 + n - 10)

/-- The upper-case digit of a value below sixteen. -/
def hexDigitUpper (n : Nat) : Char :=
  if n < 10 then Char.ofNat (0x30 + n) else Char.ofNat (0x41 + n - 10)

/-- The value of a digit in either case. -/
def hexValue? (c : Char) : Option Nat :=
  let n := c.toNat
  if 0x30 ≤ n && n ≤ 0x39 then some (n - 0x30)
  else if 0x61 ≤ n && n ≤ 0x66 then some (n - 0x61 + 10)
  else if 0x41 ≤ n && n ≤ 0x46 then some (n - 0x41 + 10)
  else none

/-- The lower-case digits, the only characters of a stamp. -/
def isLowerHex (c : Char) : Bool :=
  let n := c.toNat
  (0x30 ≤ n && n ≤ 0x39) || (0x61 ≤ n && n ≤ 0x66)

theorem hexValue?_hexDigit {n : Nat} (h : n < 16) : hexValue? (hexDigit n) = some n := by
  have all : ∀ k ∈ List.range 16, hexValue? (hexDigit k) = some k := by decide
  exact all n (List.mem_range.mpr h)

theorem hexValue?_hexDigitUpper {n : Nat} (h : n < 16) :
    hexValue? (hexDigitUpper n) = some n := by
  have all : ∀ k ∈ List.range 16, hexValue? (hexDigitUpper k) = some k := by decide
  exact all n (List.mem_range.mpr h)

theorem isLowerHex_hexDigit {n : Nat} (h : n < 16) : isLowerHex (hexDigit n) = true := by
  have all : ∀ k ∈ List.range 16, isLowerHex (hexDigit k) = true := by decide
  exact all n (List.mem_range.mpr h)

/-- The two digits of a byte. -/
def hexByte (b : UInt8) : List Char :=
  [hexDigit (b.toNat / 16), hexDigit (b.toNat % 16)]

/-- The digits of a sequence of bytes. -/
def hexBytes (bytes : List UInt8) : List Char :=
  bytes.flatMap hexByte

theorem length_hexBytes (bytes : List UInt8) : (hexBytes bytes).length = 2 * bytes.length := by
  induction bytes with
  | nil => rfl
  | cons b r ih =>
    have h : (hexBytes (b :: r)).length = 2 + (hexBytes r).length := by
      simp [hexBytes, hexByte]; omega
    rw [h, ih, List.length_cons]; omega

/-- Every character written for bytes is a lower-case digit. -/
theorem all_isLowerHex_hexBytes (bytes : List UInt8) : (hexBytes bytes).all isLowerHex = true := by
  induction bytes with
  | nil => rfl
  | cons b r ih =>
    have h1 : isLowerHex (hexDigit (b.toNat / 16)) = true :=
      isLowerHex_hexDigit (by have := b.toNat_lt; omega)
    have h2 : isLowerHex (hexDigit (b.toNat % 16)) = true :=
      isLowerHex_hexDigit (Nat.mod_lt _ (by omega))
    simp only [hexBytes, List.flatMap_cons, List.all_append, hexByte, List.all_cons, h1, h2,
      List.all_nil, Bool.and_self, Bool.true_and]
    exact ih

end TestActor.Text
