/-!
# Blank characters

Blank means the Unicode property White_Space. Trimming, the test for a blank name and the reading
of a stamp use this one class.

## Main statements

* `all_isBlank_of_trim_eq_nil`, `trim_eq_nil_of_all_isBlank`: a text trims to nothing exactly when
  all of it is blank.
-/

namespace TestActor.Text

/-- The characters with the Unicode property White_Space. -/
def isBlank (c : Char) : Bool :=
  let n := c.toNat
  (0x09 ≤ n && n ≤ 0x0D) || n == 0x20 || n == 0x85 || n == 0xA0 || n == 0x1680
    || (0x2000 ≤ n && n ≤ 0x200A) || n == 0x2028 || n == 0x2029 || n == 0x202F
    || n == 0x205F || n == 0x3000

/-- Leaves out the blanks at the end. -/
def trimRight (s : List Char) : List Char :=
  (s.reverse.dropWhile isBlank).reverse

/-- Leaves out the blanks at both ends. -/
def trim (s : List Char) : List Char :=
  trimRight (s.dropWhile isBlank)

/-- Leaves out the blanks at both ends of a string. -/
def trimmed (s : String) : String :=
  String.ofList (trim s.toList)

/-- A text without any character that is not blank. -/
def isBlankText (s : String) : Bool :=
  s.toList.all isBlank

theorem dropWhile_eq_nil_iff {p : Char → Bool} {s : List Char} :
    s.dropWhile p = [] ↔ s.all p = true := by
  induction s with
  | nil => simp
  | cons c r ih =>
    by_cases h : p c <;> simp [List.dropWhile, h, ih]

/-- A blank text trims to nothing. -/
theorem trim_eq_nil_of_all_isBlank {s : List Char} (h : s.all isBlank = true) : trim s = [] := by
  simp [trim, trimRight, dropWhile_eq_nil_iff.mpr h]

/-- A text that trims to nothing is blank. -/
theorem all_isBlank_of_trim_eq_nil {s : List Char} (h : trim s = []) : s.all isBlank = true := by
  have h1 : (s.dropWhile isBlank).all isBlank = true := by
    have := dropWhile_eq_nil_iff.mp (List.reverse_eq_nil_iff.mp h)
    simpa using this
  cases hs : s.dropWhile isBlank with
  | nil => exact dropWhile_eq_nil_iff.mp hs
  | cons c r =>
    have hc : isBlank c = true := by
      rw [hs] at h1
      simp only [List.all_cons, Bool.and_eq_true] at h1
      exact h1.1
    have hn : ¬ isBlank c = true := by
      have hne : s.dropWhile isBlank ≠ [] := by rw [hs]; simp
      have := List.head_dropWhile_not isBlank hne
      simpa [hs] using this
    exact absurd hc hn

end TestActor.Text
