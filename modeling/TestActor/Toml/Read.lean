/-!
# Reading from the front of a text

A reader takes something from the front of a text. Its result carries the text that is left and
the proof that something was taken, so that reading one thing after another ends.
-/

namespace TestActor.Toml

/-- What was read from the front of `s`, and the shorter text behind it. -/
structure Read (α : Type) (s : List Char) where
  value : α
  rest : List Char
  shorter : rest.length < s.length

/-- Takes something from the front of a text, or refuses the text. -/
abbrev Reader (α : Type) := (s : List Char) → Option (Read α s)

namespace Read

variable {α β : Type} {s t : List Char}

/-- The same reading with another value. -/
def map (f : α → β) (r : Read α s) : Read β s :=
  ⟨f r.value, r.rest, r.shorter⟩

/-- A reading of a shorter text is one of the longer text. -/
def extend (r : Read α t) (h : t.length ≤ s.length) : Read α s :=
  ⟨r.value, r.rest, Nat.lt_of_lt_of_le r.shorter h⟩

end Read

/-! ## Blanks, comments and line breaks -/

/-- A blank inside a line. -/
def isSpace (c : Char) : Bool :=
  c = ' ' || c = '\t'

/-- A character that stands for itself: any but the controls, of which the tab is allowed. -/
def isAllowed (c : Char) : Bool :=
  c = '\t' || (0x20 ≤ c.toNat && c.toNat ≠ 0x7F)

/-- The text behind the blanks at the front. -/
def skipSpaces (s : List Char) : List Char :=
  s.dropWhile isSpace

theorem length_dropWhile_le (p : Char → Bool) (s : List Char) :
    (s.dropWhile p).length ≤ s.length :=
  (List.dropWhile_sublist p).length_le

theorem length_skipSpaces_le (s : List Char) : (skipSpaces s).length ≤ s.length :=
  length_dropWhile_le isSpace s

/-- The text behind a comment at the front; a comment ends before a line break. -/
def skipComment : List Char → List Char
  | '#' :: r => r.dropWhile isAllowed
  | s => s

theorem length_skipComment_le (s : List Char) : (skipComment s).length ≤ s.length := by
  unfold skipComment
  split
  · next r =>
    have := length_dropWhile_le isAllowed r
    simp only [List.length_cons]
    omega
  · exact Nat.le_refl _

/-- The text behind the blanks and line breaks at the front. A carriage return alone is no line
break. -/
def skipLines : List Char → List Char
  | ' ' :: r => skipLines r
  | '\t' :: r => skipLines r
  | '\n' :: r => skipLines r
  | '\r' :: '\n' :: r => skipLines r
  | s => s

theorem length_skipLines_le (s : List Char) : (skipLines s).length ≤ s.length := by
  fun_induction skipLines s with
  | case1 r ih | case2 r ih | case3 r ih => simp only [List.length_cons]; omega
  | case4 r ih => simp only [List.length_cons]; omega
  | case5 => exact Nat.le_refl _

/-- The text behind the blanks, line breaks and comments at the front. -/
def skipTrivia (s : List Char) : List Char :=
  match _h : skipLines s with
  | '#' :: r => skipTrivia (r.dropWhile isAllowed)
  | t => t
termination_by s.length
decreasing_by
  have h1 := length_skipLines_le s
  have h2 := length_dropWhile_le isAllowed r
  simp only [_h, List.length_cons] at h1
  omega

theorem length_skipTrivia_le (s : List Char) : (skipTrivia s).length ≤ s.length := by
  fun_induction skipTrivia s with
  | case1 s r h ih =>
    have h1 := length_skipLines_le s
    have h2 := length_dropWhile_le isAllowed r
    simp only [h, List.length_cons] at h1
    omega
  | case2 s => exact length_skipLines_le s

/-- What may stand between two parts of an expression. -/
structure Gap where
  /-- The text behind the gap at the front. -/
  skip : List Char → List Char
  length_skip_le : ∀ s, (skip s).length ≤ s.length

/-- Blanks inside a line. -/
def Gap.line : Gap :=
  ⟨skipSpaces, length_skipSpaces_le⟩

/-- Blanks, line breaks and comments. -/
def Gap.lines : Gap :=
  ⟨skipTrivia, length_skipTrivia_le⟩

/-- The text behind the end of a line: blanks, a comment, and a line break or the end of the
text. -/
def endLine? (s : List Char) : Option (List Char) :=
  match skipComment (skipSpaces s) with
  | [] => some []
  | '\n' :: r => some r
  | '\r' :: '\n' :: r => some r
  | _ => none

theorem length_le_of_endLine? {s r : List Char} (h : endLine? s = some r) :
    r.length ≤ s.length := by
  have h1 := length_skipSpaces_le s
  have h2 := length_skipComment_le (skipSpaces s)
  unfold endLine? at h
  split at h
  · simp_all
  · next heq => simp_all; omega
  · next heq => simp_all; omega
  · simp at h

end TestActor.Toml
