import TestActor.Text.Hex
import TestActor.Toml.Read

/-!
# Strings in quotation marks

There are four forms. Basic strings know escapes, literal strings do not; both come on one line,
between single marks, and on several lines, between marks written three times. In the forms on
several lines up to two marks may stand before the closing ones.
-/

namespace TestActor.Toml

open Text

/-! ## Escapes -/

/-- The number that `n` hexadecimal digits at the front write, and the text behind them. -/
def hexDigits? : Nat → Nat → List Char → Option (Nat × List Char)
  | 0, value, s => some (value, s)
  | n + 1, value, c :: r => do
    let d ← hexValue? c
    hexDigits? n (16 * value + d) r
  | _ + 1, _, [] => none

theorem length_le_of_hexDigits? {n value result : Nat} {s r : List Char}
    (h : hexDigits? n value s = some (result, r)) : r.length ≤ s.length := by
  induction n generalizing value s with
  | zero => simp_all [hexDigits?]
  | succ n ih =>
    cases s with
    | nil => simp [hexDigits?] at h
    | cons c t =>
      rw [hexDigits?] at h
      obtain ⟨d, -, hd⟩ := Option.bind_eq_some_iff.mp h
      have := ih hd
      simp only [List.length_cons]
      omega

/-- The character that `n` hexadecimal digits number. A surrogate is no character. -/
def numbered? (n : Nat) (s : List Char) : Option (Char × List Char) := do
  let (value, r) ← hexDigits? n 0 s
  if value.isValidChar then some (Char.ofNat value, r) else none

theorem length_le_of_numbered? {n : Nat} {c : Char} {s r : List Char}
    (h : numbered? n s = some (c, r)) : r.length ≤ s.length := by
  obtain ⟨⟨value, t⟩, ht, h⟩ := Option.bind_eq_some_iff.mp h
  dsimp only at h
  split at h
  · have := length_le_of_hexDigits? ht
    simp_all
  · simp at h

/-- The letters that stand for one character each. -/
def escapeLetters : List (Char × Char) :=
  [('b', '\x08'), ('t', '\t'), ('n', '\n'), ('f', '\x0c'), ('r', '\r'), ('e', '\x1b'),
   ('"', '"'), ('\\', '\\')]

/-- The letters that number a character, with the count of digits behind each. -/
def escapeWidths : List (Char × Nat) :=
  [('x', 2), ('u', 4), ('U', 8)]

/-- The character that an escape stands for, read behind its backslash. -/
def escape : Reader Char
  | [] => none
  | c :: r =>
    match escapeLetters.lookup c with
    | some d => some ⟨d, r, Nat.lt_succ_self _⟩
    | none =>
      match escapeWidths.lookup c with
      | none => none
      | some n =>
        match h : numbered? n r with
        | none => none
        | some (d, rest) => some ⟨d, rest, Nat.lt_succ_of_le (length_le_of_numbered? h)⟩

/-! ## One line -/

/-- The characters of a basic string, read behind its opening mark. -/
def basicBody (s : List Char) : Option (Read (List Char) s) :=
  match s with
  | [] => none
  | c :: r =>
    if c = '"' then some ⟨[], r, Nat.lt_succ_self _⟩
    else if c = '\\' then do
      let e ← escape r
      let t ← basicBody e.rest
      some ⟨e.value :: t.value, t.rest, by
        have := e.shorter; have := t.shorter; simp only [List.length_cons]; omega⟩
    else if isAllowed c then do
      let t ← basicBody r
      some ⟨c :: t.value, t.rest, by have := t.shorter; simp only [List.length_cons]; omega⟩
    else none
termination_by s.length
decreasing_by
  · have := e.shorter; simp only [List.length_cons]; omega
  · simp

/-- The characters of a literal string, read behind its opening mark. -/
def literalBody : Reader (List Char)
  | [] => none
  | c :: r =>
    if c = '\'' then some ⟨[], r, Nat.lt_succ_self _⟩
    else if isAllowed c then do
      let t ← literalBody r
      some ⟨c :: t.value, t.rest, by have := t.shorter; simp only [List.length_cons]; omega⟩
    else none

/-! ## Several lines -/

/-- The text behind a line break at the front, if there is one. -/
def dropBreak : List Char → List Char
  | '\n' :: r => r
  | '\r' :: '\n' :: r => r
  | s => s

theorem length_dropBreak_le (s : List Char) : (dropBreak s).length ≤ s.length := by
  unfold dropBreak
  split
  · simp
  · simp only [List.length_cons]; omega
  · exact Nat.le_refl _

/-- Does a line break stand at the front? -/
def atBreak : List Char → Bool
  | '\n' :: _ => true
  | '\r' :: '\n' :: _ => true
  | _ => false

/-- The text behind a line that a backslash continues: behind the blanks up to the line break, the
line break, and all blanks and line breaks after it. -/
def continued? (s : List Char) : Option (List Char) :=
  if atBreak (skipSpaces s) then some (skipLines s) else none

theorem length_le_of_continued? {s r : List Char} (h : continued? s = some r) :
    r.length ≤ s.length := by
  unfold continued? at h
  split at h
  · cases h
    exact length_skipLines_le s
  · simp at h

/-- At most `n` marks at the front of a text, and the text behind them. -/
def takeMarks (mark : Char) : Nat → List Char → List Char × List Char
  | 0, s => ([], s)
  | _ + 1, [] => ([], [])
  | n + 1, c :: r =>
    if c = mark then
      let t := takeMarks mark n r
      (c :: t.1, t.2)
    else ([], c :: r)

theorem length_takeMarks_le (mark : Char) (n : Nat) (s : List Char) :
    (takeMarks mark n s).2.length ≤ s.length := by
  fun_induction takeMarks mark n s with
  | case1 => exact Nat.le_refl _
  | case2 => exact Nat.le_refl _
  | case3 n r t ih => exact Nat.le_succ_of_le ih
  | case4 => exact Nat.le_refl _

/-- What stands behind three marks at the front of a text. -/
def afterMarks? (mark : Char) : List Char → Option (List Char)
  | a :: b :: c :: r => if a = mark ∧ b = mark ∧ c = mark then some r else none
  | _ => none

theorem length_lt_of_afterMarks? {mark : Char} {s r : List Char}
    (h : afterMarks? mark s = some r) : r.length < s.length := by
  unfold afterMarks? at h
  split at h
  · split at h
    · cases h
      simp only [List.length_cons]
      omega
    · simp at h
  · simp at h

/-- The end of a string on several lines, read at its closing marks. Of the marks behind the first
three, up to two belong to the string. -/
def closing (mark : Char) (s : List Char) : Option (Read (List Char) s) :=
  match h : afterMarks? mark s with
  | none => none
  | some r =>
    some ⟨(takeMarks mark 2 r).1, (takeMarks mark 2 r).2, by
      have := length_lt_of_afterMarks? h
      have := length_takeMarks_le mark 2 r
      omega⟩

/-- A character that may stand in a string on several lines: one that stands for itself, or part
of a line break. -/
def isAllowedAt (c : Char) (r : List Char) : Bool :=
  isAllowed c || c = '\n' || (c = '\r' && r.head? == some '\n')

/-- The characters of a basic string on several lines. -/
def basicLines (s : List Char) : Option (Read (List Char) s) :=
  match closing '"' s with
  | some t => some t
  | none =>
    match s with
    | [] => none
    | c :: r =>
      if c = '\\' then
        match _h : continued? r with
        | some rest => do
          let t ← basicLines rest
          some ⟨t.value, t.rest, by
            have := length_le_of_continued? _h
            have := t.shorter; simp only [List.length_cons]; omega⟩
        | none => do
          let e ← escape r
          let t ← basicLines e.rest
          some ⟨e.value :: t.value, t.rest, by
            have := e.shorter; have := t.shorter; simp only [List.length_cons]; omega⟩
      else if isAllowedAt c r then do
        let t ← basicLines r
        some ⟨c :: t.value, t.rest, by have := t.shorter; simp only [List.length_cons]; omega⟩
      else none
termination_by s.length
decreasing_by
  · have := length_le_of_continued? _h
    simp only [List.length_cons]; omega
  · have := e.shorter; simp only [List.length_cons]; omega
  · simp

/-- The characters of a literal string on several lines. -/
def literalLines (s : List Char) : Option (Read (List Char) s) :=
  match closing '\'' s with
  | some t => some t
  | none =>
    match s with
    | [] => none
    | c :: r =>
      if isAllowedAt c r then do
        let t ← literalLines r
        some ⟨c :: t.value, t.rest, by have := t.shorter; simp only [List.length_cons]; omega⟩
      else none

/-! ## All forms -/

/-- A string on one line, in either form. -/
def lineString : Reader String
  | [] => none
  | c :: r =>
    let body := if c = '"' then basicBody r else if c = '\'' then literalBody r else none
    body.map fun t => (t.map String.ofList).extend (Nat.le_succ _)

/-- A string on several lines, in either form. A line break right behind the opening marks is not
part of it. -/
def linesString (s : List Char) : Option (Read String s) :=
  match h : afterMarks? '"' s with
  | some r =>
    (basicLines (dropBreak r)).map fun t => (t.map String.ofList).extend (by
      have := length_lt_of_afterMarks? h
      have := length_dropBreak_le r
      omega)
  | none =>
    match h : afterMarks? '\'' s with
    | some r =>
      (literalLines (dropBreak r)).map fun t => (t.map String.ofList).extend (by
        have := length_lt_of_afterMarks? h
        have := length_dropBreak_le r
        omega)
    | none => none

/-- Do the marks of a string on several lines stand at the front? -/
def atMarks (s : List Char) : Bool :=
  (afterMarks? '"' s).isSome || (afterMarks? '\'' s).isSome

/-- A string in any of the four forms. -/
def anyString (s : List Char) : Option (Read String s) :=
  if atMarks s then linesString s else lineString s

end TestActor.Toml
