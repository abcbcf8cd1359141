import TestActor.Toml.Quotation
import TestActor.Toml.Scalar

/-!
# Expressions of a TOML document

Apart from blanks and comments a document is a sequence of expressions, each on lines of its own:
assignments, headers of tables, and headers of arrays of tables.

## Termination

* `value` — the depth that is left; every bracket and brace uses up one level
* `lexeme`, `sequence`, `key`, `expressions` — the text that is left
-/

namespace TestActor.Toml

/-! ## Keys -/

/-- A character of a key without quotation marks. -/
def isBare (c : Char) : Bool :=
  ('a' ≤ c && c ≤ 'z') || ('A' ≤ c && c ≤ 'Z') || ('0' ≤ c && c ≤ '9') || c = '-' || c = '_'

/-- One part of a key: a string on one line, or a run of bare characters. -/
def keyPart : Reader String
  | [] => none
  | c :: r =>
    if isBare c then
      some ⟨String.ofList (c :: r.takeWhile isBare), r.dropWhile isBare,
        Nat.lt_succ_of_le (length_dropWhile_le isBare r)⟩
    else lineString (c :: r)

/-- A key: parts with points between them, and blanks around the points. -/
def key (s : List Char) : Option (Read Key s) :=
  match keyPart s with
  | none => none
  | some part =>
    match _h : skipSpaces part.rest with
    | '.' :: r =>
      have hr : r.length < part.rest.length := by
        have := length_skipSpaces_le part.rest
        simp only [_h, List.length_cons] at this
        omega
      match key (skipSpaces r) with
      | none => none
      | some t =>
        some ⟨⟨part.value :: t.value.parents, t.value.last⟩, t.rest, by
          have := part.shorter
          have := t.shorter
          have := length_skipSpaces_le r
          omega⟩
    | _ => some ⟨⟨[], part.value⟩, part.rest, part.shorter⟩
termination_by s.length
decreasing_by
  have := part.shorter
  have := length_skipSpaces_le r
  omega

/-- The number of levels that keys and values may nest. -/
def maxDepth : Nat := 80

/-- A key that is not too deep. -/
def boundedKey (s : List Char) : Option (Read Key s) :=
  (key s).filter fun k => k.value.parents.length < maxDepth

/-! ## Values -/

/-- A character of a value without quotation marks. -/
def isLexeme (c : Char) : Bool :=
  !(" \t\r\n#,=[]\x7b\x7d".toList.contains c)

/-- A character that begins a word of such a value behind blanks. -/
def isWordFront (c : Char) : Bool :=
  isLexeme c && c ≠ '.' && c ≠ '"' && c ≠ '\''

/-- The lexeme at the front of a text that begins with `c`, and the text behind it: words with
blanks between them. -/
def lexeme (c : Char) (r : List Char) : List Char × List Char :=
  let word := c :: r.takeWhile isLexeme
  let rest := r.dropWhile isLexeme
  match _h : skipSpaces rest with
  | [] => (word, rest)
  | d :: t =>
    if isWordFront d then
      let more := lexeme d t
      (word ++ rest.takeWhile isSpace ++ more.1, more.2)
    else (word, rest)
termination_by r.length
decreasing_by
  have h1 := length_dropWhile_le isLexeme r
  have h2 := length_skipSpaces_le rest
  simp only [_h, List.length_cons] at h2
  simp only [rest] at h2
  omega

theorem length_lexeme_le (c : Char) (r : List Char) : (lexeme c r).2.length ≤ r.length := by
  fun_induction lexeme c r with
  | case1 c r => exact length_dropWhile_le isLexeme r
  | case2 c r _ rest d t h _ _ ih =>
    have h1 := length_dropWhile_le isLexeme r
    have h2 := length_skipSpaces_le rest
    simp only [h, List.length_cons] at h2
    simp only [rest] at h2
    exact Nat.le_trans ih (by omega)
  | case3 c r => exact length_dropWhile_le isLexeme r

/-- A value without parts: a string or a lexeme. -/
def leaf : Reader Value
  | [] => none
  | c :: r =>
    if c = '"' ∨ c = '\'' then (anyString (c :: r)).map (·.map .string)
    else if isLexeme c then
      (scalar? (lexeme c r).1).map fun v =>
        ⟨v, (lexeme c r).2, Nat.lt_succ_of_le (length_lexeme_le c r)⟩
    else none

/-- Items with commas between them up to the closing character; a comma may stand behind the last
one, and line breaks and comments around every item. -/
def sequence {α : Type} (close : Char) (item : Reader α) (s : List Char) :
    Option (Read (List α) s) :=
  have hs := length_skipTrivia_le s
  match _h : skipTrivia s with
  | [] => none
  | c :: r =>
    have hr : r.length < s.length := by simp only [_h, List.length_cons] at hs; omega
    if c = close then some ⟨[], r, hr⟩
    else
      match item (c :: r) with
      | none => none
      | some x =>
        have hx := x.shorter
        have ht := length_skipTrivia_le x.rest
        match _ht : skipTrivia x.rest with
        | [] => none
        | d :: t =>
          have hd : t.length < s.length := by
            simp only [_ht, List.length_cons] at ht hx; omega
          if d = close then some ⟨[x.value], t, hd⟩
          else if d = ',' then
            match sequence close item t with
            | none => none
            | some more => some ⟨x.value :: more.value, more.rest, Nat.lt_trans more.shorter hd⟩
          else none
termination_by s.length
decreasing_by exact hd

/-- An assignment whose value is read by `item`, with gaps around the equals sign. -/
def assignment (gap : Gap) (item : Reader Value) : Reader Assignment := fun s =>
  match boundedKey s with
  | none => none
  | some k =>
    have hk := k.shorter
    have he := gap.length_skip_le k.rest
    match h : gap.skip k.rest with
    | [] => none
    | c :: r =>
      have hr : (gap.skip r).length ≤ s.length := by
        have := gap.length_skip_le r
        simp only [h, List.length_cons] at he
        omega
      if c = '=' then
        (item (gap.skip r)).map fun v => (v.map fun x => ⟨k.value, x⟩).extend hr
      else none

/-- The table that assignments in braces make. -/
def inlineTable (assignments : List Assignment) : Option Value :=
  (assignAll .value [] assignments).map (.table .value)

/-- A value that nests at most `depth` levels deep. -/
def value : Nat → Reader Value
  | 0 => leaf
  | depth + 1 => fun s =>
    match s with
    | [] => none
    | c :: r =>
      if c = '[' then
        (sequence ']' (value depth) r).map fun t =>
          (t.map (.array .value)).extend (Nat.le_succ _)
      else if c = '\x7b' then
        match sequence '\x7d' (assignment .lines (value depth)) r with
        | none => none
        | some t => (inlineTable t.value).map fun v => (t.map fun _ => v).extend (Nat.le_succ _)
      else leaf (c :: r)

/-! ## Expressions -/

/-- What stands on a line of a document. -/
inductive Expression where
  | assignment (a : Assignment)
  | header (key : Key)
  | arrayHeader (key : Key)

/-- A key between brackets, read behind the opening ones. -/
def bracketed (close : List Char) (s : List Char) : Option (Read Key s) :=
  match boundedKey (skipSpaces s) with
  | none => none
  | some k =>
    let rest := skipSpaces k.rest
    if close.isPrefixOf rest then
      some ⟨k.value, rest.drop close.length, by
        have := k.shorter
        have := length_skipSpaces_le s
        have := length_skipSpaces_le k.rest
        simp only [List.length_drop, rest]
        omega⟩
    else none

/-- One expression. -/
def expression : Reader Expression
  | [] => none
  | '[' :: '[' :: r =>
    (bracketed [']', ']'] r).map fun k => (k.map .arrayHeader).extend (Nat.le_add_right _ 2)
  | '[' :: r => (bracketed [']'] r).map fun k => (k.map .header).extend (Nat.le_add_right _ 1)
  | c :: r => (assignment .line (value maxDepth) (c :: r)).map (·.map .assignment)

/-- All expressions of a document, in order. -/
def expressions (s : List Char) : Option (List Expression) :=
  match _front : skipTrivia s with
  | [] => some []
  | c :: r =>
    match expression (c :: r) with
    | none => none
    | some e =>
      match _line : endLine? e.rest with
      | none => none
      | some rest => (expressions rest).map (e.value :: ·)
termination_by s.length
decreasing_by
  have h1 := length_skipTrivia_le s
  have h2 := length_le_of_endLine? _line
  have h3 := e.shorter
  rw [_front] at h1
  omega

end TestActor.Toml
