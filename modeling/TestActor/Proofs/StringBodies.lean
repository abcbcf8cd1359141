import Mathlib.Data.List.TakeWhile
import TestActor.Toml.Quotation
import TestActor.Toml.Writer

/-!
# Strings between their marks

What is written between the marks of a string is read back up to the closing marks. In a basic
string everything that would be taken for something else is escaped, and a literal string holds
nothing of that kind. On several lines the closing marks are three, so marks of the string may stand
there as they are, but never three in a row.

## Main definition

* `Takes`: what is read from the front of a text.

## Main statements

* `basicChar_cases`: what is written for one character of a basic string.
* `takes_basicBody`, `takes_literalBody`: the forms on one line.
* `closing_cases`: where a string on several lines ends.
* `takes_basicLines`, `takes_literalLines`: the forms on several lines.
-/

namespace TestActor.Toml

open Text

variable {α β : Type} {s t rest : List Char} {c d : Char}

/-! ## Reading -/

/-- A reading gives a value and leaves a text. -/
def Takes (reading : Option (Read α s)) (value : α) (rest : List Char) : Prop :=
  ∃ shorter, reading = some ⟨value, rest, shorter⟩

theorem Takes.map {reading : Option (Read α s)} {value : α} (h : Takes reading value rest)
    (f : α → β) : Takes (reading.map (·.map f)) (f value) rest := by
  obtain ⟨shorter, rfl⟩ := h
  exact ⟨shorter, rfl⟩

theorem Takes.mapExtend {reading : Option (Read α t)} {value : α} (h : Takes reading value rest)
    (f : α → β) (hlength : t.length ≤ s.length) :
    Takes (reading.map fun r => (r.map f).extend hlength) (f value) rest := by
  obtain ⟨shorter, rfl⟩ := h
  exact ⟨Nat.lt_of_lt_of_le shorter hlength, rfl⟩

/-! ## Escapes -/

theorem takes_escape_letter (h : escapeLetters.lookup c = some d) :
    Takes (escape (c :: rest)) d rest := by
  unfold escape
  dsimp only
  rw [h]
  exact ⟨_, rfl⟩

theorem takes_escape_numbered {width : Nat} (hletter : escapeLetters.lookup c = none)
    (hwidth : escapeWidths.lookup c = some width) (h : numbered? width s = some (d, rest)) :
    Takes (escape (c :: s)) d rest := by
  unfold escape
  dsimp only
  rw [hletter]
  dsimp only
  rw [hwidth]
  dsimp only
  split
  · next hnone =>
    rw [h] at hnone
    cases hnone
  · next d' rest' hsome =>
    obtain ⟨rfl, rfl⟩ := Prod.mk.inj (Option.some.inj (h.symm.trans hsome))
    exact ⟨_, rfl⟩

/-- Two digits behind two zeros number a character. -/
theorem numbered?_digits (hc : c.toNat < 256) :
    numbered? 4 ('0' :: '0' :: hexDigitUpper (c.toNat / 16) :: hexDigitUpper (c.toNat % 16) :: rest)
      = some (c, rest) := by
  have hhigh := hexValue?_hexDigitUpper (show c.toNat / 16 < 16 by omega)
  have hlow := hexValue?_hexDigitUpper (show c.toNat % 16 < 16 by omega)
  have hzero : hexValue? '0' = some 0 := by decide
  have hvalue : 16 * (16 * (16 * (16 * 0 + 0) + 0) + c.toNat / 16) + c.toNat % 16 = c.toNat := by
    omega
  have hdigits : hexDigits? 4 0 ('0' :: '0' :: hexDigitUpper (c.toNat / 16)
      :: hexDigitUpper (c.toNat % 16) :: rest) = some (c.toNat, rest) := by
    simp only [hexDigits?, hzero, hhigh, hlow, Option.bind_eq_bind, Option.bind_some, hvalue]
  unfold numbered?
  rw [hdigits]
  have hvalid : c.toNat.isValidChar := c.valid
  simp [hvalid]

/-- **What is written for a character**: the character itself when it stands for itself, or a
backslash and what is read as the character behind it, and that begins with no blank and no line
break. -/
theorem basicChar_cases (c : Char) :
    (basicChar c = [c] ∧ isAllowed c = true ∧ c ≠ '\\') ∨
      ∃ front back, basicChar c = '\\' :: front :: back ∧ isSpace front = false ∧
        front ≠ '\n' ∧ front ≠ '\r' ∧
        ∀ rest, Takes (escape (front :: (back ++ rest))) c rest := by
  unfold basicChar
  split
  · next h =>
    subst h
    exact .inr ⟨'b', [], rfl, rfl, by decide, by decide, fun _ => takes_escape_letter rfl⟩
  split
  · next h =>
    subst h
    exact .inr ⟨'t', [], rfl, rfl, by decide, by decide, fun _ => takes_escape_letter rfl⟩
  split
  · next h =>
    subst h
    exact .inr ⟨'f', [], rfl, rfl, by decide, by decide, fun _ => takes_escape_letter rfl⟩
  split
  · next h =>
    subst h
    exact .inr ⟨'r', [], rfl, rfl, by decide, by decide, fun _ => takes_escape_letter rfl⟩
  split
  · next h =>
    subst h
    exact .inr ⟨'\\', [], rfl, rfl, by decide, by decide, fun _ => takes_escape_letter rfl⟩
  split
  · next hcontrol =>
    have hc : c.toNat < 256 := by
      simp only [Bool.or_eq_true, decide_eq_true_eq] at hcontrol
      omega
    exact .inr ⟨'u', _, rfl, rfl, by decide, by decide, fun rest =>
      takes_escape_numbered rfl rfl (numbered?_digits hc)⟩
  · next hbackslash hcontrol =>
    refine .inl ⟨rfl, ?_, hbackslash⟩
    simp only [Bool.or_eq_true, decide_eq_true_eq, not_or] at hcontrol
    simp [isAllowed]
    omega

/-! ## One line -/

section OneLine

variable {value : List Char}

theorem takes_basicBody_end (rest : List Char) : Takes (basicBody ('"' :: rest)) [] rest := by
  rw [basicBody]
  exact ⟨_, if_pos rfl⟩

theorem takes_basicBody_escape (hescape : Takes (escape s) c t)
    (hbody : Takes (basicBody t) value rest) :
    Takes (basicBody ('\\' :: s)) (c :: value) rest := by
  obtain ⟨_, hescape⟩ := hescape
  obtain ⟨_, hbody⟩ := hbody
  rw [basicBody, if_neg (by decide), if_pos rfl, hescape]
  simp only [Option.bind_eq_bind, Option.bind_some, hbody]
  exact ⟨_, rfl⟩

theorem takes_basicBody_char (hmark : c ≠ '"') (hbackslash : c ≠ '\\')
    (hallowed : isAllowed c = true) (hbody : Takes (basicBody s) value rest) :
    Takes (basicBody (c :: s)) (c :: value) rest := by
  obtain ⟨_, hbody⟩ := hbody
  rw [basicBody, if_neg hmark, if_neg hbackslash, if_pos hallowed, hbody]
  exact ⟨_, rfl⟩

theorem basicText_cons (c : Char) (s : List Char) :
    basicText (c :: s) = (if c = '"' then ['\\', '"'] else
      if c = '\n' then ['\\', 'n'] else basicChar c) ++ basicText s :=
  List.flatMap_cons

/-- **A basic string on one line is read back.** -/
theorem takes_basicBody (s rest : List Char) :
    Takes (basicBody (basicText s ++ '"' :: rest)) s rest := by
  induction s with
  | nil => exact takes_basicBody_end rest
  | cons c r ih =>
    rw [basicText_cons, List.append_assoc]
    by_cases hmark : c = '"'
    · subst hmark
      exact takes_basicBody_escape (takes_escape_letter rfl) ih
    by_cases hbreak : c = '\n'
    · subst hbreak
      exact takes_basicBody_escape (takes_escape_letter rfl) ih
    rw [if_neg hmark, if_neg hbreak]
    rcases basicChar_cases c with ⟨hself, hallowed, hbackslash⟩ | ⟨front, back, hescaped, -, -, -,
      hescape⟩
    · rw [hself]
      exact takes_basicBody_char hmark hbackslash hallowed ih
    · rw [hescaped]
      exact takes_basicBody_escape (hescape _) ih

/-- **A literal string on one line is read back** when it has no mark and no control in it. -/
theorem takes_literalBody (hmark : '\'' ∉ s) (hallowed : ∀ c ∈ s, isAllowed c = true)
    (rest : List Char) : Takes (literalBody (s ++ '\'' :: rest)) s rest := by
  induction s with
  | nil => exact ⟨_, if_pos rfl⟩
  | cons c r ih =>
    obtain ⟨hc, hr⟩ := not_or.mp (mt List.mem_cons.mpr hmark)
    obtain ⟨_, hbody⟩ := ih hr fun d hd => hallowed d (List.mem_cons_of_mem c hd)
    rw [List.cons_append, literalBody, if_neg (Ne.symm hc),
      if_pos (hallowed c List.mem_cons_self), hbody]
    exact ⟨_, rfl⟩

end OneLine

/-! ## Marks -/

section Marks

variable {mark : Char} {written : List Char}

theorem afterMarks?_eq_some_iff :
    afterMarks? mark s = some rest ↔ s = mark :: mark :: mark :: rest := by
  constructor
  · intro h
    unfold afterMarks? at h
    split at h
    · split at h
      · next hmarks =>
        obtain ⟨rfl, rfl, rfl⟩ := hmarks
        cases h
        rfl
      · cases h
    · cases h
  · rintro rfl
    exact if_pos ⟨rfl, rfl, rfl⟩

theorem closing_eq_none (h : ∀ rest, s ≠ mark :: mark :: mark :: rest) : closing mark s = none := by
  unfold closing
  split
  · rfl
  · next hmarks => exact absurd (afterMarks?_eq_some_iff.mp hmarks) (h _)

theorem takeMarks_append {n : Nat} (hlength : written.length ≤ n) (hall : ∀ c ∈ written, c = mark)
    (hrest : rest.head? ≠ some mark) : takeMarks mark n (written ++ rest) = (written, rest) := by
  induction written generalizing n with
  | nil =>
    cases n with
    | zero => rfl
    | succ n =>
      cases rest with
      | nil => rfl
      | cons c r => exact if_neg fun he => hrest (congrArg some he)
  | cons c w ih =>
    obtain rfl : c = mark := hall c List.mem_cons_self
    cases n with
    | zero => cases hlength
    | succ n =>
      rw [List.cons_append, takeMarks, if_pos rfl, ih (Nat.le_of_succ_le_succ hlength)
        fun d hd => hall d (List.mem_cons_of_mem c hd)]

/-- Marks before other marks are marks behind them. -/
theorem append_marks (hall : ∀ c ∈ written, c = mark) (rest : List Char) :
    written ++ mark :: mark :: mark :: rest = mark :: mark :: mark :: (written ++ rest) := by
  induction written with
  | nil => rfl
  | cons c w ih =>
    obtain rfl : c = mark := hall c List.mem_cons_self
    rw [List.cons_append, ih fun d hd => hall d (List.mem_cons_of_mem c hd)]
    rfl

theorem takes_closing (hlength : written.length ≤ 2) (hall : ∀ c ∈ written, c = mark)
    (hrest : rest.head? ≠ some mark) :
    Takes (closing mark (written ++ mark :: mark :: mark :: rest)) written rest := by
  rw [append_marks hall]
  unfold closing
  split
  · next hnone =>
    rw [afterMarks?_eq_some_iff.mpr rfl] at hnone
    cases hnone
  · next r hsome =>
    obtain rfl : written ++ rest = r :=
      Option.some.inj ((afterMarks?_eq_some_iff.mpr rfl).symm.trans hsome)
    refine ⟨?_, ?_⟩
    · simp
      omega
    · simp only [takeMarks_append hlength hall hrest]

/-- **Where a string on several lines ends**: at the first place where nothing but marks, not more
than two, stands before the closing ones. -/
theorem closing_cases (hlength : (written.takeWhile (· == mark)).length ≤ 2)
    (hrest : rest.head? ≠ some mark) :
    (∀ c ∈ written, c = mark) ∧
        Takes (closing mark (written ++ mark :: mark :: mark :: rest)) written rest ∨
      closing mark (written ++ mark :: mark :: mark :: rest) = none := by
  by_cases hall : ∀ c ∈ written, c = mark
  · have htake : written.takeWhile (· == mark) = written :=
      List.takeWhile_eq_self_iff.mpr (by simpa using hall)
    rw [htake] at hlength
    exact .inl ⟨hall, takes_closing hlength hall hrest⟩
  · refine .inr (closing_eq_none fun r he => ?_)
    have htake : (written.takeWhile (· == mark)).length ≠ written.length := by
      intro hsame
      have hself := (List.takeWhile_prefix (· == mark)).eq_of_length hsame
      exact hall (by simpa using List.takeWhile_eq_self_iff.mp hself)
    -- not all of it are marks, so the marks that close are behind another character
    have hthree := congrArg (fun text => (text.takeWhile (· == mark)).length) he
    simp only [List.takeWhile_append, if_neg htake] at hthree
    simp at hthree
    omega

end Marks

/-! ## Several lines -/

section SeveralLines

variable {value : List Char}

theorem takes_basicLines_end (h : Takes (closing '"' s) value rest) :
    Takes (basicLines s) value rest := by
  obtain ⟨_, hclosing⟩ := h
  rw [basicLines.eq_def, hclosing]
  exact ⟨_, rfl⟩

theorem takes_basicLines_char (hclosing : closing '"' (c :: s) = none) (hbackslash : c ≠ '\\')
    (hallowed : isAllowedAt c s = true) (hbody : Takes (basicLines s) value rest) :
    Takes (basicLines (c :: s)) (c :: value) rest := by
  obtain ⟨_, hbody⟩ := hbody
  rw [basicLines, hclosing]
  dsimp only
  rw [if_neg hbackslash, if_pos hallowed, hbody]
  exact ⟨_, rfl⟩

/-- Behind the backslash there is no blank and no line break, so no line is continued. -/
theorem takes_basicLines_escape {front : Char} (hspace : isSpace front = false)
    (hfeed : front ≠ '\n') (hreturn : front ≠ '\r')
    (hescape : Takes (escape (front :: s)) c t) (hbody : Takes (basicLines t) value rest) :
    Takes (basicLines ('\\' :: front :: s)) (c :: value) rest := by
  obtain ⟨_, hescape⟩ := hescape
  obtain ⟨_, hbody⟩ := hbody
  have hclosing : closing '"' ('\\' :: front :: s) = none :=
    closing_eq_none fun r he => by cases he
  have hcontinued : continued? (front :: s) = none := by
    have hskip : skipSpaces (front :: s) = front :: s :=
      List.dropWhile_cons_of_neg (by simp [hspace])
    unfold continued?
    rw [hskip, if_neg]
    unfold atBreak
    split
    · next r he => exact absurd (List.cons.inj he).1 hfeed
    · next r he => exact absurd (List.cons.inj he).1 hreturn
    · simp
  rw [basicLines, hclosing]
  dsimp only
  rw [if_pos rfl]
  split
  · next r hsome =>
    rw [hcontinued] at hsome
    cases hsome
  · rw [hescape]
    simp only [Option.bind_eq_bind, Option.bind_some, hbody]
    exact ⟨_, rfl⟩

theorem takes_literalLines_end (h : Takes (closing '\'' s) value rest) :
    Takes (literalLines s) value rest := by
  obtain ⟨_, hclosing⟩ := h
  rw [literalLines.eq_def, hclosing]
  exact ⟨_, rfl⟩

theorem takes_literalLines_char (hclosing : closing '\'' (c :: s) = none)
    (hallowed : isAllowedAt c s = true) (hbody : Takes (literalLines s) value rest) :
    Takes (literalLines (c :: s)) (c :: value) rest := by
  obtain ⟨_, hbody⟩ := hbody
  rw [literalLines, hclosing]
  dsimp only
  rw [if_pos hallowed, hbody]
  exact ⟨_, rfl⟩

/-! ### Runs of marks -/

/-- The run at the front of a text is not longer than the longest one. -/
theorem takeWhile_le_longestRun (mark : Char) (run : Nat) (s : List Char) :
    (s.takeWhile (· == mark)).length + run ≤ longestRun mark run s := by
  induction s generalizing run with
  | nil => exact Nat.le_of_eq (Nat.zero_add run)
  | cons c r ih =>
    rw [longestRun]
    by_cases hc : c = mark
    · rw [if_pos hc, List.takeWhile_cons_of_pos (by simpa using hc), List.length_cons]
      have := ih (run + 1)
      omega
    · rw [if_neg hc, List.takeWhile_cons_of_neg (by simpa using hc)]
      exact (Nat.le_of_eq (Nat.zero_add run)).trans (Nat.le_max_left _ _)

/-- What is written for a character other than a quotation mark begins with another character. -/
theorem basicChar_append_eq (hmark : c ≠ '"') (s : List Char) :
    ∃ front back, basicChar c ++ s = front :: back ∧ front ≠ '"' := by
  rcases basicChar_cases c with ⟨hself, -, -⟩ | ⟨front, back, hescaped, -⟩
  · exact ⟨c, s, by rw [hself]; rfl, hmark⟩
  · exact ⟨'\\', _, by rw [hescaped]; rfl, by decide⟩

/-- Of quotation marks in a row every third is escaped. -/
theorem takeWhile_linesText {run : Nat} (hrun : run ≤ 2) (s : List Char) :
    ((linesText run s).takeWhile (· == '"')).length + run ≤ 2 := by
  induction s generalizing run with
  | nil => exact (Nat.le_of_eq (Nat.zero_add run)).trans hrun
  | cons c r ih =>
    have hother : ∀ front back, front ≠ '"' →
        ((front :: back).takeWhile (· == '"')).length + run ≤ 2 := by
      intro front back hfront
      rw [List.takeWhile_cons_of_neg (by simpa using hfront)]
      exact (Nat.le_of_eq (Nat.zero_add run)).trans hrun
    rw [linesText]
    by_cases hmark : c = '"'
    · rw [if_pos hmark]
      by_cases hlast : run = 2
      · rw [if_pos hlast]
        exact hother _ _ (by decide)
      · rw [if_neg hlast, List.takeWhile_cons_of_pos (by decide), List.length_cons]
        have := ih (show run + 1 ≤ 2 by omega)
        omega
    rw [if_neg hmark]
    by_cases hbreak : c = '\n'
    · rw [if_pos hbreak]
      exact hother _ _ (by decide)
    · rw [if_neg hbreak]
      obtain ⟨front, back, heq, hfront⟩ := basicChar_append_eq hmark (linesText 0 r)
      rw [heq]
      exact hother _ _ hfront

/-- Only a text of quotation marks is written as such marks. -/
theorem eq_of_linesText {run : Nat} (h : ∀ d ∈ linesText run s, d = '"') : linesText run s = s := by
  induction s generalizing run with
  | nil => rfl
  | cons c r ih =>
    rw [linesText] at h ⊢
    by_cases hmark : c = '"'
    · rw [if_pos hmark] at h ⊢
      by_cases hlast : run = 2
      · rw [if_pos hlast] at h
        exact absurd (h '\\' List.mem_cons_self) (by decide)
      · rw [if_neg hlast] at h ⊢
        rw [ih fun d hd => h d (List.mem_cons_of_mem _ hd), hmark]
    rw [if_neg hmark] at h
    by_cases hbreak : c = '\n'
    · rw [if_pos hbreak] at h
      exact absurd (h '\n' List.mem_cons_self) (by decide)
    · rw [if_neg hbreak] at h
      obtain ⟨front, back, heq, hfront⟩ := basicChar_append_eq hmark (linesText 0 r)
      rw [heq] at h
      exact absurd (h front List.mem_cons_self) hfront

/-! ### Both forms -/

theorem isAllowedAt_of_isAllowed (h : isAllowed c = true) (s : List Char) :
    isAllowedAt c s = true := by
  simp [isAllowedAt, h]

/-- **A basic string on several lines is read back.** -/
theorem takes_basicLines {run : Nat} (hrun : run ≤ 2) (s : List Char)
    (hrest : rest.head? ≠ some '"') :
    Takes (basicLines (linesText run s ++ '"' :: '"' :: '"' :: rest)) s rest := by
  induction s generalizing run with
  | nil => exact takes_basicLines_end (takes_closing (Nat.zero_le 2) (fun _ hc => by cases hc) hrest)
  | cons c r ih =>
    rcases closing_cases (Nat.le_of_add_right_le (takeWhile_linesText hrun (c :: r))) hrest with
      ⟨hall, hclosing⟩ | hclosing
    · rw [eq_of_linesText hall] at hclosing ⊢
      exact takes_basicLines_end hclosing
    -- the string does not end here, so the first character of it is read
    rw [linesText] at hclosing ⊢
    by_cases hmark : c = '"'
    · rw [if_pos hmark] at hclosing ⊢
      subst hmark
      by_cases hlast : run = 2
      · rw [if_pos hlast]
        exact takes_basicLines_escape rfl (by decide) (by decide) (takes_escape_letter rfl)
          (ih (Nat.zero_le 2))
      · rw [if_neg hlast] at hclosing ⊢
        exact takes_basicLines_char hclosing (by decide) rfl (ih (by omega))
    rw [if_neg hmark] at hclosing ⊢
    by_cases hbreak : c = '\n'
    · rw [if_pos hbreak] at hclosing ⊢
      subst hbreak
      exact takes_basicLines_char hclosing (by decide) rfl (ih (Nat.zero_le 2))
    rw [if_neg hbreak, List.append_assoc] at hclosing ⊢
    rcases basicChar_cases c with ⟨hself, hallowed, hbackslash⟩ | ⟨front, back, hescaped, hspace,
      hfeed, hreturn, hescape⟩
    · rw [hself] at hclosing ⊢
      exact takes_basicLines_char hclosing hbackslash (isAllowedAt_of_isAllowed hallowed _)
        (ih (Nat.zero_le 2))
    · rw [hescaped]
      exact takes_basicLines_escape hspace hfeed hreturn (hescape _) (ih (Nat.zero_le 2))

/-- **A literal string on several lines is read back** when it has no three marks in a row and no
control but line feeds in it. -/
theorem takes_literalLines {run : Nat} (hrun : longestRun '\'' run s ≤ 2)
    (hallowed : ∀ c ∈ s, isAllowed c = true ∨ c = '\n') (hrest : rest.head? ≠ some '\'') :
    Takes (literalLines (s ++ '\'' :: '\'' :: '\'' :: rest)) s rest := by
  induction s generalizing run with
  | nil =>
    exact takes_literalLines_end (takes_closing (Nat.zero_le 2) (fun _ hc => by cases hc) hrest)
  | cons c r ih =>
    have hlength := (takeWhile_le_longestRun '\'' run (c :: r)).trans hrun
    rcases closing_cases (Nat.le_of_add_right_le hlength) hrest with ⟨hall, hclosing⟩ | hclosing
    · exact takes_literalLines_end hclosing
    have hone : ∀ s, isAllowedAt c s = true := by
      intro s
      rcases hallowed c List.mem_cons_self with hc | rfl
      · exact isAllowedAt_of_isAllowed hc s
      · rfl
    have hr := fun d hd => hallowed d (List.mem_cons_of_mem c hd)
    refine takes_literalLines_char hclosing (hone _) ?_
    rw [longestRun] at hrun
    by_cases hmark : c = '\''
    · rw [if_pos hmark] at hrun
      exact ih hrun hr
    · rw [if_neg hmark] at hrun
      exact ih ((Nat.le_max_right _ _).trans hrun) hr

end SeveralLines

end TestActor.Toml
