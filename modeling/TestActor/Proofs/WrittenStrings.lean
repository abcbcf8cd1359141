import TestActor.Proofs.StringBodies

/-!
# Written strings are read back

The form of a string is chosen by what is in it. A form without escapes is only chosen for a string
that has no control in it and no marks that would close it; the line break that is left out behind
opening marks is written there for a string that has line breaks. So a written string is read back,
unless a mark stands right behind it.

## Main statements

* `literal_of_formOf`, `literalLines_of_formOf`: what is known of a string in a literal form.
* `takes_anyString`: a written string is read back, whatever its form is.
-/

namespace TestActor.Toml

variable {s t rest : List Char} {c : Char}

/-! ## The choice of the form -/

theorem longestRun_pos {mark : Char} (h : mark ∈ s) (run : Nat) : 0 < longestRun mark run s := by
  induction s generalizing run with
  | nil => cases h
  | cons c r ih =>
    rw [longestRun]
    by_cases hc : c = mark
    · rw [if_pos hc]
      have := takeWhile_le_longestRun mark (run + 1) r
      omega
    · rw [if_neg hc]
      have hr := (List.mem_cons.mp h).resolve_left (Ne.symm hc)
      exact Nat.lt_of_lt_of_le (ih hr 0) (Nat.le_max_right _ _)

theorem isAllowed_of_needsEscape (h : needsEscape c = false) : isAllowed c = true ∨ c = '\n' := by
  by_cases hbreak : c = '\n'
  · exact .inr hbreak
  by_cases htab : c = '\t'
  · exact .inl (by rw [htab]; rfl)
  · refine .inl ?_
    simp [needsEscape, hbreak, htab] at h
    simp [isAllowed, h]

theorem isAllowed_of_any (h : s.any needsEscape = false) (hc : c ∈ s) :
    isAllowed c = true ∨ c = '\n' :=
  isAllowed_of_needsEscape (by simpa using List.any_eq_false.mp h c hc)

/-- What is known of a string that is written in the literal form on one line. -/
theorem literal_of_formOf (h : formOf s = .literal) :
    s ≠ [] ∧ '\'' ∉ s ∧ ∀ c ∈ s, isAllowed c = true := by
  unfold formOf at h
  dsimp only at h
  split at h
  · cases h
  next hplain =>
  split at h
  · cases h
  split at h
  · next hcond =>
    simp only [Bool.and_eq_true, Bool.not_eq_true', decide_eq_true_eq] at hcond
    obtain ⟨⟨hcontrols, hsingle⟩, hbreak⟩ := hcond
    refine ⟨?_, fun hmem => ?_, fun c hc => ?_⟩
    · rintro rfl
      exact hplain rfl
    · have := longestRun_pos hmem 0
      omega
    · refine (isAllowed_of_any hcontrols hc).resolve_right ?_
      rintro rfl
      simp [hc] at hbreak
  · split at h
    · cases h
    split at h
    · cases h
    split at h <;> cases h

/-- What is known of a string that is written in the literal form on several lines. -/
theorem literalLines_of_formOf (h : formOf s = .literalLines) :
    longestRun '\'' 0 s ≤ 2 ∧ ∀ c ∈ s, isAllowed c = true ∨ c = '\n' := by
  unfold formOf at h
  dsimp only at h
  iterate 4
    split at h
    · cases h
  split at h
  · next hcond =>
    simp only [Bool.and_eq_true, Bool.not_eq_true', decide_eq_true_eq] at hcond
    exact ⟨hcond.2, fun c hc => isAllowed_of_any hcond.1 hc⟩
  · split at h <;> cases h

/-! ## All forms -/

section Forms

variable {value : List Char}

theorem takes_lineString_basic (h : Takes (basicBody s) value rest) :
    Takes (lineString ('"' :: s)) (String.ofList value) rest := by
  obtain ⟨_, h⟩ := h
  unfold lineString
  dsimp only
  rw [if_pos rfl, h]
  exact ⟨_, rfl⟩

theorem takes_lineString_literal (h : Takes (literalBody s) value rest) :
    Takes (lineString ('\'' :: s)) (String.ofList value) rest := by
  obtain ⟨_, h⟩ := h
  unfold lineString
  dsimp only
  rw [if_neg (by decide), if_pos rfl, h]
  exact ⟨_, rfl⟩

theorem takes_linesString_basic (h : Takes (basicLines (dropBreak s)) value rest) :
    Takes (linesString ('"' :: '"' :: '"' :: s)) (String.ofList value) rest := by
  obtain ⟨_, h⟩ := h
  unfold linesString
  split
  · next r hmarks =>
    cases afterMarks?_eq_some_iff.mp hmarks
    rw [h]
    exact ⟨_, rfl⟩
  · next hnone =>
    rw [afterMarks?_eq_some_iff.mpr rfl] at hnone
    cases hnone

theorem takes_linesString_literal (h : Takes (literalLines (dropBreak s)) value rest) :
    Takes (linesString ('\'' :: '\'' :: '\'' :: s)) (String.ofList value) rest := by
  obtain ⟨_, h⟩ := h
  unfold linesString
  split
  · next r hmarks => cases afterMarks?_eq_some_iff.mp hmarks
  · split
    · next r hmarks =>
      cases afterMarks?_eq_some_iff.mp hmarks
      rw [h]
      exact ⟨_, rfl⟩
    · next hnone =>
      rw [afterMarks?_eq_some_iff.mpr rfl] at hnone
      cases hnone

theorem dropBreak_eq_self (hfeed : s.head? ≠ some '\n') (hreturn : s.head? ≠ some '\r') :
    dropBreak s = s := by
  unfold dropBreak
  split
  · exact absurd rfl hfeed
  · exact absurd rfl hreturn
  · rfl

/-- The line break behind the opening marks is left out, and no other one. -/
theorem dropBreak_openingBreak (h : '\n' ∉ s → t.head? ≠ some '\n' ∧ t.head? ≠ some '\r') :
    dropBreak (openingBreak s ++ t) = t := by
  unfold openingBreak
  by_cases hbreak : '\n' ∈ s
  · rw [if_pos (by simpa using hbreak)]
    rfl
  · rw [if_neg (by simpa using hbreak)]
    exact dropBreak_eq_self (h hbreak).1 (h hbreak).2

theorem head?_of_isAllowed (h : isAllowed c = true) (hbreak : c ≠ '\n') (s : List Char) :
    (c :: s).head? ≠ some '\n' ∧ (c :: s).head? ≠ some '\r' := by
  constructor
  · exact fun he => hbreak (Option.some.inj he)
  · intro he
    rw [Option.some.inj he] at h
    cases h

theorem head?_linesText (hbreak : '\n' ∉ s) :
    (linesText 0 s ++ '"' :: t).head? ≠ some '\n' ∧ (linesText 0 s ++ '"' :: t).head? ≠ some '\r' := by
  cases s with
  | nil => exact ⟨by simp [linesText], by simp [linesText]⟩
  | cons c r =>
    rw [linesText]
    by_cases hmark : c = '"'
    · rw [if_pos hmark, if_neg (by decide)]
      exact ⟨by simp, by simp⟩
    have hc : c ≠ '\n' := fun he => hbreak (he ▸ List.mem_cons_self)
    rw [if_neg hmark, if_neg hc]
    rcases basicChar_cases c with ⟨hself, hallowed, -⟩ | ⟨front, back, hescaped, -⟩
    · rw [hself]
      exact head?_of_isAllowed hallowed hc _
    · rw [hescaped]
      exact ⟨by simp, by simp⟩

theorem head?_literal (hallowed : ∀ c ∈ s, isAllowed c = true ∨ c = '\n') (hbreak : '\n' ∉ s) :
    (s ++ '\'' :: t).head? ≠ some '\n' ∧ (s ++ '\'' :: t).head? ≠ some '\r' := by
  cases s with
  | nil => exact ⟨by simp, by simp⟩
  | cons c r =>
    have hc : c ≠ '\n' := fun he => hbreak (he ▸ List.mem_cons_self)
    exact head?_of_isAllowed ((hallowed c List.mem_cons_self).resolve_right hc) hc _

theorem atMarks_eq_false (hdouble : ∀ r, s ≠ '"' :: '"' :: '"' :: r)
    (hsingle : ∀ r, s ≠ '\'' :: '\'' :: '\'' :: r) : atMarks s = false := by
  have hnone : ∀ mark, (∀ r, s ≠ mark :: mark :: mark :: r) → afterMarks? mark s = none := by
    intro mark h
    exact Option.eq_none_iff_forall_not_mem.mpr fun r hr => h r (afterMarks?_eq_some_iff.mp hr)
  rw [atMarks, hnone _ hdouble, hnone _ hsingle]
  rfl

/-- A quotation mark of a string is written behind a backslash. -/
theorem basicText_front (c : Char) (s t : List Char) :
    ∃ front back, basicText (c :: s) ++ t = front :: back ∧ front ≠ '"' := by
  rw [basicText_cons, List.append_assoc]
  by_cases hmark : c = '"'
  · rw [if_pos hmark]
    exact ⟨'\\', _, rfl, by decide⟩
  by_cases hbreak : c = '\n'
  · rw [if_neg hmark, if_pos hbreak]
    exact ⟨'\\', _, rfl, by decide⟩
  rw [if_neg hmark, if_neg hbreak]
  exact basicChar_append_eq hmark _

theorem takes_anyString_basic (s : List Char) (hrest : rest.head? ≠ some '"') :
    Takes (anyString ('"' :: (basicText s ++ '"' :: rest))) (String.ofList s) rest := by
  have hmarks : atMarks ('"' :: (basicText s ++ '"' :: rest)) = false := by
    refine atMarks_eq_false (fun r he => ?_) fun r he => by cases he
    have hbehind := (List.cons.inj he).2
    cases s with
    | nil => exact hrest (by rw [(List.cons.inj hbehind).2]; rfl)
    | cons c s =>
      obtain ⟨front, back, heq, hfront⟩ := basicText_front c s ('"' :: rest)
      rw [heq] at hbehind
      exact hfront (List.cons.inj hbehind).1
  unfold anyString
  rw [hmarks, if_neg Bool.false_ne_true]
  exact takes_lineString_basic (takes_basicBody s rest)

theorem takes_anyString_literal (hne : s ≠ []) (hmark : '\'' ∉ s)
    (hallowed : ∀ c ∈ s, isAllowed c = true) (rest : List Char) :
    Takes (anyString ('\'' :: (s ++ '\'' :: rest))) (String.ofList s) rest := by
  have hmarks : atMarks ('\'' :: (s ++ '\'' :: rest)) = false := by
    refine atMarks_eq_false (fun r he => by cases he) fun r he => ?_
    obtain ⟨c, t, rfl⟩ := List.exists_cons_of_ne_nil hne
    have hc : c = '\'' := (List.cons.inj (List.cons.inj he).2).1
    exact hmark (hc ▸ List.mem_cons_self)
  unfold anyString
  rw [hmarks, if_neg Bool.false_ne_true]
  exact takes_lineString_literal (takes_literalBody hmark hallowed rest)

theorem takes_anyString_basicLines (s : List Char) (hrest : rest.head? ≠ some '"') :
    Takes (anyString ('"' :: '"' :: '"' :: (openingBreak s ++
      (linesText 0 s ++ '"' :: '"' :: '"' :: rest)))) (String.ofList s) rest := by
  unfold anyString
  rw [if_pos (show atMarks ('"' :: '"' :: '"' :: _) = true from rfl)]
  refine takes_linesString_basic ?_
  rw [dropBreak_openingBreak head?_linesText]
  exact takes_basicLines (Nat.zero_le 2) s hrest

theorem takes_anyString_literalLines (hrun : longestRun '\'' 0 s ≤ 2)
    (hallowed : ∀ c ∈ s, isAllowed c = true ∨ c = '\n') (hrest : rest.head? ≠ some '\'') :
    Takes (anyString ('\'' :: '\'' :: '\'' :: (openingBreak s ++
      (s ++ '\'' :: '\'' :: '\'' :: rest)))) (String.ofList s) rest := by
  unfold anyString
  rw [if_pos (show atMarks ('\'' :: '\'' :: '\'' :: _) = true from rfl)]
  refine takes_linesString_literal ?_
  rw [dropBreak_openingBreak (head?_literal hallowed)]
  exact takes_literalLines hrun hallowed hrest

theorem writeString_append (s rest : List Char) :
    writeString s ++ rest = match formOf s with
      | .basic => '"' :: (basicText s ++ '"' :: rest)
      | .literal => '\'' :: (s ++ '\'' :: rest)
      | .basicLines =>
        '"' :: '"' :: '"' :: (openingBreak s ++ (linesText 0 s ++ '"' :: '"' :: '"' :: rest))
      | .literalLines =>
        '\'' :: '\'' :: '\'' :: (openingBreak s ++ (s ++ '\'' :: '\'' :: '\'' :: rest)) := by
  unfold writeString
  cases formOf s <;> simp

/-- **A written string is read back**, whatever its form is. -/
theorem takes_anyString (s : List Char) (hdouble : rest.head? ≠ some '"')
    (hsingle : rest.head? ≠ some '\'') :
    Takes (anyString (writeString s ++ rest)) (String.ofList s) rest := by
  rw [writeString_append]
  cases hform : formOf s with
  | basic => exact takes_anyString_basic s hdouble
  | literal =>
    obtain ⟨hne, hmark, hallowed⟩ := literal_of_formOf hform
    exact takes_anyString_literal hne hmark hallowed rest
  | basicLines => exact takes_anyString_basicLines s hdouble
  | literalLines =>
    obtain ⟨hrun, hallowed⟩ := literalLines_of_formOf hform
    exact takes_anyString_literalLines hrun hallowed hsingle

end Forms

end TestActor.Toml
