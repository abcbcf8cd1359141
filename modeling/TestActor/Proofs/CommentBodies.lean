import TestActor.Proofs.DocDelimiters

/-!
# Comments in a frame

A comment stands between an opening and a closing delimiter, with blanks around. When there is no
delimiter in the body of the comment, its text is the body without the blanks at both ends. The
delimiters may share their characters with the ends of the body: what begins with a slash or an
asterisk, or ends with one, is kept as well. There is one exception. Behind a body that ends with a
slash and an asterisk the closing delimiter makes these two an opening delimiter, which is taken out
first; of the closing delimiter a slash is left.

## Main statements

* `Text.trim_append_append`: blanks around a text make no difference to what is trimmed.
* `DocComment.strip_append_append`: nor do blanks around a comment.
* `DocComment.strip_enclosed`: the body of a comment is kept.
* `DocComment.strip_enclosed_concat`: what becomes of a body with the exceptional end.
* `DocComment.text_framed_iff`: the body is kept exactly if it has not this end.
-/

namespace TestActor

namespace Text

variable {before s after : List Char} {c : Char}

theorem trimRight_append (hafter : ∀ c ∈ after, isBlank c = true) :
    trimRight (s ++ after) = trimRight s := by
  have hreverse : ∀ c ∈ after.reverse, isBlank c = true := fun c hc =>
    hafter c (List.mem_reverse.mp hc)
  rw [trimRight, trimRight, List.reverse_append, List.dropWhile_append_of_pos hreverse]

/-- **Blanks around a text make no difference to what is trimmed.** -/
theorem trim_append_append (hbefore : ∀ c ∈ before, isBlank c = true)
    (hafter : ∀ c ∈ after, isBlank c = true) : trim (before ++ (s ++ after)) = trim s := by
  rw [trim, trim, List.dropWhile_append_of_pos hbefore, List.dropWhile_append]
  split
  · next hempty =>
    -- all of the text is blank
    have hall : after.dropWhile isBlank = [] :=
      dropWhile_eq_nil_iff.mpr (List.all_eq_true.mpr hafter)
    rw [hall, List.isEmpty_iff.mp hempty]
  · exact trimRight_append hafter

/-- Trimming keeps a last character that is not blank. -/
theorem getLast?_trim_concat (hc : ¬ isBlank c = true) :
    (trim (s ++ [c])).getLast? = some c := by
  have hkept : ∀ t : List Char, trimRight (t ++ [c]) = t ++ [c] := fun t =>
    List.rdropWhile_concat_neg isBlank t c hc
  have hsingle : [c].dropWhile isBlank = [c] := List.dropWhile_cons_of_neg hc
  rw [trim, List.dropWhile_append, hsingle]
  split
  · exact congrArg List.getLast? (hkept [])
  · rw [hkept, List.getLast?_concat]

end Text

namespace DocComment

open Text

variable {before body after front raw delimiter : List Char}

/-! ## Blanks around a comment -/

section Blanks

variable (h : delimiter = opening ∨ delimiter = closing)

include h

/-- Blanks have nothing in common with a delimiter. -/
theorem not_mem_of_isBlank {blanks : List Char} (hblanks : ∀ c ∈ blanks, isBlank c = true) :
    ∀ c ∈ blanks, c ∉ delimiter :=
  fun c hc hmem => (not_isBlank_of_mem_delimiters h).2 c hmem (hblanks c hc)

theorem replaceAll_of_isBlank {blanks : List Char} (hblanks : ∀ c ∈ blanks, isBlank c = true) :
    replaceAll delimiter [] blanks = blanks := by
  refine replaceAll_eq_self fun hinside => ?_
  obtain ⟨c, hc⟩ := List.exists_mem_of_ne_nil delimiter (not_isBlank_of_mem_delimiters h).1
  exact not_mem_of_isBlank h hblanks c (hinside.subset hc) hc

/-- Delimiters are taken out of what stands between blanks. -/
theorem replaceAll_between_blanks (hbefore : ∀ c ∈ before, isBlank c = true)
    (hafter : ∀ c ∈ after, isBlank c = true) :
    replaceAll delimiter [] (before ++ (raw ++ after))
      = before ++ (replaceAll delimiter [] raw ++ after) := by
  have hne := (not_isBlank_of_mem_delimiters h).1
  rw [replaceAll_append_of_apart hne (apart_of_disjoint_left (not_mem_of_isBlank h hbefore)),
    replaceAll_append_of_apart hne (apart_of_disjoint_right (not_mem_of_isBlank h hafter)),
    replaceAll_of_isBlank h hbefore, replaceAll_of_isBlank h hafter]

end Blanks

/-- **Blanks around a comment make no difference to its text.** -/
theorem strip_append_append (hbefore : ∀ c ∈ before, isBlank c = true)
    (hafter : ∀ c ∈ after, isBlank c = true) :
    strip (before ++ (raw ++ after)) = strip raw := by
  rw [strip_eq, unopened, replaceAll_between_blanks (.inl rfl) hbefore hafter, unclosed,
    replaceAll_between_blanks (.inr rfl) hbefore hafter, trim_append_append hbefore hafter]
  rfl

/-! ## Between two delimiters -/

theorem unbordered_opening : Unbordered opening :=
  unbordered_of_inits (by decide) (by decide)

/-- An opening delimiter that ends in a closing one has a slash and an asterisk in front of it. -/
theorem apart_opening_closing (h : ¬ ['/', '*'] <:+ body) : Apart opening body closing := by
  intro p q hp hq hpq hsuffix hprefix
  cases p with
  | nil => exact hp rfl
  | cons a p =>
    obtain ⟨rfl, hrest⟩ := List.cons.inj hpq
    rcases List.append_eq_cons_iff.mp hrest with ⟨rfl, rfl⟩ | ⟨p, rfl, hlast⟩
    · -- behind the first asterisk of the closing delimiter there is no second one
      exact absurd hprefix (by decide)
    · rcases List.append_eq_singleton_iff.mp hlast.symm with ⟨rfl, -⟩ | ⟨-, rfl⟩
      · exact h hsuffix
      · exact hq rfl

theorem unopened_opening_append (rest : List Char) : unopened (opening ++ rest) = unopened rest :=
  replaceAll_append rest unbordered_opening.ne_nil

/-- **The body of a comment is kept**, unless it ends with a slash and an asterisk. -/
theorem strip_enclosed (hopening : ¬ opening <:+: body) (hclosing : ¬ closing <:+: body)
    (hend : ¬ ['/', '*'] <:+ body) : strip (opening ++ (body ++ closing)) = trim body := by
  have hunopened : unopened (opening ++ (body ++ closing)) = body ++ closing := by
    rw [unopened_opening_append, unopened,
      replaceAll_append_of_apart unbordered_opening.ne_nil (apart_opening_closing hend),
      replaceAll_eq_self hopening, replaceAll_eq_self (s := closing) (by decide)]
  have hlast : unclosed closing = [] :=
    (unclosed_closings 1 []).trans (replaceAll_eq_self (by decide))
  -- an asterisk at the end of the body begins no closing delimiter
  have hapart : ¬ (body.getLast? = some '*' ∧ closing.head? = some '/') := fun h =>
    absurd h.2 (by decide)
  rw [strip_eq, hunopened, unclosed_append hapart, hlast, List.append_nil, unclosed,
    replaceAll_eq_self hclosing]

/-- **Of a body that ends with a slash and an asterisk the asterisk is lost.** These two and the
asterisk behind them are taken out as an opening delimiter, and the last slash is left. -/
theorem strip_enclosed_concat (hopening : ¬ opening <:+: front ++ ['/', '*'])
    (hclosing : ¬ closing <:+: front ++ ['/', '*']) :
    strip (opening ++ (front ++ ['/', '*'] ++ closing)) = trim (front ++ ['/']) := by
  have hsplit : front ++ ['/', '*'] ++ closing = front ++ (opening ++ ['/']) := by
    simp [opening, closing]
  have hfront : ¬ opening <:+: front := fun hinside =>
    hopening (hinside.trans (List.prefix_append front _).isInfix)
  have hslash : ¬ closing <:+: front ++ ['/'] := fun hinside =>
    hclosing (hinside.trans ⟨[], ['*'], by simp⟩)
  have hunopened : unopened (front ++ (opening ++ ['/'])) = front ++ ['/'] := by
    rw [unopened, replaceAll_append_of_apart unbordered_opening.ne_nil
      (unbordered_opening.apart_occurrence front ['/']), replaceAll_eq_self hfront,
      replaceAll_append _ unbordered_opening.ne_nil, replaceAll_eq_self (s := ['/']) (by decide)]
    rfl
  rw [strip_eq, unopened_opening_append, hsplit, hunopened, unclosed, replaceAll_eq_self hslash]

theorem trim_slash_ne (front : List Char) : trim (front ++ ['/']) ≠ trim (front ++ ['/', '*']) := by
  intro h
  have hslash : (trim (front ++ ['/'])).getLast? = some '/' := getLast?_trim_concat (by decide)
  have hasterisk : (trim (front ++ ['/'] ++ ['*'])).getLast? = some '*' :=
    getLast?_trim_concat (by decide)
  rw [h, ← List.singleton_append, ← List.append_assoc, hasterisk] at hslash
  exact absurd (Option.some.inj hslash) (by decide)

/-! ## The text of a comment in a frame -/

/-- **The body of a comment is its text, exactly if the body does not end with a slash and an
asterisk.** There may be blanks around the comment and no delimiter in its body, and the body is
taken without the blanks at both ends. It may begin or end with a slash or an asterisk, which then
touches a delimiter. -/
theorem text_framed_iff (before body after : String) (hbefore : isBlankText before = true)
    (hafter : isBlankText after = true) (hopening : ¬ "/**".toList <:+: body.toList)
    (hclosing : ¬ "*/".toList <:+: body.toList) :
    text (before ++ "/**" ++ body ++ "*/" ++ after) = trimmed body ↔
      ¬ "/*".toList <:+ body.toList := by
  have hraw : (before ++ "/**" ++ body ++ "*/" ++ after).toList
      = before.toList ++ (opening ++ (body.toList ++ closing) ++ after.toList) := by
    simp [opening, closing]
  have hstrip : strip (before ++ "/**" ++ body ++ "*/" ++ after).toList
      = strip (opening ++ (body.toList ++ closing)) := by
    rw [hraw]
    exact strip_append_append (List.all_eq_true.mp hbefore) (List.all_eq_true.mp hafter)
  rw [← String.toList_inj, toList_text, hstrip, trimmed, String.toList_ofList]
  constructor
  · rintro hkept ⟨front, hfront⟩
    rw [← hfront] at hkept hopening hclosing
    exact trim_slash_ne front ((strip_enclosed_concat hopening hclosing).symm.trans hkept)
  · exact strip_enclosed hopening hclosing

/-- A body that begins with an asterisk and ends with a slash is kept, and so is one that begins
with a slash and ends with an asterisk; one that ends with both is not. -/
theorem text_framed_of_shared_ends :
    text "\t/*** See /*/\n" = "* See /" ∧ text "/**/ See **/" = "/ See *" ∧
      text "/** See /**/" ≠ "See /*" := by
  have hslash := text_framed_iff "\t" "* See /" "\n"
    (by decide) (by decide) (by decide) (by decide)
  have hasterisk := text_framed_iff "" "/ See *" ""
    (by decide) (by decide) (by decide) (by decide)
  have hboth := text_framed_iff "" " See /*" ""
    (by decide) (by decide) (by decide) (by decide)
  exact ⟨hslash.mpr (by decide), hasterisk.mpr (by decide), fun h => hboth.mp h (by decide)⟩

end DocComment

end TestActor
