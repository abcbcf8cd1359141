import Mathlib.Data.List.TakeWhile
import TestActor.Stamp

/-!
# The grammar of stamps

A stamp is read from the first line of a file piece by piece, and every piece is taken as long as it
can be. The lines with a stamp have a grammar that says nothing of reading; the stamp is found on
exactly these lines. What follows the first line does not matter.

## Main definitions

* `Text.IsFirstLine`: the first line of a text.
* `Stamp.IsStamped`: the lines with a stamp.

## Main statements

* `Text.firstLine_eq_iff`: the first line of a text is found.
* `Stamp.ofLine?_eq_some_iff`: the stamp on a line is found.
* `Stamp.stamp_grammar`: which texts have a stamp, and which one.
-/

namespace TestActor

namespace Text

variable {s line rest : List Char} {c : Char}

/-! ## First lines -/

/-- The first line of a text: the whole text when it has no line feed, otherwise what stands before
the first one, less one carriage return directly before it. -/
inductive IsFirstLine : List Char → List Char → Prop
  | whole {line : List Char} (h : '\n' ∉ line) : IsFirstLine line line
  | feed {line rest : List Char} (h : '\n' ∉ line) (hreturn : line.getLast? ≠ some '\r') :
      IsFirstLine (line ++ '\n' :: rest) line
  | returnFeed {line rest : List Char} (h : '\n' ∉ line) :
      IsFirstLine (line ++ '\r' :: '\n' :: rest) line

theorem dropReturn_concat (line : List Char) : dropReturn (line ++ ['\r']) = line := by
  induction line with
  | nil => rfl
  | cons c line ih =>
    rw [List.cons_append, dropReturn, ih]
    exact fun _ h => absurd h (by simp)

theorem dropReturn_eq_self (h : line.getLast? ≠ some '\r') : dropReturn line = line := by
  fun_induction dropReturn line with
  | case1 => rfl
  | case2 => exact absurd rfl h
  | case3 c r hne ih =>
    have hr : r.getLast? ≠ some '\r' := by
      intro he
      cases r with
      | nil => cases he
      | cons d r => exact h (by rw [List.getLast?_cons_cons]; exact he)
    rw [ih hr]

theorem bne_of_not_mem (h : '\n' ∉ line) : ∀ c ∈ line, (c != '\n') = true :=
  fun _ hc => bne_iff_ne.mpr fun he => h (he ▸ hc)

/-- What stands before the first line feed, less a carriage return. -/
theorem firstLine_append (h : '\n' ∉ line) (rest : List Char) :
    firstLine (line ++ '\n' :: rest) = dropReturn line := by
  have htake : (line ++ '\n' :: rest).takeWhile (· != '\n') = line := by
    rw [List.takeWhile_append_of_pos (bne_of_not_mem h), List.takeWhile_cons_of_neg (by decide),
      List.append_nil]
  unfold firstLine
  rw [htake, if_pos (by simp)]

theorem IsFirstLine.firstLine_eq (h : IsFirstLine s line) : firstLine s = line := by
  cases h with
  | whole h =>
    unfold firstLine
    rw [List.takeWhile_eq_self_iff.mpr (bne_of_not_mem h), if_neg (Nat.lt_irrefl _)]
  | feed h hreturn => rw [firstLine_append h, dropReturn_eq_self hreturn]
  | @returnFeed _ rest h =>
    have hsplit : line ++ '\r' :: '\n' :: rest = (line ++ ['\r']) ++ '\n' :: rest := by simp
    rw [hsplit, firstLine_append (by simpa using h), dropReturn_concat]

theorem exists_isFirstLine (s : List Char) : ∃ line, IsFirstLine s line := by
  by_cases h : '\n' ∈ s
  · obtain ⟨before, rest, rfl, hbefore⟩ := List.eq_append_cons_of_mem h
    by_cases hreturn : before.getLast? = some '\r'
    · obtain ⟨line, rfl⟩ := List.getLast?_eq_some_iff.mp hreturn
      have hline : '\n' ∉ line := fun hmem => hbefore (List.mem_append_left _ hmem)
      rw [List.append_assoc]
      exact ⟨line, .returnFeed hline⟩
    · exact ⟨before, .feed hbefore hreturn⟩
  · exact ⟨s, .whole h⟩

/-- **The first line of a text is found.** -/
theorem firstLine_eq_iff : firstLine s = line ↔ IsFirstLine s line := by
  refine ⟨fun h => ?_, IsFirstLine.firstLine_eq⟩
  obtain ⟨first, hfirst⟩ := exists_isFirstLine s
  rw [← h, hfirst.firstLine_eq]
  exact hfirst

/-- What follows a line feed does not matter to the first line. -/
theorem firstLine_append_cons (before rest other : List Char) :
    firstLine (before ++ '\n' :: rest) = firstLine (before ++ '\n' :: other) := by
  have hmem : '\n' ∈ before ++ ['\n'] := by simp
  obtain ⟨line, more, hsplit, hline⟩ := List.eq_append_cons_of_mem hmem
  have hfirst (rest : List Char) : firstLine (before ++ '\n' :: rest) = dropReturn line := by
    have htext : before ++ '\n' :: rest = line ++ '\n' :: (more ++ rest) := by
      rw [← List.singleton_append, ← List.append_assoc, hsplit, List.append_assoc, List.cons_append]
    rw [htext, firstLine_append hline]
  rw [hfirst, hfirst]

/-! ## Runs of characters -/

/-- At least one character, all of them of a class. -/
def IsRun (p : Char → Prop) (run : List Char) : Prop :=
  run ≠ [] ∧ ∀ c ∈ run, p c

theorem takeWhile_append_of_head {p : Char → Bool} {run : List Char} (hrun : ∀ c ∈ run, p c = true)
    (hrest : ∀ c ∈ rest.head?, ¬ p c = true) : (run ++ rest).takeWhile p = run := by
  rw [List.takeWhile_append_of_pos hrun]
  cases rest with
  | nil => exact List.append_nil run
  | cons c rest => rw [List.takeWhile_cons_of_neg (hrest c rfl), List.append_nil]

theorem dropWhile_append_of_head {p : Char → Bool} {run : List Char} (hrun : ∀ c ∈ run, p c = true)
    (hrest : ∀ c ∈ rest.head?, ¬ p c = true) : (run ++ rest).dropWhile p = rest := by
  rw [List.dropWhile_append_of_pos hrun]
  cases rest with
  | nil => rfl
  | cons c rest => rw [List.dropWhile_cons_of_neg (hrest c rfl)]

theorem not_of_mem_head?_dropWhile {p : Char → Bool} (h : c ∈ (s.dropWhile p).head?) :
    ¬ p c = true := by
  have hstop := List.head?_dropWhile_not p s
  rw [Option.mem_def.mp h] at hstop
  exact Bool.eq_false_iff.mp hstop

/-- The characters of a stamp. -/
def lowerDigits : List Char := "0123456789abcdef".toList

theorem isLowerHex_iff : isLowerHex c = true ↔ c ∈ lowerDigits := by
  constructor
  · intro h
    have hall : ∀ n ∈ List.range 0x67, isLowerHex (Char.ofNat n) = true →
        Char.ofNat n ∈ lowerDigits := by decide
    have hlt : c.toNat < 0x67 := by
      simp only [isLowerHex, Bool.or_eq_true, Bool.and_eq_true, decide_eq_true_eq] at h
      omega
    have hc := hall c.toNat (List.mem_range.mpr hlt)
    rw [Char.ofNat_toNat] at hc
    exact hc h
  · have hall : lowerDigits.all isLowerHex = true := by decide
    exact List.all_eq_true.mp hall c

end Text

namespace Stamp

open Text

variable {s line digits rest start : List Char} {c : Char}

/-! ## Pieces of a line -/

theorem after?_eq_some_iff : after? start s = some rest ↔ s = start ++ rest := by
  unfold after?
  constructor
  · intro h
    split at h
    · next hstart =>
      rw [← Option.some.inj h]
      exact (List.prefix_iff_eq_append.mp (List.isPrefixOf_iff_prefix.mp hstart)).symm
    · cases h
  · rintro rfl
    rw [if_pos (List.isPrefixOf_iff_prefix.mpr (List.prefix_append start rest)), List.drop_left]

/-- Blanks are taken as long as there are any. -/
theorem afterBlanks?_eq_some_iff :
    afterBlanks? s = some rest ↔
      ∃ blanks, IsRun (isBlank ·) blanks ∧ s = blanks ++ rest ∧
        ∀ c ∈ rest.head?, ¬ isBlank c = true := by
  constructor
  · intro h
    unfold afterBlanks? at h
    split at h
    · cases h
    · next c r =>
      split at h
      · next hblank =>
        rw [← Option.some.inj h]
        refine ⟨c :: r.takeWhile isBlank, ⟨List.cons_ne_nil _ _, fun d hd => ?_⟩, ?_,
          fun d hd => not_of_mem_head?_dropWhile hd⟩
        · rcases List.mem_cons.mp hd with rfl | hd
          · exact hblank
          · exact List.mem_takeWhile_imp hd
        · rw [List.cons_append, List.takeWhile_append_dropWhile]
      · cases h
  · rintro ⟨blanks, ⟨hne, hblanks⟩, rfl, hrest⟩
    obtain ⟨c, r, rfl⟩ := List.exists_cons_of_ne_nil hne
    have hr : ∀ d ∈ r, isBlank d = true := fun d hd => hblanks d (List.mem_cons_of_mem _ hd)
    rw [List.cons_append, afterBlanks?, if_pos (hblanks c List.mem_cons_self),
      dropWhile_append_of_head hr hrest]

/-- Digits are taken as long as there are any, and there has to be one. -/
theorem digits_eq_some_iff :
    (if (s.takeWhile isLowerHex).isEmpty then none else some (s.takeWhile isLowerHex))
        = some digits ↔
      IsRun (· ∈ lowerDigits) digits ∧ ∃ rest, s = digits ++ rest ∧
        ∀ c ∈ rest.head?, c ∉ lowerDigits := by
  unfold IsRun
  simp only [← isLowerHex_iff]
  constructor
  · intro h
    split at h
    · cases h
    · next hne =>
      rw [← Option.some.inj h]
      exact ⟨⟨mt List.isEmpty_iff.mpr hne, fun c hc => List.mem_takeWhile_imp hc⟩,
        s.dropWhile isLowerHex, List.takeWhile_append_dropWhile.symm,
        fun c hc => not_of_mem_head?_dropWhile hc⟩
  · rintro ⟨⟨hne, hdigits⟩, rest, rfl, hrest⟩
    rw [takeWhile_append_of_head hdigits hrest, if_neg (mt List.isEmpty_iff.mp hne)]

/-! ## Lines -/

/-- The lines with a stamp: the opening tag, blanks, the mark, blanks and the digits of the stamp,
and behind these nothing, or something that does not begin with a digit. -/
inductive IsStamped : List Char → List Char → Prop
  | intro {before between digits rest : List Char} (hbefore : IsRun (isBlank ·) before)
      (hbetween : IsRun (isBlank ·) between) (hdigits : IsRun (· ∈ lowerDigits) digits)
      (hrest : ∀ c ∈ rest.head?, c ∉ lowerDigits) :
      IsStamped
        ("<?php".toList ++ (before ++ ("//[STAMP]".toList ++ (between ++ (digits ++ rest))))) digits

theorem not_isBlank_of_mem_lowerDigits (h : c ∈ lowerDigits) : ¬ isBlank c = true := by
  have hall : lowerDigits.all (!isBlank ·) = true := by decide
  simpa using List.all_eq_true.mp hall c h

/-- **The stamp on a line is found.** -/
theorem ofLine?_eq_some_iff : ofLine? line = some digits ↔ IsStamped line digits := by
  unfold ofLine?
  simp only [Option.bind_eq_bind, Option.bind_eq_some_iff, after?_eq_some_iff,
    afterBlanks?_eq_some_iff]
  constructor
  · rintro ⟨opened, rfl, tail, ⟨before, hbefore, rfl, -⟩, marked, rfl, behind,
      ⟨between, hbetween, rfl, -⟩, hfound⟩
    obtain ⟨hdigits, rest, rfl, hrest⟩ := digits_eq_some_iff.mp hfound
    exact .intro hbefore hbetween hdigits hrest
  · rintro ⟨hbefore, hbetween, hdigits, hrest⟩
    -- no blank stands at the front of the mark or of the digits
    refine ⟨_, rfl, _, ⟨_, hbefore, rfl, fun c hc => ?_⟩, _, rfl, _,
      ⟨_, hbetween, rfl, fun c hc => ?_⟩, digits_eq_some_iff.mpr ⟨hdigits, _, rfl, hrest⟩⟩
    · have hmark : some '/' = some c := hc
      rw [← Option.some.inj hmark]
      decide
    · obtain ⟨d, more, hfirst⟩ := List.exists_cons_of_ne_nil hdigits.1
      rw [hfirst] at hc
      cases hc
      exact not_isBlank_of_mem_lowerDigits (hdigits.2 c (hfirst ▸ List.mem_cons_self))

/-! ## Texts -/

theorem ofContents?_eq_some_iff {contents stamp : String} :
    ofContents? contents = some stamp ↔
      ∃ line, IsFirstLine contents.toList line ∧ IsStamped line stamp.toList := by
  unfold ofContents?
  rw [Option.map_eq_some_iff]
  constructor
  · rintro ⟨digits, hdigits, rfl⟩
    rw [String.toList_ofList]
    exact ⟨_, firstLine_eq_iff.mp rfl, ofLine?_eq_some_iff.mp hdigits⟩
  · rintro ⟨line, hline, hstamped⟩
    rw [firstLine_eq_iff.mpr hline]
    exact ⟨stamp.toList, ofLine?_eq_some_iff.mpr hstamped, String.ofList_toList⟩

theorem ofContents?_append_cons (before after other : String) :
    ofContents? (before ++ "\n" ++ after) = ofContents? (before ++ "\n" ++ other) := by
  have hline (after : String) : firstLine (before ++ "\n" ++ after).toList
      = firstLine (before.toList ++ '\n' :: after.toList) := by
    simp
  unfold ofContents?
  rw [hline, hline, firstLine_append_cons]

/-- **The texts with a stamp.** A text has a stamp exactly when its first line is the opening tag,
at least one blank, the mark, at least one blank and the stamp, which is at least one lower-case
digit, and behind the stamp the line ends or goes on with something else than such a digit. Every
other text has none. What follows a line feed does not matter. -/
theorem stamp_grammar :
    (∀ contents stamp : String, ofContents? contents = some stamp ↔
      ∃ line, IsFirstLine contents.toList line ∧ IsStamped line stamp.toList) ∧
    (∀ contents : String, ofContents? contents = none ↔
      ¬ ∃ line digits, IsFirstLine contents.toList line ∧ IsStamped line digits) ∧
    ∀ before after other : String,
      ofContents? (before ++ "\n" ++ after) = ofContents? (before ++ "\n" ++ other) := by
  refine ⟨fun _ _ => ofContents?_eq_some_iff, fun contents => ?_, ofContents?_append_cons⟩
  rw [Option.eq_none_iff_forall_not_mem]
  simp only [Option.mem_def, ofContents?_eq_some_iff]
  constructor
  · rintro h ⟨line, digits, hline, hstamped⟩
    refine h (String.ofList digits) ⟨line, hline, ?_⟩
    rw [String.toList_ofList]
    exact hstamped
  · rintro h stamp ⟨line, hline, hstamped⟩
    exact h ⟨line, stamp.toList, hline, hstamped⟩

end Stamp

end TestActor
