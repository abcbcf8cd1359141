import Mathlib.Data.List.Infix
import TestActor.Text.Replace

/-!
# Pieces taken out of a text

Occurrences are replaced from the left, in one pass. So a text is parted into occurrences and other
characters, and everything about a replacement is shown along these parts. A piece of which no end
is a beginning as well cannot overlap with itself; of such a piece every occurrence is met.

When occurrences are taken out, characters come together that were apart. What has come together
may be an occurrence again, and is left where it is.

## Main definitions

* `Text.Apart`: two texts without an occurrence that begins in one and ends in the other.
* `Text.Unbordered`: a piece that cannot overlap with itself.

## Main statements

* `Text.occurrence_induction`: induction along the parts of a text.
* `Text.replaceAll_append_of_apart`: texts that are apart are treated one by one.
* `Text.exists_of_replaceAll_eq_append_cons`: where a character that is left stood in the text.
* `Text.infix_iff_length_replaceAll_lt`: what taking out a piece does to the length.
-/

namespace TestActor.Text

variable {old new s u v p q r : List Char} {c : Char}

/-! ## Parts of a text -/

/-- **Induction along the parts of a text**: occurrences of `old`, taken from the left, and the
characters between them. -/
theorem occurrence_induction {motive : List Char → Prop} (hold : old ≠ []) (nil : motive [])
    (occurrence : ∀ rest, motive rest → motive (old ++ rest))
    (other : ∀ c rest, ¬ old <+: c :: rest → motive rest → motive (c :: rest))
    (s : List Char) : motive s := by
  induction hlength : s.length using Nat.strong_induction_on generalizing s with
  | _ n ih =>
    by_cases hfront : old <+: s
    · obtain ⟨rest, rfl⟩ := hfront
      have hpos : 0 < old.length := List.length_pos_iff.mpr hold
      rw [List.length_append] at hlength
      exact occurrence rest (ih rest.length (by omega) rest rfl)
    · cases s with
      | nil => exact nil
      | cons c rest =>
        rw [List.length_cons] at hlength
        exact other c rest hfront (ih rest.length (by omega) rest rfl)

/-- A character that begins no occurrence is kept. -/
theorem replaceAll_cons_of_not_isPrefix (h : ¬ old <+: c :: r) :
    replaceAll old new (c :: r) = c :: replaceAll old new r := by
  refine replaceAll_cons_of_not ?_
  rw [← Bool.not_eq_true, List.isPrefixOf_iff_prefix]
  exact h

/-- A text without an occurrence is left as it is. -/
theorem replaceAll_eq_self (h : ¬ old <:+: s) : replaceAll old new s = s := by
  induction s with
  | nil => simp [replaceAll]
  | cons c rest ih =>
    rw [List.infix_cons_iff, not_or] at h
    rw [replaceAll_cons_of_not_isPrefix h.1, ih h.2]

/-! ## Texts that are apart -/

/-- No occurrence of `old` begins in `u` and ends in `v`. -/
def Apart (old u v : List Char) : Prop :=
  ∀ p q, p ≠ [] → q ≠ [] → p ++ q = old → p <:+ u → ¬ q <+: v

theorem Apart.of_suffix (h : Apart old u v) (hs : s <:+ u) : Apart old s v :=
  fun p q hp hq hold hsuffix => h p q hp hq hold (hsuffix.trans hs)

theorem apart_nil (old v : List Char) : Apart old [] v :=
  fun _ _ hp _ _ hsuffix => absurd (List.suffix_nil.mp hsuffix) hp

/-- No occurrence begins in a text that has none of its characters. -/
theorem apart_of_disjoint_left (h : ∀ c ∈ u, c ∉ old) : Apart old u v := by
  intro p q hp _ hpq hback _
  obtain ⟨c, hc⟩ := List.exists_mem_of_ne_nil p hp
  exact h c (hback.subset hc) (hpq ▸ List.mem_append_left q hc)

/-- No occurrence ends in a text that has none of its characters. -/
theorem apart_of_disjoint_right (h : ∀ c ∈ v, c ∉ old) : Apart old u v := by
  intro p q _ hq hpq _ hfront
  obtain ⟨c, hc⟩ := List.exists_mem_of_ne_nil q hq
  exact h c (hfront.subset hc) (hpq ▸ List.mem_append_right p hc)

/-- An occurrence at the front of two texts is one of the first text, if that is not empty and no
occurrence begins in the first text and ends in the second. -/
theorem Apart.prefix_of_prefix_append (h : Apart old u v) (hu : u ≠ []) (hold : old <+: u ++ v) :
    old <+: u := by
  obtain ⟨t, ht⟩ := hold
  rcases List.append_eq_append_iff.mp ht with ⟨rest, hrest, -⟩ | ⟨rest, hrest, hv⟩
  · exact ⟨rest, hrest.symm⟩
  · -- `old` is the whole of `u` with the beginning of `v` behind it
    by_cases hempty : rest = []
    · rw [hrest, hempty, List.append_nil]
    · exact absurd ⟨t, hv.symm⟩ (h u rest hu hempty hrest.symm List.suffix_rfl)

/-- **Texts that are apart are treated one by one.** -/
theorem replaceAll_append_of_apart (hold : old ≠ []) (h : Apart old u v) :
    replaceAll old new (u ++ v) = replaceAll old new u ++ replaceAll old new v := by
  induction u using occurrence_induction hold with
  | nil => simp [replaceAll]
  | occurrence rest ih =>
    rw [List.append_assoc, replaceAll_append _ hold, replaceAll_append _ hold,
      ih (h.of_suffix (List.suffix_append old rest)), List.append_assoc]
  | other c rest hfront ih =>
    have hfront' : ¬ old <+: c :: (rest ++ v) :=
      fun hp => hfront (h.prefix_of_prefix_append (List.cons_ne_nil c rest) hp)
    rw [List.cons_append, replaceAll_cons_of_not_isPrefix hfront',
      replaceAll_cons_of_not_isPrefix hfront, ih (h.of_suffix (List.suffix_cons c rest)),
      List.cons_append]

/-! ## Taking out -/

/-- A piece of which no end is a beginning, but for the whole. -/
structure Unbordered (old : List Char) : Prop where
  ne_nil : old ≠ []
  eq_of_border : ∀ p, p ≠ [] → p <+: old → p <:+ old → p = old

/-- Whether a piece can overlap with itself is seen from its beginnings. -/
theorem unbordered_of_inits (hne : old ≠ [])
    (h : ∀ p ∈ old.inits, p ≠ [] → p <:+ old → p = old) : Unbordered old where
  ne_nil := hne
  eq_of_border p hp hprefix := h p ((List.mem_inits p old).mpr hprefix) hp

/-- An occurrence is apart from what follows. -/
theorem Unbordered.apart_append (hold : Unbordered old) (h : Apart old u v) :
    Apart old (old ++ u) v := by
  intro p q hp hq hpq ⟨t, ht⟩
  rcases List.append_eq_append_iff.mp ht with ⟨border, hborder, rfl⟩ | ⟨rest, -, hrest⟩
  · by_cases hempty : border = []
    · subst hempty
      exact h u q hp hq hpq List.suffix_rfl
    · -- an end of `old` that is a beginning as well leaves nothing for `v`
      have hprefix : border <+: old := ⟨u ++ q, by rw [← hpq, List.append_assoc]⟩
      obtain rfl := hold.eq_of_border border hempty hprefix ⟨t, hborder.symm⟩
      rw [List.append_assoc] at hpq
      exact absurd (List.append_eq_nil_iff.mp (List.append_right_eq_self.mp hpq)).2 hq
  · exact h p q hp hq hpq ⟨rest, hrest.symm⟩

/-- What stands in front of an occurrence is apart from it. -/
theorem Unbordered.apart_occurrence (hold : Unbordered old) (u v : List Char) :
    Apart old u (old ++ v) := by
  intro p q hp hq hpq _ hprefix
  have hlength : q.length ≤ old.length := by
    rw [← hpq, List.length_append]
    exact Nat.le_add_left _ _
  have hfront : q <+: old := List.prefix_of_prefix_length_le hprefix ⟨v, rfl⟩ hlength
  obtain rfl := hold.eq_of_border q hq hfront ⟨p, hpq⟩
  exact hp (List.append_left_eq_self.mp hpq)

/-- Occurrences one after another are all taken out. -/
theorem replaceAll_nil_flatten_replicate (hold : old ≠ []) (n : Nat) (rest : List Char) :
    replaceAll old [] ((List.replicate n old).flatten ++ rest) = replaceAll old [] rest := by
  induction n with
  | zero => rfl
  | succ n ih =>
    rw [List.replicate_succ, List.flatten_cons, List.append_assoc, replaceAll_append _ hold, ih]
    rfl

/-- In front of the first character that is left there are occurrences only. -/
theorem exists_of_replaceAll_eq_cons (hold : old ≠ []) (h : replaceAll old [] s = c :: q) :
    ∃ n r, s = (List.replicate n old).flatten ++ c :: r ∧ ¬ old <+: c :: r ∧
      replaceAll old [] r = q := by
  induction s using occurrence_induction hold with
  | nil => simp [replaceAll] at h
  | occurrence rest ih =>
    rw [replaceAll_append _ hold] at h
    obtain ⟨n, r, hrest, hkept⟩ := ih h
    refine ⟨n + 1, r, ?_, hkept⟩
    rw [hrest, List.replicate_succ, List.flatten_cons, List.append_assoc]
  | other d rest hfront ih =>
    rw [replaceAll_cons_of_not_isPrefix hfront] at h
    obtain ⟨rfl, hq⟩ := List.cons.inj h
    exact ⟨0, rest, rfl, hfront, hq⟩

/-- **Where a character that is left stood in the text**: behind a part that is apart from what
follows, and not at the front of an occurrence. -/
theorem exists_of_replaceAll_eq_append_cons (hold : Unbordered old)
    (h : replaceAll old [] s = p ++ c :: q) :
    ∃ u r, s = u ++ c :: r ∧ Apart old u (c :: r) ∧ ¬ old <+: c :: r ∧
      replaceAll old [] r = q := by
  induction s using occurrence_induction hold.ne_nil generalizing p with
  | nil => simp [replaceAll] at h
  | occurrence rest ih =>
    rw [replaceAll_append _ hold.ne_nil] at h
    obtain ⟨u, r, hrest, hapart, hkept⟩ := ih h
    exact ⟨old ++ u, r, by rw [hrest, List.append_assoc], hold.apart_append hapart, hkept⟩
  | other d rest hfront ih =>
    rw [replaceAll_cons_of_not_isPrefix hfront] at h
    cases p with
    | nil =>
      obtain ⟨rfl, hq⟩ := List.cons.inj h
      exact ⟨[], rest, rfl, apart_nil old _, hfront, hq⟩
    | cons e p =>
      obtain ⟨rfl, hp⟩ := List.cons.inj h
      obtain ⟨u, r, hrest, hapart, hkept⟩ := ih hp
      refine ⟨d :: u, r, by rw [hrest]; rfl, ?_, hkept⟩
      intro p q hp hq hpq hsuffix hprefix
      rcases List.suffix_cons_iff.mp hsuffix with rfl | hu
      · -- such an occurrence would begin at `d`
        refine hfront ?_
        rw [← hpq, hrest, ← List.cons_append]
        exact (List.prefix_append_right_inj (d :: u)).mpr hprefix
      · exact hapart p q hp hq hpq hu hprefix

/-! ## Lengths -/

theorem length_replaceAll_nil_le (hold : old ≠ []) (s : List Char) :
    (replaceAll old [] s).length ≤ s.length := by
  induction s using occurrence_induction hold with
  | nil => simp [replaceAll]
  | occurrence rest ih =>
    rw [replaceAll_append _ hold, List.nil_append, List.length_append]
    omega
  | other c rest hfront ih =>
    rw [replaceAll_cons_of_not_isPrefix hfront, List.length_cons, List.length_cons]
    omega

/-- **Taking out a piece makes a text shorter exactly when it occurs.** -/
theorem infix_iff_length_replaceAll_lt (hold : old ≠ []) (s : List Char) :
    old <:+: s ↔ (replaceAll old [] s).length < s.length := by
  constructor
  · intro h
    induction s using occurrence_induction hold with
    | nil => exact absurd (List.infix_nil.mp h) hold
    | occurrence rest ih =>
      have hpos : 0 < old.length := List.length_pos_iff.mpr hold
      have hle := length_replaceAll_nil_le hold rest
      rw [replaceAll_append _ hold, List.nil_append, List.length_append]
      omega
    | other c rest hfront ih =>
      have hlt := ih ((List.infix_cons_iff.mp h).resolve_left hfront)
      rw [replaceAll_cons_of_not_isPrefix hfront, List.length_cons, List.length_cons]
      omega
  · intro hlt
    by_contra h
    rw [replaceAll_eq_self h] at hlt
    exact absurd hlt (Nat.lt_irrefl _)

end TestActor.Text
