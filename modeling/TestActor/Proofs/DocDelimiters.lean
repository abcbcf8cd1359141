import Mathlib.Data.List.DropRight
import TestActor.Proofs.Lookup
import TestActor.Proofs.Substitution
import TestActor.Proofs.TakenOut

/-!
# Delimiters in the text of a comment

The text of a comment has its delimiters taken out: first the opening ones, then the closing ones,
in one pass each. A delimiter that stands inside another one is taken out of it, and what is left of
the other one is a delimiter again, which is not looked at any more. So a text is free of delimiters
exactly if no delimiter comes together in this way.

## Main definitions

* `DocComment.unopened`: a comment without its opening delimiters.
* `DocComment.JoinsClosing`, `DocComment.JoinsOpening`: what becomes a delimiter when the closing
  delimiters are taken out.

## Main statements

* `DocComment.closing_infix_strip_iff`, `DocComment.opening_infix_strip_iff`: when a delimiter is
  left.
* `DocComment.delimiters_left_iff`: both, and that stripping again makes the difference.
* `DocComment.delimiters_left_in_method`: a text that closes the comment of a forwarding method.
-/

namespace TestActor

namespace Text

variable {p : Char → Bool} {w s : List Char}

/-! ## Trimming -/

/-- What has no character that is left out at the front is not lost. -/
theorem infix_dropWhile_iff (hne : w ≠ []) (hw : ∀ c ∈ w, ¬ p c = true) :
    w <:+: s.dropWhile p ↔ w <:+: s := by
  induction s with
  | nil => exact Iff.rfl
  | cons c rest ih =>
    rw [List.dropWhile_cons]
    split
    · next hc =>
      have hfront : ¬ w <+: c :: rest := by
        rintro ⟨t, ht⟩
        cases w with
        | nil => exact hne rfl
        | cons d w =>
          obtain ⟨rfl, -⟩ := List.cons.inj ht
          exact hw d List.mem_cons_self hc
      rw [ih, List.infix_cons_iff, or_iff_right hfront]
    · exact Iff.rfl

/-- **Trimming loses no piece without blanks.** -/
theorem infix_trim_iff (hne : w ≠ []) (hw : ∀ c ∈ w, ¬ isBlank c = true) :
    w <:+: trim s ↔ w <:+: s := by
  have hreverse : w.reverse ≠ [] := by simpa using hne
  have hblank : ∀ c ∈ w.reverse, ¬ isBlank c = true := fun c hc => hw c (List.mem_reverse.mp hc)
  calc w <:+: trim s
      ↔ w.reverse <:+: ((s.dropWhile isBlank).reverse.dropWhile isBlank) := by
        rw [trim, trimRight, ← List.reverse_infix, List.reverse_reverse]
    _ ↔ w.reverse <:+: (s.dropWhile isBlank).reverse := infix_dropWhile_iff hreverse hblank
    _ ↔ w <:+: s.dropWhile isBlank := List.reverse_infix
    _ ↔ w <:+: s := infix_dropWhile_iff hne hw

theorem trim_trim (s : List Char) : trim (trim s) = trim s := by
  have hright : ∀ t, trimRight t = t.rdropWhile isBlank := fun _ => rfl
  -- the first character that trimming at the front leaves is the first one of the rest
  have hfront : (trim s).dropWhile isBlank = trim s := by
    refine List.dropWhile_eq_self_iff.mpr fun hpos => ?_
    have hprefix : trim s <+: s.dropWhile isBlank := List.rdropWhile_prefix isBlank _
    rw [List.IsPrefix.getElem hprefix hpos]
    exact List.dropWhile_get_zero_not isBlank s _
  rw [trim, hfront, hright, trim, hright]
  exact List.rdropWhile_idempotent isBlank _

theorem length_trim_le (s : List Char) : (trim s).length ≤ s.length := by
  rw [trim, trimRight, List.length_reverse]
  have hback := List.length_dropWhile_le isBlank (s.dropWhile isBlank).reverse
  rw [List.length_reverse] at hback
  exact hback.trans (List.length_dropWhile_le isBlank s)

end Text

namespace DocComment

open Text

variable {s u v : List Char} {c : Char}

/-! ## Delimiters -/

/-- The opening delimiter of a comment. -/
def opening : List Char := ['/', '*', '*']

/-- The closing delimiter of a comment. -/
def closing : List Char := ['*', '/']

/-- Closing delimiters one after another. -/
def closings (n : Nat) : List Char := (List.replicate n closing).flatten

/-- A comment without its opening delimiters. -/
def unopened (raw : List Char) : List Char := replaceAll opening [] raw

/-- A text without its closing delimiters. -/
def unclosed (s : List Char) : List Char := replaceAll closing [] s

/-- Closing delimiters stand inside a closing delimiter. -/
def JoinsClosing (s : List Char) : Prop :=
  ∃ n, '*' :: (closings (n + 1) ++ ['/']) <:+: s

/-- There is an opening delimiter, with or without closing delimiters inside, of which neither end
belongs to a closing delimiter. -/
def JoinsOpening (s : List Char) : Prop :=
  ∃ u v m n, s = u ++ '/' :: (closings m ++ '*' :: (closings n ++ '*' :: v)) ∧
    u.getLast? ≠ some '*' ∧ v.head? ≠ some '/'

theorem strip_eq (raw : List Char) : strip raw = trim (unclosed (unopened raw)) := rfl

theorem unbordered_closing : Unbordered closing :=
  unbordered_of_inits (by decide) (by decide)

theorem apart_closing_iff : Apart closing u v ↔ ¬ (u.getLast? = some '*' ∧ v.head? = some '/') := by
  constructor
  · rintro h ⟨hu, hv⟩
    obtain ⟨u, rfl⟩ := List.getLast?_eq_some_iff.mp hu
    obtain ⟨v, rfl⟩ := List.head?_eq_some_iff.mp hv
    exact h ['*'] ['/'] (by decide) (by decide) rfl (List.suffix_append u ['*']) ⟨v, rfl⟩
  · rintro h p q hp hq hpq ⟨t, rfl⟩ ⟨r, rfl⟩
    -- both parts of the delimiter are single characters
    obtain ⟨rfl, rfl⟩ : p = ['*'] ∧ q = ['/'] := by
      cases p with
      | nil => exact absurd rfl hp
      | cons a p =>
        obtain ⟨rfl, hrest⟩ := List.cons.inj hpq
        rcases List.append_eq_singleton_iff.mp hrest with ⟨rfl, rfl⟩ | ⟨rfl, rfl⟩
        · exact ⟨rfl, rfl⟩
        · exact absurd rfl hq
    exact h ⟨by simp, rfl⟩

theorem closing_prefix_cons_iff : closing <+: c :: s ↔ c = '*' ∧ s.head? = some '/' := by
  cases s <;> simp [closing, List.cons_prefix_cons, eq_comm]

/-! ## Taking out the closing delimiters -/

theorem unclosed_cons (h : ¬ (c = '*' ∧ s.head? = some '/')) :
    unclosed (c :: s) = c :: unclosed s :=
  replaceAll_cons_of_not_isPrefix (closing_prefix_cons_iff.not.mpr h)

theorem unclosed_closings (n : Nat) (s : List Char) : unclosed (closings n ++ s) = unclosed s :=
  replaceAll_nil_flatten_replicate unbordered_closing.ne_nil n s

theorem unclosed_append (h : ¬ (u.getLast? = some '*' ∧ v.head? = some '/')) :
    unclosed (u ++ v) = unclosed u ++ unclosed v :=
  replaceAll_append_of_apart unbordered_closing.ne_nil (apart_closing_iff.mpr h)

/-- Behind closing delimiters, or where they are missing, stands the next character that is left. -/
theorem exists_of_unclosed_eq_cons {q : List Char} (h : unclosed s = c :: q) :
    ∃ n r, s = closings n ++ c :: r ∧ ¬ (c = '*' ∧ r.head? = some '/') ∧ unclosed r = q := by
  obtain ⟨n, r, hs, hfront, hr⟩ := exists_of_replaceAll_eq_cons unbordered_closing.ne_nil h
  exact ⟨n, r, hs, closing_prefix_cons_iff.not.mp hfront, hr⟩

theorem exists_of_unclosed_eq_append_cons {p q : List Char} (h : unclosed s = p ++ c :: q) :
    ∃ u r, s = u ++ c :: r ∧ ¬ (u.getLast? = some '*' ∧ c = '/') ∧
      ¬ (c = '*' ∧ r.head? = some '/') ∧ unclosed r = q := by
  obtain ⟨u, r, hs, hapart, hfront, hr⟩ := exists_of_replaceAll_eq_append_cons unbordered_closing h
  refine ⟨u, r, hs, ?_, closing_prefix_cons_iff.not.mp hfront, hr⟩
  simpa using apart_closing_iff.mp hapart

/-- Of two asterisks the first begins no closing delimiter. -/
theorem unclosed_asterisk_cons (h : s.head? = some '*') :
    unclosed ('*' :: s) = '*' :: unclosed s := by
  refine unclosed_cons fun ⟨_, hs⟩ => ?_
  exact absurd (Option.some.inj (h.symm.trans hs)) (by decide)

theorem head?_closings_succ (n : Nat) (s : List Char) :
    (closings (n + 1) ++ s).head? = some '*' := rfl

/-- With or without closing delimiters in front, a text that begins with an asterisk does so. -/
theorem head?_closings_append (n : Nat) (s : List Char) :
    (closings n ++ '*' :: s).head? = some '*' := by
  cases n <;> rfl

/-- **A closing delimiter is left where closing delimiters stood inside one.** -/
theorem closing_infix_unclosed_iff : closing <:+: unclosed s ↔ JoinsClosing s := by
  constructor
  · rintro ⟨p, q, h⟩
    rw [List.append_assoc] at h
    obtain ⟨u, r, rfl, -, hfront, hr⟩ := exists_of_unclosed_eq_append_cons h.symm
    obtain ⟨n, r, rfl, -, -⟩ := exists_of_unclosed_eq_cons hr
    cases n with
    | zero => exact absurd ⟨rfl, rfl⟩ hfront
    | succ n => exact ⟨n, u, r, by simp⟩
  · rintro ⟨n, u, v, rfl⟩
    have hinside : unclosed ('*' :: (closings (n + 1) ++ '/' :: v)) = '*' :: '/' :: unclosed v := by
      rw [unclosed_asterisk_cons (head?_closings_succ n _), unclosed_closings,
        unclosed_cons (by simp)]
    have hsplit : u ++ '*' :: (closings (n + 1) ++ ['/']) ++ v
        = u ++ '*' :: (closings (n + 1) ++ '/' :: v) := by simp
    rw [hsplit, unclosed_append (by simp), hinside]
    exact ⟨unclosed u, unclosed v, by simp [closing]⟩

/-- **An opening delimiter is left where there was one**, with or without closing delimiters inside,
of which neither end was taken away. -/
theorem opening_infix_unclosed_iff : opening <:+: unclosed s ↔ JoinsOpening s := by
  constructor
  · rintro ⟨p, q, h⟩
    rw [List.append_assoc] at h
    obtain ⟨u, r, rfl, hbehind, -, hr⟩ := exists_of_unclosed_eq_append_cons h.symm
    obtain ⟨m, r, rfl, -, hr⟩ := exists_of_unclosed_eq_cons hr
    obtain ⟨n, v, rfl, hlast, -⟩ := exists_of_unclosed_eq_cons hr
    exact ⟨u, v, m, n, rfl, fun hu => hbehind ⟨hu, rfl⟩, fun hv => hlast ⟨rfl, hv⟩⟩
  · rintro ⟨u, v, m, n, rfl, hu, hv⟩
    have hinside : unclosed ('/' :: (closings m ++ '*' :: (closings n ++ '*' :: v)))
        = '/' :: '*' :: '*' :: unclosed v := by
      rw [unclosed_cons (by simp), unclosed_closings,
        unclosed_asterisk_cons (head?_closings_append n v), unclosed_closings,
        unclosed_cons (by simp [hv])]
    rw [unclosed_append (by simp [hu]), hinside]
    exact ⟨unclosed u, unclosed v, by simp [opening]⟩

/-! ## The text of a comment -/

theorem not_isBlank_of_mem_delimiters {delimiter : List Char}
    (h : delimiter = opening ∨ delimiter = closing) :
    delimiter ≠ [] ∧ ∀ c ∈ delimiter, ¬ isBlank c = true := by
  have hslash : isBlank '/' = false := rfl
  have hasterisk : isBlank '*' = false := rfl
  rcases h with rfl | rfl
  · simp [opening, hslash, hasterisk]
  · simp [closing, hslash, hasterisk]

/-- **When a closing delimiter is left in the text of a comment.** -/
theorem closing_infix_strip_iff (raw : List Char) :
    closing <:+: strip raw ↔ JoinsClosing (unopened raw) := by
  obtain ⟨hne, hblank⟩ := not_isBlank_of_mem_delimiters (.inr rfl)
  rw [strip_eq, infix_trim_iff hne hblank, closing_infix_unclosed_iff]

/-- **When an opening delimiter is left in the text of a comment.** -/
theorem opening_infix_strip_iff (raw : List Char) :
    opening <:+: strip raw ↔ JoinsOpening (unopened raw) := by
  obtain ⟨hne, hblank⟩ := not_isBlank_of_mem_delimiters (.inl rfl)
  rw [strip_eq, infix_trim_iff hne hblank, opening_infix_unclosed_iff]

/-- **Stripping again makes a difference exactly when a delimiter is left.** -/
theorem strip_strip_eq_iff (raw : List Char) :
    strip (strip raw) = strip raw ↔ ¬ opening <:+: strip raw ∧ ¬ closing <:+: strip raw := by
  constructor
  · intro h
    have hlength := congrArg List.length h
    generalize strip raw = s at hlength
    rw [strip_eq] at hlength
    have htrim := length_trim_le (unclosed (unopened s))
    have hunclosed : (unclosed (unopened s)).length ≤ (unopened s).length :=
      length_replaceAll_nil_le unbordered_closing.ne_nil (unopened s)
    -- no step may have made the text shorter
    have hopening : ¬ opening <:+: s := by
      intro hinfix
      have hlt : (unopened s).length < s.length :=
        (infix_iff_length_replaceAll_lt (List.cons_ne_nil _ _) s).mp hinfix
      omega
    refine ⟨hopening, fun hinfix => ?_⟩
    rw [unopened, replaceAll_eq_self hopening] at hlength htrim hunclosed
    have hlt : (unclosed s).length < s.length :=
      (infix_iff_length_replaceAll_lt unbordered_closing.ne_nil s).mp hinfix
    omega
  · rintro ⟨hopening, hclosing⟩
    rw [strip_eq (strip raw), unopened, replaceAll_eq_self hopening, unclosed,
      replaceAll_eq_self hclosing, strip_eq, trim_trim]

theorem toList_text (raw : String) : (text raw).toList = strip raw.toList :=
  String.toList_ofList

/-- **When the text of a comment has a delimiter in it.** A closing delimiter is there exactly when,
in the comment without its opening delimiters, closing delimiters stand inside one. An opening
delimiter is there exactly when there is one in the comment without its opening delimiters, with or
without closing ones inside, of which neither end belongs to a closing delimiter. The text is free of
delimiters exactly when taking it for a comment again changes nothing. -/
theorem delimiters_left_iff (raw : String) :
    ("*/".toList <:+: (text raw).toList ↔ JoinsClosing (unopened raw.toList)) ∧
    ("/**".toList <:+: (text raw).toList ↔ JoinsOpening (unopened raw.toList)) ∧
    (text (text raw) = text raw ↔
      ¬ "/**".toList <:+: (text raw).toList ∧ ¬ "*/".toList <:+: (text raw).toList) := by
  rw [← String.toList_inj, toList_text, toList_text, toList_text]
  exact ⟨closing_infix_strip_iff raw.toList, opening_infix_strip_iff raw.toList,
    strip_strip_eq_iff raw.toList⟩

/-- Delimiters inside delimiters are left behind. The forwarding method of such a comment has its own
comment closed in the middle of the text. -/
theorem delimiters_left_in_method :
    let method : MethodDecl := { name := "seeText", doc := some "/** See **// text. */" }
    let table := TypeTable.ofList [{ name := "T", methods := [method] }]
    "*/".toList <:+: (text "/** See **// text. */").toList ∧
    "/**".toList <:+: (text "//****").toList ∧
    ∃ d, Descriptor.resolve table.introspector "T" "seeText" = some d ∧ d.doc = "See */ text." ∧
      "See */ text.\n     * @see \\".toList <:+:
        (Forwarder.text d ⟨.assertion, "seeText"⟩).toList := by
  intro method table
  have hshown : Forwarder.docText "See */ text." .assertion ++ "\n     * @see \\"
      = "See */ text.\n     * @see \\" := by decide +kernel
  refine ⟨by decide +kernel, by decide +kernel, ⟨"T", "seeText", [], "See */ text."⟩, ?_, rfl, ?_⟩
  · decide +kernel
  · rw [← hshown]
    exact Forwarder.docText_infix_text ⟨"T", "seeText", [], "See */ text."⟩ ⟨.assertion, "seeText"⟩

end DocComment

end TestActor
