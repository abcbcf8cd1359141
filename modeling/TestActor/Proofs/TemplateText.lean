import Mathlib.Data.List.Chain
import TestActor.Proofs.DocumentSettings

/-!
# The text of templates

A template is read from a file, where a placeholder stands as a key between double braces and all
else is fixed. What filling in gives is said here about the text of the file, in one pass from its
front. A character that opens no syntax stays as it is, and a placeholder becomes its value. The
pass goes on behind the placeholder, so it never looks at a value, whatever stands in it.

The pieces of a template can be told apart in the text. No fixed text opens syntax, neither in
itself nor together with what follows, and no placeholder begins within another one.

## Main definitions

* `Template.files`: the two templates with the files that they are read from.
* `Template.Fills`: a text is filled in with values, in one pass.
* `Template.FirstMissing`: the first placeholder of a text that has no value.

## Main statements

* `Template.written_eq_append_mark_iff`: the placeholders of a text are those of the pieces.
* `Template.fill_eq_ok_iff`, `Template.fill_eq_error_iff`: filling in, by the text.
* `Template.renders_in_one_pass`: the files, the forwarding methods and the documents filled in.
-/

namespace TestActor

/-- A part stands in the text that all parts make together. -/
theorem Text.infix_intercalate {mark part : String} {parts : List String} (h : part ∈ parts) :
    part.toList <:+: (mark.intercalate parts).toList := by
  induction parts with
  | nil => simp at h
  | cons first rest ih =>
    by_cases hrest : rest = []
    · subst hrest
      obtain rfl := List.mem_singleton.mp h
      simp
    · rw [String.intercalate_cons_of_ne_nil hrest, String.toList_append, String.toList_append]
      rcases List.mem_cons.mp h with rfl | h
      · exact ((List.prefix_append _ _).trans (List.prefix_append _ _)).isInfix
      · exact (ih h).trans (List.suffix_append _ _).isInfix

namespace Template

variable {values : Values} {key other : String} {fixed s before after out : List Char}
  {pieces : List Piece} {line : Nat}

/-! ## Syntax -/

/-- The two characters open a value, a statement or a comment. -/
def Opens (c d : Char) : Prop :=
  c = '\x7b' ∧ d ∈ ['\x7b', '%', '#']

instance (c d : Char) : Decidable (Opens c d) :=
  inferInstanceAs (Decidable (_ ∧ _))

/-- Keys have letters, digits and underscores. -/
structure IsKey (key : String) : Prop where
  ne_empty : key ≠ ""
  chars : ∀ c ∈ key.toList, c.isAlphanum ∨ c = '_'

instance (key : String) : Decidable (IsKey key) :=
  decidable_of_iff (key ≠ "" ∧ key.toList.all fun c => c.isAlphanum || c == '_')
    ⟨fun h => ⟨h.1, by simpa using h.2⟩, fun h => ⟨h.ne_empty, by simpa using h.chars⟩⟩

/-- A piece, as it is written in a file. -/
def writtenPiece : Piece → String
  | .text fixed => fixed
  | .slot key => "\x7b\x7b " ++ key ++ " \x7d\x7d"

/-- The placeholder of a key. -/
def mark (key : String) : List Char :=
  (writtenPiece (.slot key)).toList

/-- The text has the placeholder of the key in it. -/
def IsPlaceholder (s : List Char) (key : String) : Prop :=
  IsKey key ∧ mark key <:+: s

/-- A text is filled in from its front: what opens no syntax stays, and a placeholder becomes the
value of its key. -/
inductive Fills (values : Values) : List Char → List Char → Prop
  | done : Fills values [] []
  | fixed {c : Char} {s out : List Char} (hopen : ∀ d ∈ s.head?, ¬ Opens c d)
      (h : Fills values s out) : Fills values (c :: s) (c :: out)
  | placeholder {key value : String} {s out : List Char} (hkey : IsKey key)
      (hvalue : values.lookup key = some value) (h : Fills values s out) :
      Fills values (mark key ++ s) (value.toList ++ out)

/-- The key has no value, and all placeholders before one of its placeholders have values. -/
structure FirstMissing (values : Values) (s before : List Char) (key : String) : Prop where
  isKey : IsKey key
  placed : before ++ mark key <+: s
  missing : values.lookup key = none
  earlier : ∀ other, IsPlaceholder before other → (values.lookup other).isSome

/-- The two templates, each with the file that it is read from. -/
def files : List (Template × String) := [
  (method,
    "\n    /**\n     * [!] Method is generated. Documentation taken from corresponding module.\n" ++
    "     *\n     \x7b\x7b doc \x7d\x7d\n" ++
    "     * @see \\\x7b\x7b module \x7d\x7d::\x7b\x7b method \x7d\x7d()\n     */\n" ++
    "    public function \x7b\x7b action \x7d\x7d(\x7b\x7b params \x7d\x7d) \x7b\n" ++
    "        return $this->getScenario()->runStep(" ++
    "new \\Codeception\\Step\\\x7b\x7b step \x7d\x7d('\x7b\x7b method \x7d\x7d', " ++
    "func_get_args()));\n    \x7d\n"),
  (actions,
    "<?php  //[STAMP] \x7b\x7b hash \x7d\x7d\n" ++
    "namespace \x7b\x7b namespace_prefix \x7d\x7d_generated;\n\n" ++
    "// This file is generated by `actiongen build` from the configured modules.\n" ++
    "// Do not edit it by hand: it is overwritten on the next build.\n" ++
    "// @codingStandardsIgnoreFile\n\n\x7b\x7b imports \x7d\x7d\n\n" ++
    "trait \x7b\x7b name \x7d\x7dActions\n\x7b\n" ++
    "    /**\n     * @return \\Codeception\\Scenario\n     */\n" ++
    "    abstract protected function getScenario();\n\n   \x7b\x7b methods \x7d\x7d\n\x7d\n")]

/-- The text that a file gives: one line break at its end does not count. -/
def textOf (file : String) : List Char :=
  if file.toList.getLast? = some '\n' then file.toList.dropLast else file.toList

/-! ## Placeholders -/

theorem IsKey.not_mem {c : Char} (hkey : IsKey key) (hc : ¬ (c.isAlphanum ∨ c = '_')) :
    c ∉ key.toList :=
  fun hmem => hc (hkey.chars c hmem)

theorem IsKey.blank_not_mem (hkey : IsKey key) : ' ' ∉ key.toList :=
  hkey.not_mem (by decide)

theorem mark_append (key : String) (s : List Char) :
    mark key ++ s
      = '\x7b' :: '\x7b' :: ' ' :: (key.toList ++ ' ' :: '\x7d' :: '\x7d' :: s) := by
  simp [mark, writtenPiece]

/-- What follows a placeholder at the front of a text is known. -/
theorem mark_append_inj (hkey : IsKey key) (hother : IsKey other)
    (h : mark key ++ s = mark other ++ after) : key = other ∧ s = after := by
  rw [mark_append, mark_append] at h
  obtain ⟨hkeys, hrest⟩ := Text.append_cons_inj_of_first hkey.blank_not_mem
    hother.blank_not_mem (by simpa using h)
  exact ⟨String.toList_inj.mp hkeys, by simpa using hrest⟩

/-- **No placeholder begins within another one.** -/
theorem prefix_of_mark_append (hkey : IsKey key)
    (h : mark key ++ s = before ++ (mark other ++ after)) (hne : before ≠ []) :
    mark key <+: before := by
  rcases List.append_eq_append_iff.mp h with ⟨m, rfl, -⟩ | ⟨m, hmark, hrest⟩
  · exact List.prefix_append _ _
  · cases m with
    | nil => exact ⟨[], hmark.symm ▸ (by simp)⟩
    | cons d m =>
      -- the other placeholder would have its first brace inside this one
      rw [mark_append, List.cons_append, List.cons.injEq] at hrest
      obtain ⟨rfl, hrest⟩ := hrest
      rw [← List.append_nil (mark key), mark_append] at hmark
      match before, hne with
      | [_], _ =>
        obtain ⟨-, hmark⟩ := List.cons.inj hmark
        obtain ⟨-, rfl⟩ := List.cons.inj hmark
        simp at hrest
      | _ :: _ :: before, _ =>
        obtain ⟨-, hmark⟩ := List.cons.inj hmark
        obtain ⟨-, hmark⟩ := List.cons.inj hmark
        have hbrace : '\x7b' ∈ ' ' :: (key.toList ++ [' ', '\x7d', '\x7d']) := by
          rw [hmark]
          exact List.mem_append_right before List.mem_cons_self
        have hnot : '\x7b' ∉ key.toList := hkey.not_mem (by decide)
        simp [hnot] at hbrace

/-! ## Fixed texts -/

/-- Nothing in the text opens syntax, and its end opens none with what follows. -/
def IsPlain (s : List Char) : Prop :=
  (s ++ ['\x7b']).IsChain fun c d => ¬ Opens c d

instance (s : List Char) : Decidable (IsPlain s) :=
  inferInstanceAs (Decidable (List.IsChain _ _))

theorem IsPlain.not_opens {c : Char} (h : IsPlain (before ++ c :: s)) (after : List Char) :
    ∀ d ∈ (s ++ after).head?, ¬ Opens c d := by
  rw [IsPlain, List.append_assoc] at h
  cases s with
  | nil =>
    have hc : ¬ Opens c '\x7b' := (List.isChain_append_cons_cons.mp h).2.1
    exact fun d _ hd => hc ⟨hd.1, by decide⟩
  | cons e s =>
    have hc : ¬ Opens c e := (List.isChain_append_cons_cons.mp h).2.1
    intro d hd
    obtain rfl : e = d := by simpa using hd
    exact hc

/-- No placeholder begins in a plain text. -/
theorem IsPlain.prefix_of_append (h : IsPlain fixed)
    (heq : fixed ++ s = before ++ (mark key ++ after)) : fixed <+: before := by
  rcases List.append_eq_append_iff.mp heq with ⟨m, rfl, -⟩ | ⟨m, rfl, hrest⟩
  · exact List.prefix_append _ _
  · cases m with
    | nil => exact (List.append_nil before).symm ▸ List.prefix_rfl
    | cons d m =>
      rw [mark_append, List.cons_append, List.cons.injEq] at hrest
      obtain ⟨rfl, hrest⟩ := hrest
      refine absurd ⟨rfl, by decide⟩ (h.not_opens s '\x7b' ?_)
      rw [← hrest]
      rfl

/-! ## Pieces and their text -/

/-- The piece can be told from what stands around it. -/
def Readable : Piece → Prop
  | .text fixed => IsPlain fixed.toList
  | .slot key => IsKey key

/-- The text that the pieces are read from. -/
def written (pieces : List Piece) : List Char :=
  pieces.flatMap fun piece => (writtenPiece piece).toList

theorem written_cons (piece : Piece) (rest : List Piece) :
    written (piece :: rest) = (writtenPiece piece).toList ++ written rest :=
  List.flatMap_cons

theorem written_append (first second : List Piece) :
    written (first ++ second) = written first ++ written second :=
  List.flatMap_append

/-- **The pieces are the only way to find a placeholder in their text.** -/
theorem written_eq_append_mark_iff (hpieces : ∀ piece ∈ pieces, Readable piece) (hkey : IsKey key) :
    written pieces = before ++ (mark key ++ after) ↔
      ∃ first rest, pieces = first ++ .slot key :: rest ∧ written first = before ∧
        written rest = after := by
  constructor
  · intro h
    induction pieces generalizing before with
    | nil => simp [written, mark_append] at h
    | cons piece rest ih =>
      obtain ⟨hpiece, hrest⟩ := List.forall_mem_cons.mp hpieces
      -- a piece that lies in front of the placeholder leaves the rest of `before` to the others
      have behind (hstart : (writtenPiece piece).toList <+: before) :
          ∃ first others, piece :: rest = first ++ .slot key :: others ∧ written first = before ∧
            written others = after := by
        obtain ⟨b, rfl⟩ := hstart
        rw [List.append_assoc] at h
        obtain ⟨first, others, rfl, rfl, hafter⟩ := ih hrest (List.append_cancel_left h)
        exact ⟨piece :: first, others, rfl, rfl, hafter⟩
      cases piece with
      | text fixed => exact behind (IsPlain.prefix_of_append hpiece h)
      | slot other =>
        by_cases hne : before = []
        · subst hne
          obtain ⟨rfl, hafter⟩ := mark_append_inj hpiece hkey h
          exact ⟨[], rest, rfl, rfl, hafter⟩
        · exact behind (prefix_of_mark_append hpiece h hne)
  · rintro ⟨first, rest, rfl, rfl, rfl⟩
    exact written_append first (.slot key :: rest)

theorem isPlaceholder_written_iff (hpieces : ∀ piece ∈ pieces, Readable piece) :
    IsPlaceholder (written pieces) key ↔ .slot key ∈ pieces := by
  constructor
  · rintro ⟨hkey, before, after, h⟩
    rw [List.append_assoc] at h
    obtain ⟨first, rest, rfl, -, -⟩ := (written_eq_append_mark_iff hpieces hkey).mp h.symm
    exact List.mem_append_right first List.mem_cons_self
  · intro hmem
    have hkey : IsKey key := hpieces _ hmem
    obtain ⟨first, rest, rfl⟩ := List.append_of_mem hmem
    refine ⟨hkey, written first, written rest, ?_⟩
    rw [List.append_assoc]
    exact ((written_eq_append_mark_iff hpieces hkey).mpr ⟨first, rest, rfl, rfl, rfl⟩).symm

/-! ## One pass -/

theorem fills_nil_iff : Fills values [] out ↔ out = [] := by
  constructor
  · intro h
    -- the case of a placeholder has an append for its text, which does not unify with `[]`
    generalize hs : ([] : List Char) = s at h
    cases h with
    | done => rfl
    | fixed => cases hs
    | placeholder => simp [mark_append] at hs
  · rintro rfl
    exact .done

theorem fills_cons_iff {c : Char} (hopen : ∀ d ∈ s.head?, ¬ Opens c d) :
    Fills values (c :: s) out ↔ ∃ rest, out = c :: rest ∧ Fills values s rest := by
  constructor
  · intro h
    generalize ht : c :: s = t at h
    cases h with
    | done => cases ht
    | fixed _ h =>
      obtain ⟨rfl, rfl⟩ := List.cons.inj ht
      exact ⟨_, rfl, h⟩
    | placeholder =>
      rw [mark_append, List.cons.injEq] at ht
      obtain ⟨rfl, rfl⟩ := ht
      exact absurd ⟨rfl, by decide⟩ (hopen '\x7b' rfl)
  · rintro ⟨rest, rfl, h⟩
    exact .fixed hopen h

theorem fills_plain_iff (hfixed : IsPlain fixed) :
    Fills values (fixed ++ s) out ↔ ∃ rest, out = fixed ++ rest ∧ Fills values s rest := by
  induction fixed generalizing out with
  | nil => simp
  | cons c fixed ih =>
    have hfront : IsPlain ([] ++ c :: fixed) := hfixed
    have hopen : ∀ d ∈ (fixed ++ s).head?, ¬ Opens c d := hfront.not_opens s
    have hrest : IsPlain fixed := List.IsChain.tail hfixed
    rw [List.cons_append, fills_cons_iff hopen]
    constructor
    · rintro ⟨front, rfl, hfront⟩
      obtain ⟨rest, rfl, h⟩ := (ih hrest).mp hfront
      exact ⟨rest, rfl, h⟩
    · rintro ⟨rest, rfl, h⟩
      exact ⟨fixed ++ rest, rfl, (ih hrest).mpr ⟨rest, rfl, h⟩⟩

theorem fills_mark_iff (hkey : IsKey key) :
    Fills values (mark key ++ s) out ↔
      ∃ value rest, values.lookup key = some value ∧ out = value.toList ++ rest ∧
        Fills values s rest := by
  constructor
  · intro h
    generalize ht : mark key ++ s = t at h
    cases h with
    | done => simp [mark_append] at ht
    | fixed hopen =>
      rw [mark_append, List.cons.injEq] at ht
      obtain ⟨rfl, rfl⟩ := ht
      exact absurd ⟨rfl, by decide⟩ (hopen '\x7b' rfl)
    | placeholder hother hvalue h =>
      obtain ⟨rfl, rfl⟩ := mark_append_inj hkey hother ht
      exact ⟨_, _, hvalue, rfl, h⟩
  · rintro ⟨value, rest, hvalue, rfl, h⟩
    exact .placeholder hkey hvalue h

/-- A text with something in front, where it is known which text it is. -/
theorem map_append_eq_ok_iff {x : Except Nat String} {front text : String}
    {Result : List Char → Prop} (hx : ∀ t, x = .ok t ↔ Result t.toList) :
    x.map (front ++ ·) = .ok text ↔ ∃ out, text.toList = front.toList ++ out ∧ Result out := by
  show (front ++ ·) <$> x = _ ↔ _
  rw [map_eq_ok_iff]
  constructor
  · rintro ⟨t, ht, rfl⟩
    exact ⟨t.toList, String.toList_append, (hx t).mp ht⟩
  · rintro ⟨out, htext, h⟩
    refine ⟨String.ofList out, (hx _).mpr (by simpa using h), ?_⟩
    rw [← String.toList_inj, String.toList_append, String.toList_ofList, htext]

/-- **Filling in passes through the text once.** -/
theorem fill_eq_ok_iff {text : String} (hpieces : ∀ piece ∈ pieces, Readable piece) :
    fill values line pieces = .ok text ↔ Fills values (written pieces) text.toList := by
  induction pieces generalizing line text with
  | nil =>
    rw [written, List.flatMap_nil, fills_nil_iff, String.toList_eq_nil_iff]
    exact ⟨fun h => (Except.ok.inj h).symm, fun h => by rw [h]; rfl⟩
  | cons piece rest ih =>
    obtain ⟨hpiece, hrest⟩ := List.forall_mem_cons.mp hpieces
    rw [written_cons]
    cases piece with
    | text fixed =>
      exact (map_append_eq_ok_iff fun t => ih hrest).trans (fills_plain_iff hpiece).symm
    | slot key =>
      refine Iff.trans ?_ (fills_mark_iff hpiece).symm
      rw [fill]
      cases values.lookup key with
      | none => simp
      | some value => simpa using map_append_eq_ok_iff fun t => ih hrest

/-! ## The first placeholder without a value -/

theorem IsKey.count_mark (hkey : IsKey key) : (mark key).count '\n' = 0 := by
  have hnot : '\n' ∉ key.toList := hkey.not_mem (by decide)
  simp [mark, writtenPiece, List.count_append, List.count_eq_zero.mpr hnot]

/-- **Filling in fails at the first placeholder without a value.** -/
theorem fill_first_missing {first rest : List Piece}
    (hpieces : ∀ piece ∈ first ++ .slot key :: rest, Readable piece)
    (hfirst : ∀ other, .slot other ∈ first → (values.lookup other).isSome)
    (hkey : values.lookup key = none) :
    fill values line (first ++ .slot key :: rest)
      = .error (line + (written first).count '\n') := by
  induction first generalizing line with
  | nil =>
    rw [List.nil_append, fill, hkey]
    rfl
  | cons piece first ih =>
    obtain ⟨hpiece, hpieces⟩ := List.forall_mem_cons.mp hpieces
    have hrest (n : Nat) : fill values n (first ++ .slot key :: rest)
        = .error (n + (written first).count '\n') :=
      ih hpieces fun other h => hfirst other (List.mem_cons_of_mem piece h)
    rw [List.cons_append, written_cons, List.count_append, ← Nat.add_assoc]
    cases piece with
    | text fixed =>
      rw [fill, hrest]
      rfl
    | slot other =>
      obtain ⟨value, hvalue⟩ := Option.isSome_iff_exists.mp (hfirst other List.mem_cons_self)
      rw [fill, hvalue]
      show (fill values line _).map _ = .error (line + (mark other).count '\n' + _)
      rw [hrest, IsKey.count_mark hpiece]
      rfl

/-- Either all placeholders have values, or there is a first one that has none. -/
theorem forall_isSome_or_first_missing (values : Values) (pieces : List Piece) :
    (∀ key, .slot key ∈ pieces → (values.lookup key).isSome) ∨
      ∃ first key rest, pieces = first ++ .slot key :: rest ∧ values.lookup key = none ∧
        ∀ other, .slot other ∈ first → (values.lookup other).isSome := by
  let lacks : Piece → Bool
    | .text _ => false
    | .slot key => (values.lookup key).isNone
  have hslot {key : String} (h : lacks (.slot key) = false) : (values.lookup key).isSome := by
    simpa [lacks, Option.isSome_iff_ne_none] using h
  cases hfind : pieces.find? lacks with
  | none => exact .inl fun key hkey => hslot (by simpa using List.find?_eq_none.mp hfind _ hkey)
  | some piece =>
    obtain ⟨hlacks, first, rest, rfl, hfirst⟩ := List.find?_eq_some_iff_append.mp hfind
    cases piece with
    | text fixed => cases hlacks
    | slot key =>
      exact .inr ⟨first, key, rest, rfl, by simpa [lacks] using hlacks, fun other hother =>
        hslot (by simpa using hfirst _ hother)⟩

/-- **Filling in succeeds exactly when all placeholders have values.** -/
theorem exists_fill_iff (hpieces : ∀ piece ∈ pieces, Readable piece) :
    (∃ text, fill values line pieces = .ok text) ↔
      ∀ key, .slot key ∈ pieces → (values.lookup key).isSome := by
  refine ⟨fun ⟨text, htext⟩ => ?_, fun h => ⟨_, fill_eq_ok h line⟩⟩
  rcases forall_isSome_or_first_missing values pieces with h | ⟨first, key, rest, rfl, hkey, hfirst⟩
  · exact h
  · rw [fill_first_missing hpieces hfirst hkey] at htext
    cases htext

theorem firstMissing_written_iff (hpieces : ∀ piece ∈ pieces, Readable piece) :
    FirstMissing values (written pieces) before key ↔
      ∃ first rest, pieces = first ++ .slot key :: rest ∧ written first = before ∧
        values.lookup key = none ∧ ∀ other, .slot other ∈ first → (values.lookup other).isSome := by
  have hfirst {first rest : List Piece} (hsplit : pieces = first ++ rest) :
      ∀ piece ∈ first, Readable piece :=
    fun piece h => hpieces piece (hsplit ▸ List.mem_append_left rest h)
  constructor
  · rintro ⟨hkey, ⟨after, hplaced⟩, hmissing, hearlier⟩
    rw [List.append_assoc] at hplaced
    obtain ⟨first, rest, hsplit, rfl, -⟩ :=
      (written_eq_append_mark_iff hpieces hkey).mp hplaced.symm
    exact ⟨first, rest, hsplit, rfl, hmissing, fun other hother =>
      hearlier other ((isPlaceholder_written_iff (hfirst hsplit)).mpr hother)⟩
  · rintro ⟨first, rest, hsplit, rfl, hmissing, hearlier⟩
    have hkey : IsKey key := hpieces (.slot key) (hsplit ▸ by simp)
    refine ⟨hkey, ⟨written rest, ?_⟩, hmissing, fun other hother =>
      hearlier other ((isPlaceholder_written_iff (hfirst hsplit)).mp hother)⟩
    rw [List.append_assoc]
    exact ((written_eq_append_mark_iff hpieces hkey).mpr ⟨first, rest, hsplit, rfl, rfl⟩).symm

/-- **Filling in fails with the line of the first placeholder without a value.** -/
theorem fill_eq_error_iff {n : Nat} (hpieces : ∀ piece ∈ pieces, Readable piece) :
    fill values line pieces = .error n ↔
      ∃ before key, FirstMissing values (written pieces) before key ∧
        n = line + before.count '\n' := by
  simp only [firstMissing_written_iff hpieces]
  constructor
  · intro h
    rcases forall_isSome_or_first_missing values pieces with
      hall | ⟨first, key, rest, rfl, hkey, hfirst⟩
    · rw [fill_eq_ok hall] at h
      cases h
    · refine ⟨_, key, ⟨first, rest, rfl, rfl, hkey, hfirst⟩, ?_⟩
      rw [fill_first_missing hpieces hfirst hkey] at h
      exact (Except.error.inj h).symm
  · rintro ⟨before, key, ⟨first, rest, rfl, rfl, hkey, hfirst⟩, rfl⟩
    exact fill_first_missing hpieces hfirst hkey

/-- Only the values of placeholders count. -/
theorem fill_congr {others : Values}
    (h : ∀ key, .slot key ∈ pieces → values.lookup key = others.lookup key) :
    fill values line pieces = fill others line pieces := by
  induction pieces generalizing line with
  | nil => rfl
  | cons piece rest ih =>
    have hrest (n : Nat) : fill values n rest = fill others n rest :=
      ih fun key hkey => h key (List.mem_cons_of_mem piece hkey)
    cases piece with
    | text fixed => rw [fill, fill, hrest]
    | slot key => rw [fill, fill, h key List.mem_cons_self, hrest]

/-! ## The two templates -/

theorem textOf_append_break (s : String) : textOf (s ++ "\n") = s.toList := by
  have hbreak : (s ++ "\n").toList = s.toList ++ ['\n'] := String.toList_append
  rw [textOf, hbreak, if_pos List.getLast?_concat, List.dropLast_concat]

theorem readable_text {s : List Char} (h : IsPlain s) : Readable (.text (String.ofList s)) := by
  rw [Readable, String.toList_ofList]
  exact h

theorem readable_slot (h : IsKey key) : Readable (.slot key) := h

/-- The pieces of the two templates can be told apart. -/
theorem readable_of_mem_files {template : Template} {file : String}
    (h : (template, file) ∈ files) : ∀ piece ∈ template.pieces, Readable piece := by
  have hall : ∀ p ∈ files, ∀ piece ∈ p.1.pieces, Readable piece := by
    simp only [files, method, actions, List.forall_mem_cons, List.not_mem_nil, false_implies,
      implies_true, and_true]
    and_intros <;>
      first
      | exact readable_text (by decide +kernel)
      | exact readable_slot (by decide +kernel)
  exact hall _ h

/-- The two templates are what their files give. -/
theorem textOf_of_mem_files {template : Template} {file : String}
    (h : (template, file) ∈ files) : textOf file = written template.pieces := by
  have hall : ∀ p ∈ files, p.2 = String.join (p.1.pieces.map writtenPiece) ++ "\n" := by
    decide +kernel
  have hfile : file = String.join (template.pieces.map writtenPiece) ++ "\n" := hall _ h
  rw [hfile, textOf_append_break, String.toList_join, List.flatMap_map]
  rfl

theorem ofName?_of_mem_files {template : Template} {file : String}
    (h : (template, file) ∈ files) : ofName? template.name = some template := by
  have hall : ∀ p ∈ files, ofName? p.1.name = some p.1 :=
    List.forall_mem_cons.mpr ⟨rfl, List.forall_mem_cons.mpr ⟨rfl, by simp⟩⟩
  exact hall _ h

/-! ## Documentation -/

/-- Nothing of a documentation is left out. -/
theorem doc_prefix_docText (doc : String) (kind : StepKind) :
    doc.toList <+: (Forwarder.docText doc kind).toList := by
  have hshown : doc.toList <+: (if doc.isEmpty then Forwarder.emptyDoc else doc).toList := by
    split
    · next hempty =>
      rw [String.isEmpty_iff.mp hempty]
      exact List.nil_prefix
    · exact List.prefix_rfl
  by_cases hkind : kind = .conditionalAssertion
  · simp only [Forwarder.docText, if_pos hkind, String.toList_append]
    exact hshown.trans (List.prefix_append _ _)
  · simp only [Forwarder.docText, if_neg hkind]
    exact hshown

/-- A forwarding method stands in the source as it is. -/
theorem method_infix_source (g : Generator) {methods : List String} {text : String}
    (h : text ∈ methods) : text.toList <:+: (g.documentOf methods).source.toList := by
  have hvalue : substituted (g.documentValues methods) [.slot "methods"]
      = "\n\n ".intercalate methods := by
    rw [substituted, substituted, String.append_empty]
    rfl
  have hmethods : ("\n\n ".intercalate methods).toList
      <:+: (g.documentOf methods).source.toList := by
    rw [← hvalue]
    exact substituted_infix ⟨actions.pieces.take 13, actions.pieces.drop 14, rfl⟩
  exact (Text.infix_intercalate h).trans hmethods

/-- **Templates are filled in in one pass over the text of their files.** This succeeds exactly when
every placeholder of the text has a value, and fails with the line of the first one that has none.
Only the values of placeholders count. The forwarding methods of a document are filled in first, and
the document with them then, and a documentation stands in both as it is. -/
theorem renders_in_one_pass {template : Template} {file : String} (h : (template, file) ∈ files)
    (values : Values) :
    ((∃ text, renderNamed template.name values = .ok text) ↔
      ∀ key, IsPlaceholder (textOf file) key → (values.lookup key).isSome) ∧
    (∀ text, renderNamed template.name values = .ok text ↔
      Fills values (textOf file) text.toList) ∧
    (∀ e, renderNamed template.name values = .error e ↔
      ∃ before key, FirstMissing values (textOf file) before key ∧
        e = .template template.name (.undefinedValue (1 + before.count '\n'))) ∧
    (∀ others : Values,
      (∀ key, IsPlaceholder (textOf file) key → values.lookup key = others.lookup key) →
      renderNamed template.name values = renderNamed template.name others) ∧
    ∀ settings source types g document,
      Generator.prepare settings source types = .ok g → g.produce = .ok document →
      renderNamed "actions" (g.documentValues document.methods) = .ok document.source ∧
      List.Forall₂ (fun p text => renderNamed "method" (Forwarder.values p.1 p.2) = .ok text ∧
          p.1.doc.toList <+: (Forwarder.docText p.1.doc p.2.kind).toList ∧
          (Forwarder.docText p.1.doc p.2.kind ++ "\n     * @see \\").toList <:+: text.toList ∧
          text.toList <:+: document.source.toList)
        g.plan document.methods := by
  have hpieces := readable_of_mem_files h
  have hrender (values : Values) : renderNamed template.name values
      = (fill values 1 template.pieces).mapError fun line =>
          .template template.name (.undefinedValue line) := by
    rw [renderNamed, ofName?_of_mem_files h]
    rfl
  simp only [hrender, textOf_of_mem_files h, mapError_eq_ok_iff, mapError_eq_error_iff,
    isPlaceholder_written_iff hpieces]
  refine ⟨exists_fill_iff hpieces, fun text => fill_eq_ok_iff hpieces, fun e => ?_,
    fun others hothers => ?_, fun settings source types g document hg hdocument => ?_⟩
  · simp only [fill_eq_error_iff hpieces]
    constructor
    · rintro ⟨-, ⟨before, key, hfirst, rfl⟩, rfl⟩
      exact ⟨before, key, hfirst, rfl⟩
    · rintro ⟨before, key, hfirst, rfl⟩
      exact ⟨_, ⟨before, key, hfirst, rfl⟩, rfl⟩
  · rw [fill_congr hothers]
  · rw [Generator.eq_documentOf_plan (.of_prepare hg) hdocument]
    refine ⟨Generator.render_document g g.planTexts, ?_⟩
    show List.Forall₂ _ g.plan (g.plan.map _)
    rw [List.forall₂_map_right_iff, List.forall₂_same]
    exact fun p hp => ⟨Forwarder.render_eq_ok p.1 p.2, doc_prefix_docText p.1.doc p.2.kind,
      Forwarder.docText_infix_text p.1 p.2, method_infix_source g (List.mem_map_of_mem hp)⟩

/-- A documentation with placeholders of both templates keeps them. Where the module is missing, the
line of its placeholder is told, although the documentation has that placeholder before it. -/
theorem keeps_placeholders_of_doc :
    let doc := "Shows \x7b\x7b name \x7d\x7d and \x7b\x7b module \x7d\x7d \x7b# \x7b%"
    let method : MethodDecl := { name := "click", doc := some ("/** " ++ doc ++ " */") }
    let types := TypeTable.ofList [{ name := "T", methods := [method] }]
    let source : ModuleSource := {
      instantiate := fun name => .ok ⟨name, "T"⟩
      actions := fun _ => ["click"] }
    renderNamed "method" [("doc", doc), ("name", "x")]
      = .error (.template "method" (.undefinedValue 6)) ∧
    ∃ g document, Generator.prepare ⟨"Acceptance", "", ["Web"]⟩ source types.introspector = .ok g ∧
      g.produce = .ok document ∧ doc.toList <:+: document.source.toList := by
  intro doc decl types source
  obtain ⟨file, hfile⟩ : ∃ file, (method, file) ∈ files := ⟨_, List.mem_cons_self⟩
  obtain ⟨-, -, herror, -, hdocuments⟩ :=
    renders_in_one_pass hfile [("doc", doc), ("name", "x")]
  have hmissing : FirstMissing [("doc", doc), ("name", "x")] (textOf file)
      (written (method.pieces.take 4)) "module" := by
    rw [textOf_of_mem_files hfile]
    refine (firstMissing_written_iff (readable_of_mem_files hfile)).mpr
      ⟨method.pieces.take 4, method.pieces.drop 5, rfl, rfl, rfl, fun other hother => ?_⟩
    obtain rfl : other = "doc" := by simpa [method] using hother
    rfl
  refine ⟨(herror _).mpr ⟨_, _, hmissing, rfl⟩, ?_⟩
  obtain ⟨g, hg, hsome, hplan⟩ :
      ∃ g, Generator.prepare ⟨"Acceptance", "", ["Web"]⟩ source types.introspector = .ok g ∧
        (∀ entry ∈ g.actions.entries, (g.descriptor? entry.1 entry.2).isSome) ∧
        g.plan = [(⟨"T", "click", [], doc⟩, ⟨.action, "click"⟩)] :=
    ⟨_, rfl, by decide +kernel, by decide +kernel⟩
  obtain ⟨document, hdocument⟩ := (Generator.exists_produce_iff (.of_prepare hg)).mpr hsome
  obtain ⟨-, hmethods⟩ := hdocuments _ _ _ _ _ hg hdocument
  rw [hplan] at hmethods
  obtain ⟨text, -, ⟨-, hstart, hshown, hsource⟩, -, -⟩ := List.forall₂_cons_left_iff.mp hmethods
  have hbehind : doc.toList <:+: text.toList := by
    refine List.IsInfix.trans ?_ hshown
    rw [String.toList_append]
    exact (hstart.trans (List.prefix_append _ _)).isInfix
  exact ⟨g, document, hg, hdocument, hbehind.trans hsource⟩

end Template

end TestActor
