import TestActor.Proofs.WrittenStrings
import TestActor.Toml.Document

/-!
# Written documents are read back

A document is written as assignments of strings and of arrays of strings, each behind a bare key on
a line of its own. Reading it back goes the way of the grammar: items of an array, a value, an
assignment, and the lines of the document, which make a table when no key comes twice.

## Main definition

* `Writes`: a text that is read as a value up to the end of its line.

## Main statements

* `writes_string`, `writes_strings`: strings and arrays of strings.
* `expressions_assignments`: the lines of a document.
* `ofExpressions_assignments`: the table that they make.
-/

namespace TestActor.Toml

variable {α : Type} {s t u rest : List Char} {c : Char}

/-! ## Blanks and line breaks -/

/-- A character that is no blank and begins no line break and no comment. -/
def isSolid (c : Char) : Bool :=
  !(" \t\n\r#".toList.contains c)

theorem skipSpaces_of_isSolid (h : isSolid c = true) (s : List Char) :
    skipSpaces (c :: s) = c :: s := by
  refine List.dropWhile_cons_of_neg ?_
  simp [isSolid] at h
  simp [isSpace, h]

theorem skipLines_of_isSolid (h : isSolid c = true) (s : List Char) :
    skipLines (c :: s) = c :: s := by
  have hne : ∀ d, isSolid d = false → c ≠ d := by
    rintro d hd rfl
    rw [h] at hd
    cases hd
  unfold skipLines
  split
  · next he => exact absurd (List.cons.inj he).1 (hne ' ' rfl)
  · next he => exact absurd (List.cons.inj he).1 (hne '\t' rfl)
  · next he => exact absurd (List.cons.inj he).1 (hne '\n' rfl)
  · next he => exact absurd (List.cons.inj he).1 (hne '\r' rfl)
  · rfl

theorem skipTrivia_of_isSolid (h : isSolid c = true) (hskip : skipLines s = c :: t) :
    skipTrivia s = c :: t := by
  rw [skipTrivia.eq_def]
  split
  · next r hcomment =>
    cases hskip.symm.trans hcomment
    exact absurd h (by decide)
  · exact hskip

theorem skipTrivia_self (h : isSolid c = true) (s : List Char) : skipTrivia (c :: s) = c :: s :=
  skipTrivia_of_isSolid h (skipLines_of_isSolid h s)

/-! ## Values -/

/-- A string begins with one of its marks. -/
theorem writeString_front (s rest : List Char) :
    ∃ c t, writeString s ++ rest = c :: t ∧ (c = '"' ∨ c = '\'') := by
  rw [writeString_append]
  cases formOf s
  · exact ⟨_, _, rfl, .inl rfl⟩
  · exact ⟨_, _, rfl, .inr rfl⟩
  · exact ⟨_, _, rfl, .inl rfl⟩
  · exact ⟨_, _, rfl, .inr rfl⟩

theorem takes_value_string (depth : Nat) (s : List Char) (hdouble : rest.head? ≠ some '"')
    (hsingle : rest.head? ≠ some '\'') :
    Takes (value depth (writeString s ++ rest)) (.string (String.ofList s)) rest := by
  have hstring := takes_anyString s hdouble hsingle
  obtain ⟨c, t, heq, hc⟩ := writeString_front s rest
  rw [heq] at hstring ⊢
  have hleaf : Takes (leaf (c :: t)) (.string (String.ofList s)) rest := by
    unfold leaf
    dsimp only
    rw [if_pos hc]
    exact hstring.map Value.string
  cases depth with
  | zero => exact hleaf
  | succ depth =>
    -- neither mark opens an array or a table
    rcases hc with rfl | rfl
    · exact hleaf
    · exact hleaf

section Sequence

variable {close : Char} {item : Reader α} {x : α} {xs : List α}

theorem takes_sequence_nil (hskip : skipTrivia s = close :: rest) :
    Takes (sequence close item s) [] rest := by
  rw [sequence.eq_def]
  split
  · next hnil => cases hskip.symm.trans hnil
  · next c r hcons =>
    cases hskip.symm.trans hcons
    rw [if_pos rfl]
    exact ⟨_, rfl⟩

/-- Behind the last item stands the closing character. -/
theorem takes_sequence_last (hskip : skipTrivia s = c :: t) (hclose : c ≠ close)
    (hitem : Takes (item (c :: t)) x u) (hend : skipTrivia u = close :: rest) :
    Takes (sequence close item s) [x] rest := by
  obtain ⟨_, hitem⟩ := hitem
  rw [sequence.eq_def]
  split
  · next hnil => cases hskip.symm.trans hnil
  next hcons =>
  cases hskip.symm.trans hcons
  rw [if_neg hclose, hitem]
  dsimp only
  split
  · next hnil => cases hend.symm.trans hnil
  next hcons =>
  cases hend.symm.trans hcons
  rw [if_pos rfl]
  exact ⟨_, rfl⟩

/-- Behind another item stands a comma. -/
theorem takes_sequence_cons {v : List Char} (hskip : skipTrivia s = c :: t) (hclose : c ≠ close)
    (hitem : Takes (item (c :: t)) x u) (hcomma : skipTrivia u = ',' :: v) (hne : close ≠ ',')
    (hmore : Takes (sequence close item v) xs rest) :
    Takes (sequence close item s) (x :: xs) rest := by
  obtain ⟨_, hitem⟩ := hitem
  obtain ⟨_, hmore⟩ := hmore
  rw [sequence.eq_def]
  split
  · next hnil => cases hskip.symm.trans hnil
  next hcons =>
  cases hskip.symm.trans hcons
  rw [if_neg hclose, hitem]
  dsimp only
  split
  · next hnil => cases hcomma.symm.trans hnil
  next hcons =>
  cases hcomma.symm.trans hcons
  rw [if_neg hne.symm, if_pos rfl, hmore]
  exact ⟨_, rfl⟩

end Sequence

theorem isSolid_of_mark (h : c = '"' ∨ c = '\'') : isSolid c = true := by
  rcases h with rfl | rfl <;> rfl

/-- The strings of an array, each on a line of its own. -/
theorem takes_sequence_lines (depth : Nat) (ss : List String) (rest : List Char) :
    Takes (sequence ']' (value depth) ('\n' :: (ss.flatMap (fun s =>
      "    ".toList ++ writeString s.toList ++ ",\n".toList) ++ ']' :: rest)))
      (ss.map .string) rest := by
  induction ss with
  | nil => exact takes_sequence_nil (skipTrivia_of_isSolid rfl rfl)
  | cons s ss ih =>
    generalize hbehind : '\n' :: (ss.flatMap (fun s =>
      "    ".toList ++ writeString s.toList ++ ",\n".toList) ++ ']' :: rest) = behind at ih
    have htext : '\n' :: ((s :: ss).flatMap (fun s =>
        "    ".toList ++ writeString s.toList ++ ",\n".toList) ++ ']' :: rest)
        = '\n' :: ' ' :: ' ' :: ' ' :: ' ' :: (writeString s.toList ++ ',' :: behind) := by
      rw [← hbehind]
      simp
    have hitem : Takes (value depth (writeString s.toList ++ ',' :: behind))
        (.string (String.ofList s.toList)) (',' :: behind) :=
      takes_value_string depth s.toList (by simp) (by simp)
    obtain ⟨c, t, hfront, hmark⟩ := writeString_front s.toList (',' :: behind)
    have hsolid := isSolid_of_mark hmark
    rw [hfront, String.ofList_toList] at hitem
    rw [htext, hfront]
    refine takes_sequence_cons (skipTrivia_of_isSolid hsolid (skipLines_of_isSolid hsolid t)) ?_
      hitem (skipTrivia_self rfl behind) (by decide) ih
    rintro rfl
    exact absurd hmark (by decide)

theorem takes_value_array {depth : Nat} {items : List Value}
    (h : Takes (sequence ']' (value depth) s) items rest) :
    Takes (value (depth + 1) ('[' :: s)) (.array .value items) rest :=
  h.mapExtend (Value.array .value) (Nat.le_succ _)

/-- **A written array of strings is read back.** -/
theorem takes_value_strings (depth : Nat) (ss : List String) (rest : List Char) :
    Takes (value (depth + 1) (writeStrings ss ++ rest)) (.array .value (ss.map .string)) rest := by
  rcases ss with _ | ⟨s, _ | ⟨s', ss⟩⟩
  · exact takes_value_array (takes_sequence_nil (skipTrivia_self rfl rest))
  · have htext : writeStrings [s] ++ rest = '[' :: (writeString s.toList ++ ']' :: rest) := by
      simp [writeStrings]
    have hitem : Takes (value depth (writeString s.toList ++ ']' :: rest))
        (.string (String.ofList s.toList)) (']' :: rest) :=
      takes_value_string depth s.toList (by simp) (by simp)
    obtain ⟨c, t, hfront, hmark⟩ := writeString_front s.toList (']' :: rest)
    rw [hfront, String.ofList_toList] at hitem
    rw [htext, hfront]
    refine takes_value_array (takes_sequence_last (skipTrivia_self (isSolid_of_mark hmark) t) ?_
      hitem (skipTrivia_self rfl rest))
    rintro rfl
    exact absurd hmark (by decide)
  · have htext : writeStrings (s :: s' :: ss) ++ rest
        = '[' :: '\n' :: ((s :: s' :: ss).flatMap (fun s => "    ".toList ++ writeString s.toList
          ++ ",\n".toList) ++ ']' :: rest) := by simp [writeStrings]
    rw [htext]
    exact takes_value_array (takes_sequence_lines depth (s :: s' :: ss) rest)

/-! ## Lines -/

/-- A text that is read as a value up to the end of its line. -/
structure Writes (text : List Char) (x : Value) : Prop where
  skip : ∀ rest, skipSpaces (text ++ rest) = text ++ rest
  takes : ∀ rest, Takes (value maxDepth (text ++ '\n' :: rest)) x ('\n' :: rest)

theorem writes_string (s : String) : Writes (writeString s.toList) (.string s) where
  skip rest := by
    obtain ⟨c, t, hfront, hmark⟩ := writeString_front s.toList rest
    rw [hfront]
    exact skipSpaces_of_isSolid (isSolid_of_mark hmark) t
  takes rest := by
    have hvalue : Takes (value maxDepth (writeString s.toList ++ '\n' :: rest))
        (.string (String.ofList s.toList)) ('\n' :: rest) :=
      takes_value_string maxDepth s.toList (by simp) (by simp)
    rw [String.ofList_toList] at hvalue
    exact hvalue

theorem writes_strings (ss : List String) :
    Writes (writeStrings ss) (.array .value (ss.map .string)) where
  skip rest := by
    rcases ss with _ | ⟨s, _ | ⟨s', ss⟩⟩
    · exact skipSpaces_of_isSolid rfl _
    · exact skipSpaces_of_isSolid rfl _
    · exact skipSpaces_of_isSolid rfl _
  takes rest := takes_value_strings 79 ss _

/-- A key that needs no quotation marks. -/
def IsBareKey (key : String) : Prop :=
  key.toList ≠ [] ∧ key.toList.all isBare = true

theorem isSolid_of_isBare (h : isBare c = true) : isSolid c = true := by
  have hne : ∀ d, isBare d = false → c ≠ d := by
    rintro d hd rfl
    rw [h] at hd
    cases hd
  simp [isSolid, hne ' ' rfl, hne '\t' rfl, hne '\n' rfl, hne '\r' rfl, hne '#' rfl]

theorem takes_key {k : List Char} (hne : k ≠ []) (hbare : k.all isBare = true) (rest : List Char) :
    Takes (key (k ++ ' ' :: '=' :: rest)) ⟨[], String.ofList k⟩ (' ' :: '=' :: rest) := by
  obtain ⟨c, t, rfl⟩ := List.exists_cons_of_ne_nil hne
  obtain ⟨hc, ht⟩ := Bool.and_eq_true_iff.mp hbare
  have ht' : ∀ d ∈ t, isBare d = true := List.all_eq_true.mp ht
  have htake : (t ++ ' ' :: '=' :: rest).takeWhile isBare = t := by
    rw [List.takeWhile_append_of_pos ht', List.takeWhile_cons_of_neg (by decide), List.append_nil]
  have hdrop : (t ++ ' ' :: '=' :: rest).dropWhile isBare = ' ' :: '=' :: rest := by
    rw [List.dropWhile_append_of_pos ht', List.dropWhile_cons_of_neg (by decide)]
  have hpart : Takes (keyPart (c :: t ++ ' ' :: '=' :: rest)) (String.ofList (c :: t))
      (' ' :: '=' :: rest) := by
    rw [List.cons_append, keyPart, if_pos hc]
    simp only [htake, hdrop]
    exact ⟨_, rfl⟩
  obtain ⟨_, hpart⟩ := hpart
  rw [key.eq_def, hpart]
  dsimp only
  split
  · next hpoint => cases hpoint
  · exact ⟨_, rfl⟩

theorem takes_boundedKey {name : String} (hkey : IsBareKey name) (rest : List Char) :
    Takes (boundedKey (name.toList ++ ' ' :: '=' :: rest)) ⟨[], name⟩ (' ' :: '=' :: rest) := by
  obtain ⟨_, hkey⟩ := takes_key hkey.1 hkey.2 rest
  rw [String.ofList_toList] at hkey
  unfold boundedKey
  rw [hkey]
  exact ⟨_, rfl⟩

/-- A line that gives a value to a bare key. -/
theorem takes_assignment {name : String} {text : List Char} {x : Value} (hkey : IsBareKey name)
    (hwrites : Writes text x) (rest : List Char) :
    Takes (assignment .line (value maxDepth) (writeAssignment name text ++ rest))
      ⟨⟨[], name⟩, x⟩ ('\n' :: rest) := by
  have htext : writeAssignment name text ++ rest
      = name.toList ++ ' ' :: '=' :: ' ' :: (text ++ '\n' :: rest) := by
    simp [writeAssignment]
  obtain ⟨_, hkey⟩ := takes_boundedKey hkey (' ' :: (text ++ '\n' :: rest))
  obtain ⟨_, hvalue⟩ : Takes (value maxDepth (Gap.line.skip (' ' :: (text ++ '\n' :: rest)))) x
      ('\n' :: rest) := by
    have hskip : Gap.line.skip (' ' :: (text ++ '\n' :: rest)) = text ++ '\n' :: rest :=
      hwrites.skip _
    rw [hskip]
    exact hwrites.takes rest
  rw [htext]
  unfold assignment
  rw [hkey]
  dsimp only
  split
  · next hnil => cases hnil
  · next hcons =>
    cases hcons
    rw [if_pos rfl, hvalue]
    exact ⟨_, rfl⟩

theorem writeAssignment_front {name : String} (hkey : IsBareKey name) (text rest : List Char) :
    ∃ c t, writeAssignment name text ++ rest = c :: t ∧ isBare c = true := by
  obtain ⟨c, t, hname⟩ := List.exists_cons_of_ne_nil hkey.1
  refine ⟨c, t ++ " = ".toList ++ text ++ ['\n'] ++ rest, ?_, ?_⟩
  · unfold writeAssignment
    rw [hname]
    rfl
  · exact List.all_eq_true.mp hkey.2 c (by rw [hname]; exact List.mem_cons_self)

theorem takes_expression {name : String} {text : List Char} {x : Value} (hkey : IsBareKey name)
    (hwrites : Writes text x) (rest : List Char) :
    Takes (expression (writeAssignment name text ++ rest)) (.assignment ⟨⟨[], name⟩, x⟩)
      ('\n' :: rest) := by
  have hassignment := takes_assignment hkey hwrites rest
  obtain ⟨c, t, hfront, hbare⟩ := writeAssignment_front hkey text rest
  rw [hfront] at hassignment ⊢
  have hbracket : c ≠ '[' := by
    rintro rfl
    cases hbare
  have hline : expression (c :: t)
      = (assignment .line (value maxDepth) (c :: t)).map (·.map .assignment) := by
    rw [expression]
    · exact fun r hc _ => hbracket hc
    · exact fun hc => hbracket hc
  rw [hline]
  exact hassignment.map Expression.assignment

theorem expressions_writeAssignment {name : String} {text : List Char} {x : Value}
    (hkey : IsBareKey name) (hwrites : Writes text x) (rest : List Char) :
    expressions (writeAssignment name text ++ rest)
      = (expressions rest).map (.assignment ⟨⟨[], name⟩, x⟩ :: ·) := by
  have hexpression := takes_expression hkey hwrites rest
  obtain ⟨c, t, hfront, hbare⟩ := writeAssignment_front hkey text rest
  have hskip := skipTrivia_self (isSolid_of_isBare hbare) t
  rw [hfront] at hexpression ⊢
  obtain ⟨_, hexpression⟩ := hexpression
  rw [expressions.eq_def]
  split
  · next hnil => cases hskip.symm.trans hnil
  next hcons =>
  cases hskip.symm.trans hcons
  rw [hexpression]
  dsimp only
  split
  · next hnone => cases hnone
  · next line hsome =>
    obtain rfl : rest = line := Option.some.inj hsome
    rfl

/-! ## Documents -/

/-- **A document of lines with bare keys is read back** line by line. -/
theorem expressions_lines (lines : List (String × List Char × Value))
    (hkeys : ∀ line ∈ lines, IsBareKey line.1)
    (hwrites : ∀ line ∈ lines, Writes line.2.1 line.2.2) :
    expressions (lines.flatMap (fun line => writeAssignment line.1 line.2.1) ++ ['\n'])
      = some (lines.map fun line => .assignment ⟨⟨[], line.1⟩, line.2.2⟩) := by
  induction lines with
  | nil =>
    have hskip : skipTrivia ['\n'] = [] := by
      rw [skipTrivia.eq_def]
      split
      · next hcomment => cases hcomment
      · rfl
    show expressions ['\n'] = some []
    rw [expressions.eq_def]
    split
    · rfl
    · next hcons => cases hskip.symm.trans hcons
  | cons line lines ih =>
    rw [List.flatMap_cons, List.append_assoc, expressions_writeAssignment
      (hkeys line List.mem_cons_self) (hwrites line List.mem_cons_self),
      ih (fun l hl => hkeys l (List.mem_cons_of_mem line hl))
        fun l hl => hwrites l (List.mem_cons_of_mem line hl)]
    rfl

theorem sections_assignments (assignments : List Assignment) :
    sections (assignments.map .assignment) = (assignments, []) := by
  induction assignments with
  | nil => rfl
  | cons a assignments ih =>
    rw [List.map_cons, sections, ih]

theorem lookup_eq_none {entries : Entries} {name : String} (h : name ∉ entries.map (·.1)) :
    entries.lookup name = none := by
  rw [List.lookup_eq_none_iff]
  intro entry hentry
  exact bne_iff_ne.mpr fun he => h (he ▸ List.mem_map_of_mem hentry)

/-- Assignments of keys that are all new add their values in order. -/
theorem assignAll_entries (before entries : Entries)
    (hnodup : ((before ++ entries).map (·.1)).Nodup) :
    assignAll .header before (entries.map fun entry => ⟨⟨[], entry.1⟩, entry.2⟩)
      = some (before ++ entries) := by
  induction entries generalizing before with
  | nil => exact congrArg some (List.append_nil before).symm
  | cons entry entries ih =>
    have hnew : entry.1 ∉ before.map (·.1) := by
      rw [List.map_append, List.nodup_append] at hnodup
      exact fun hmem => hnodup.2.2 _ hmem _ List.mem_cons_self rfl
    have hassign : assign .header before ⟨⟨[], entry.1⟩, entry.2⟩ = some (before ++ [entry]) := by
      show add false entry.1 entry.2 .header before = _
      unfold add
      rw [lookup_eq_none hnew, if_neg (by decide)]
    have hrest : before ++ entry :: entries = before ++ [entry] ++ entries := by simp
    rw [hrest] at hnodup ⊢
    show (assign .header before _ >>= fun added => assignAll .header added _) = _
    rw [hassign]
    exact ih (before ++ [entry]) hnodup

/-- **Assignments of bare keys make the table of their values** when no key comes twice. -/
theorem ofExpressions_assignments (entries : Entries) (hnodup : (entries.map (·.1)).Nodup) :
    ofExpressions (entries.map fun entry => .assignment ⟨⟨[], entry.1⟩, entry.2⟩)
      = some entries := by
  have hsections : sections (entries.map fun entry => .assignment ⟨⟨[], entry.1⟩, entry.2⟩)
      = (entries.map fun entry => ⟨⟨[], entry.1⟩, entry.2⟩, []) := by
    rw [← sections_assignments, List.map_map]
    rfl
  unfold ofExpressions
  rw [hsections]
  dsimp only
  rw [assignAll_entries [] entries hnodup]
  rfl

/-- No byte order mark stands at the front of such a document. -/
theorem withoutMark_lines (lines : List (String × List Char × Value))
    (hkeys : ∀ line ∈ lines, IsBareKey line.1) :
    withoutMark (lines.flatMap (fun line => writeAssignment line.1 line.2.1) ++ ['\n'])
      = lines.flatMap (fun line => writeAssignment line.1 line.2.1) ++ ['\n'] := by
  cases lines with
  | nil => rfl
  | cons line lines =>
    obtain ⟨c, t, hfront, hbare⟩ := writeAssignment_front (hkeys line List.mem_cons_self) line.2.1
      (lines.flatMap (fun line => writeAssignment line.1 line.2.1) ++ ['\n'])
    rw [List.flatMap_cons, List.append_assoc, hfront]
    unfold withoutMark
    split
    · next he =>
      rw [(List.cons.inj he).1] at hbare
      cases hbare
    · rfl

/-- **A document of lines with different bare keys is read as the table of their values.** -/
theorem parse_lines {text : String} {lines : List (String × List Char × Value)}
    (htext : text.toList
      = lines.flatMap (fun line => writeAssignment line.1 line.2.1) ++ ['\n'])
    (hkeys : ∀ line ∈ lines, IsBareKey line.1)
    (hwrites : ∀ line ∈ lines, Writes line.2.1 line.2.2) (hnodup : (lines.map (·.1)).Nodup) :
    parse text = .ok (lines.map fun line => (line.1, line.2.2)) := by
  have hentries : ofExpressions (lines.map fun line => .assignment ⟨⟨[], line.1⟩, line.2.2⟩)
      = some (lines.map fun line => (line.1, line.2.2)) := by
    have htable := ofExpressions_assignments (lines.map fun line => (line.1, line.2.2))
      (by rw [List.map_map]; exact hnodup)
    rw [List.map_map] at htable
    exact htable
  unfold parse
  rw [htext, withoutMark_lines lines hkeys, expressions_lines lines hkeys hwrites]
  dsimp only
  rw [hentries]

end TestActor.Toml
