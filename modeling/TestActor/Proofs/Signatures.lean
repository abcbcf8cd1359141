import TestActor.Parameter
import TestActor.Proofs.FirstError
import TestActor.Proofs.TakenOut

/-!
# Signatures read back

The parameters of a signature are written one after the other, with a comma and a space between
neighbours, and a parameter with a default has a mark behind its name. When there is no space and no
comma in a name, the text can be parted into the parameters again, and each of them can be read: a
signature tells how many parameters there are, in which order, their names and which of them have a
default.

## Main definitions

* `Text.parts`: what stands between the occurrences of a mark.
* `Parameter.pieces`: the pieces of a signature.
* `Parameter.readList?`: reads the parameters of a signature.

## Main statements

* `Text.intercalate_parts`, `Text.parts_intercalate`: parting a text and joining parts.
* `Parameter.read?_eq_some_iff`: one parameter is read exactly from its text.
* `Parameter.readList?_eq_some_iff`: parameters are read exactly from the text of their signature.
* `Parameter.signature_tells`: what a signature tells.
-/

namespace TestActor

namespace Text

variable {mark part r s : List Char} {c : Char}

/-! ## Parts of a text -/

/-- What stands between the occurrences of `mark`, which is not empty. Occurrences are taken from
the left. -/
def parts (mark : List Char) : List Char → List (List Char)
  | [] => [[]]
  | c :: r =>
    if mark.isPrefixOf (c :: r) then [] :: parts mark (r.drop (mark.length - 1))
    else (parts mark r).modifyHead (c :: ·)
termination_by s => s.length
decreasing_by
  · simp only [List.length_drop, List.length_cons]; omega
  · simp

theorem parts_nil : parts mark [] = [[]] := by
  rw [parts]

theorem parts_cons (h : ¬ mark <+: c :: r) :
    parts mark (c :: r) = (parts mark r).modifyHead (c :: ·) := by
  rw [parts, if_neg (by rw [List.isPrefixOf_iff_prefix]; exact h)]

theorem parts_append (hmark : mark ≠ []) (rest : List Char) :
    parts mark (mark ++ rest) = [] :: parts mark rest := by
  cases mark with
  | nil => exact absurd rfl hmark
  | cons c r =>
    have hfront : (c :: r).isPrefixOf (c :: (r ++ rest)) = true :=
      List.isPrefixOf_iff_prefix.mpr ⟨rest, rfl⟩
    rw [List.cons_append, parts, if_pos hfront]
    simp

theorem parts_ne_nil (hmark : mark ≠ []) (s : List Char) : parts mark s ≠ [] := by
  induction s using occurrence_induction hmark with
  | nil => simp [parts_nil]
  | occurrence rest ih => simp [parts_append hmark]
  | other c rest hfront ih => simpa [parts_cons hfront] using ih

theorem intercalate_modifyHead_cons (c : Char) {all : List (List Char)} (hne : all ≠ []) :
    mark.intercalate (all.modifyHead (c :: ·)) = c :: mark.intercalate all := by
  match all with
  | [] => exact absurd rfl hne
  | [only] => simp
  | first :: second :: more => simp [List.intercalate_cons_cons]

/-- **The parts of a text, joined again, are the text.** -/
theorem intercalate_parts (hmark : mark ≠ []) (s : List Char) :
    mark.intercalate (parts mark s) = s := by
  induction s using occurrence_induction hmark with
  | nil => rw [parts_nil, List.intercalate_singleton]
  | occurrence rest ih =>
    rw [parts_append hmark, List.intercalate_cons_of_ne_nil (parts_ne_nil hmark rest), ih,
      List.nil_append]
  | other c rest hfront ih =>
    rw [parts_cons hfront, intercalate_modifyHead_cons c (parts_ne_nil hmark rest), ih]

/-- A text without the mark is its only part. -/
theorem parts_eq_singleton (h : ¬ mark <:+: s) : parts mark s = [s] := by
  induction s with
  | nil => exact parts_nil
  | cons c rest ih =>
    rw [List.infix_cons_iff, not_or] at h
    rw [parts_cons h.1, ih h.2, List.modifyHead_cons]

/-- What stands in front of the first mark is the first part. -/
theorem parts_append_mark (hmark : Unbordered mark) (h : ¬ mark <:+: part) (rest : List Char) :
    parts mark (part ++ (mark ++ rest)) = part :: parts mark rest := by
  induction part with
  | nil => exact parts_append hmark.ne_nil rest
  | cons c part ih =>
    have hapart : Apart mark (c :: part) (mark ++ rest) := hmark.apart_occurrence _ _
    have hfront : ¬ mark <+: c :: (part ++ (mark ++ rest)) := fun hprefix =>
      h (hapart.prefix_of_prefix_append (List.cons_ne_nil c part) hprefix).isInfix
    rw [List.infix_cons_iff, not_or] at h
    rw [List.cons_append, parts_cons hfront, ih h.2, List.modifyHead_cons]

/-- **Joined parts without the mark are found again.** -/
theorem parts_intercalate (hmark : Unbordered mark) {all : List (List Char)} (hne : all ≠ [])
    (h : ∀ part ∈ all, ¬ mark <:+: part) : parts mark (mark.intercalate all) = all := by
  induction all with
  | nil => exact absurd rfl hne
  | cons first rest ih =>
    obtain ⟨hfirst, hrest⟩ := List.forall_mem_cons.mp h
    by_cases hempty : rest = []
    · rw [hempty, List.intercalate_singleton, parts_eq_singleton hfirst]
    · rw [List.intercalate_cons_of_ne_nil hempty, List.append_assoc,
        parts_append_mark hmark hfirst, ih hempty hrest]

end Text

namespace Parameter

open Text

variable {p : Parameter} {params : List Parameter}

/-! ## One parameter -/

/-- A name without the characters that stand between parameters. -/
def IsPlain (p : Parameter) : Prop :=
  ' ' ∉ p.name.toList ∧ ',' ∉ p.name.toList

instance : DecidablePred IsPlain := fun p =>
  inferInstanceAs (Decidable (' ' ∉ p.name.toList ∧ ',' ∉ p.name.toList))

/-- What stands behind the name of a parameter with a default. -/
def defaultMark : String := " = null"

/-- Reads one parameter: behind the sign comes the name, which ends at a space. -/
def read? (piece : String) : Option Parameter :=
  match piece.toList with
  | '$' :: rest =>
    let name := rest.takeWhile (· != ' ')
    if ',' ∈ name then none
    else if rest = name then some ⟨String.ofList name, false⟩
    else if rest = name ++ defaultMark.toList then some ⟨String.ofList name, true⟩
    else none
  | _ => none

theorem toList_text (p : Parameter) :
    p.text.toList = '$' :: (p.name.toList ++ if p.hasDefault then defaultMark.toList else []) := by
  unfold text
  split
  · simp [defaultMark]
  · simp

/-- The name of a parameter is what stands in front of the first space. -/
theorem IsPlain.takeWhile_eq (h : p.IsPlain) :
    (p.name.toList ++ if p.hasDefault then defaultMark.toList else []).takeWhile (· != ' ')
      = p.name.toList := by
  have hname : ∀ c ∈ p.name.toList, (c != ' ') = true := by
    intro c hc
    rw [bne_iff_ne]
    rintro rfl
    exact h.1 hc
  rw [List.takeWhile_append_of_pos hname]
  split <;> simp [defaultMark]

theorem isPlain_takeWhile {rest : List Char} (hcomma : ',' ∉ rest.takeWhile (· != ' '))
    (hasDefault : Bool) : IsPlain ⟨String.ofList (rest.takeWhile (· != ' ')), hasDefault⟩ := by
  refine ⟨fun hspace => ?_, by rw [String.toList_ofList]; exact hcomma⟩
  rw [String.toList_ofList] at hspace
  exact absurd (List.all_eq_true.mp List.all_takeWhile ' ' hspace) (by decide)

/-- **One parameter is read exactly from its text**, if its name is plain. -/
theorem read?_eq_some_iff {piece : String} :
    read? piece = some p ↔ p.IsPlain ∧ piece = p.text := by
  rw [← String.toList_inj, toList_text]
  constructor
  · intro h
    unfold read? at h
    split at h
    · next rest hpiece =>
      rw [hpiece]
      simp only at h
      split at h
      · cases h
      · next hcomma =>
        split at h
        · next hname =>
          obtain rfl := Option.some.inj h
          exact ⟨isPlain_takeWhile hcomma false, by simpa using hname⟩
        · split at h
          · next hname =>
            obtain rfl := Option.some.inj h
            exact ⟨isPlain_takeWhile hcomma true, by simpa using hname⟩
          · cases h
    · cases h
  · rintro ⟨hplain, hpiece⟩
    unfold read?
    rw [hpiece]
    simp only [hplain.takeWhile_eq, if_neg hplain.2, String.ofList_toList]
    obtain ⟨name, hasDefault⟩ := p
    cases hasDefault with
    | false => simp
    | true => simp [defaultMark]

/-! ## All parameters -/

/-- The pieces of a signature; an empty signature has none. -/
def pieces (text : String) : List String :=
  if text.isEmpty then [] else (parts ", ".toList text.toList).map String.ofList

/-- Reads the parameters of a signature. -/
def readList? (text : String) : Option (List Parameter) :=
  (pieces text).mapM read?

theorem unbordered_mark : Unbordered ", ".toList :=
  unbordered_of_inits (by decide) (by decide)

theorem toList_listText (params : List Parameter) :
    (listText params).toList = ", ".toList.intercalate ((params.map text).map String.toList) := by
  rw [listText, String.toList_intercalate]

/-- There is no comma in the text of a plain parameter, so no mark either. -/
theorem IsPlain.not_infix_text (h : p.IsPlain) : ¬ ", ".toList <:+: p.text.toList := by
  intro hinside
  have hcomma : ',' ∈ p.text.toList := hinside.subset (by decide)
  rw [toList_text, List.mem_cons, List.mem_append] at hcomma
  rcases hcomma with hsign | hname | hdefault
  · cases hsign
  · exact h.2 hname
  · split at hdefault
    · exact absurd hdefault (by decide)
    · cases hdefault

/-- Every parameter begins with a sign. -/
theorem listText_cons_ne_empty (p : Parameter) (params : List Parameter) :
    listText (p :: params) ≠ "" := by
  intro h
  have hlist := toList_listText (p :: params)
  rw [h, List.map_cons, List.map_cons, toList_text] at hlist
  cases params with
  | nil => simp at hlist
  | cons => simp [List.intercalate_cons_cons] at hlist

/-- **An empty signature is that of no parameters.** -/
theorem listText_eq_empty_iff : listText params = "" ↔ params = [] := by
  cases params with
  | nil => exact iff_of_true rfl rfl
  | cons p params => exact iff_of_false (listText_cons_ne_empty p params) (List.cons_ne_nil _ _)

/-- **A signature has one piece for each parameter**, in order. -/
theorem pieces_listText (h : ∀ p ∈ params, p.IsPlain) :
    pieces (listText params) = params.map text := by
  cases params with
  | nil => rfl
  | cons p rest =>
    have hempty : ¬ (listText (p :: rest)).isEmpty = true := by
      rw [String.isEmpty_iff]
      exact listText_cons_ne_empty p rest
    have hapart : ∀ part ∈ ((p :: rest).map text).map String.toList, ¬ ", ".toList <:+: part := by
      intro part hpart
      obtain ⟨piece, hpiece, rfl⟩ := List.mem_map.mp hpart
      obtain ⟨q, hq, rfl⟩ := List.mem_map.mp hpiece
      exact (h q hq).not_infix_text
    rw [pieces, if_neg hempty, toList_listText,
      parts_intercalate unbordered_mark (by simp) hapart, List.map_map]
    simp [Function.comp_def]

/-- The pieces of a text, with marks between them, are the text. -/
theorem intercalate_pieces (text : String) : ", ".intercalate (pieces text) = text := by
  unfold pieces
  split
  · next hempty =>
    rw [String.isEmpty_iff.mp hempty]
    rfl
  · rw [← String.toList_inj, String.toList_intercalate, List.map_map]
    simpa [Function.comp_def] using intercalate_parts unbordered_mark.ne_nil text.toList

/-- **Parameters are read exactly from the text of their signature**, if their names are plain. -/
theorem readList?_eq_some_iff {text : String} :
    readList? text = some params ↔ (∀ p ∈ params, p.IsPlain) ∧ text = listText params := by
  rw [readList?, mapM_eq_some_iff fun _ _ => read?_eq_some_iff]
  constructor
  · rintro ⟨hplain, hpieces⟩
    refine ⟨hplain, ?_⟩
    rw [listText, ← hpieces, intercalate_pieces]
  · rintro ⟨hplain, rfl⟩
    exact ⟨hplain, pieces_listText hplain⟩

/-- **A signature tells its parameters**, if their names are plain: it has one piece for each of
them, in order, it is empty only without any, and they are what is read from it. No other
parameters with plain names have this signature. -/
theorem signature_tells (params : List Parameter) (h : ∀ p ∈ params, p.IsPlain) :
    pieces (listText params) = params.map text ∧
    (listText params = "" ↔ params = []) ∧
    readList? (listText params) = some params ∧
    ∀ others : List Parameter, (∀ p ∈ others, p.IsPlain) →
      (listText others = listText params ↔ others = params) := by
  have hread : readList? (listText params) = some params := readList?_eq_some_iff.mpr ⟨h, rfl⟩
  refine ⟨pieces_listText h, listText_eq_empty_iff, hread, fun others hothers => ?_⟩
  refine ⟨fun hsame => ?_, fun hsame => by rw [hsame]⟩
  rw [← hsame, readList?_eq_some_iff.mpr ⟨hothers, rfl⟩] at hread
  exact Option.some.inj hread

/-- A name may be empty, and one may look like another with its default. -/
theorem signature_tells_of_alike :
    let params : List Parameter := [⟨"a", true⟩, ⟨"", false⟩, ⟨"a=null", false⟩, ⟨"", true⟩]
    listText params = "$a = null, $, $a=null, $ = null" ∧
      pieces "$a = null, $, $a=null, $ = null" = ["$a = null", "$", "$a=null", "$ = null"] ∧
      readList? "$a = null, $, $a=null, $ = null" = some params ∧
      listText [⟨"a", false⟩, ⟨"", true⟩, ⟨"a=null", false⟩, ⟨"", true⟩] ≠ listText params := by
  intro params
  obtain ⟨hpieces, -, hread, hothers⟩ := signature_tells params (by decide)
  have htext : listText params = "$a = null, $, $a=null, $ = null" := by decide +kernel
  rw [htext] at hpieces hread
  exact ⟨htext, hpieces, hread, fun h => absurd ((hothers _ (by decide)).mp h) (by decide)⟩

end Parameter

end TestActor
