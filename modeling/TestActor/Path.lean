/-!
# Paths

A path is the text that names a file. Joining and taking parents work on the text and do not look
at any file, so nothing is resolved and what was written stays as it is.

## Parts

A path may begin at the root or, with a single dot, at the current directory; this beginning is its
anchor. Behind it, slashes in a row count as one, and a single dot names nothing. The file name is
the last part, and the parent is the text before it.

## Termination

* `Path.trimmedBack` — the text that is left
* `Path.ancestors` — the length of the path, as a parent is shorter
-/

namespace TestActor

/-- A path as it is written. -/
structure Path where
  text : String
  deriving DecidableEq

namespace Path

/-- Begins at the root. -/
def isAbsolute (p : Path) : Bool :=
  p.text.toList.head? == some '/'

/-- Ends in a slash. -/
def endsInSlash (p : Path) : Bool :=
  p.text.toList.getLast? == some '/'

/-- The path `right`, read from `base`. -/
def join (base right : Path) : Path :=
  if right.isAbsolute then right
  else if base.text.isEmpty || base.endsInSlash then ⟨base.text ++ right.text⟩
  else ⟨base.text ++ "/" ++ right.text⟩

/-! ## Parents and file names -/

/-- The length of the anchor: one for the root and for a single dot at the front. -/
def anchorLength : List Char → Nat
  | '/' :: _ => 1
  | ['.'] => 1
  | '.' :: '/' :: _ => 1
  | _ => 0

/-- A text, given from its end, without slashes and single dots at the end. -/
def trimmedBack : List Char → List Char
  | [] => []
  | ['.'] => []
  | '/' :: r => trimmedBack r
  | '.' :: '/' :: r => trimmedBack r
  | r => r

theorem length_trimmedBack_le (r : List Char) : (trimmedBack r).length ≤ r.length := by
  fun_induction trimmedBack r with
  | case1 => exact Nat.le_refl _
  | case2 => simp
  | case3 r ih => simp only [List.length_cons]; omega
  | case4 r ih => simp only [List.length_cons]; omega
  | case5 => exact Nat.le_refl _

/-- The text behind the anchor, given from its end, without what names nothing there. -/
def backOfBody (s : List Char) : List Char :=
  trimmedBack (s.drop (anchorLength s)).reverse

/-- The path before the last part. The root and the empty path have none. -/
def parent (p : Path) : Option Path :=
  let s := p.text.toList
  match backOfBody s with
  | [] =>
    match s with
    | '.' :: _ => some ⟨""⟩
    | _ => none
  | back =>
    let rest := trimmedBack ((back.dropWhile (· != '/')).drop 1)
    some ⟨String.ofList (s.take (anchorLength s) ++ rest.reverse)⟩

/-- The last part, unless it leads upwards. -/
def fileName (p : Path) : Option String :=
  match backOfBody p.text.toList with
  | [] => none
  | back =>
    let name := (back.takeWhile (· != '/')).reverse
    if name = ['.', '.'] then none else some (String.ofList name)

/-- The path with another file name; one without a file name gets it added. -/
def withFileName (p : Path) (name : String) : Path :=
  if p.fileName.isSome then (p.parent.getD ⟨""⟩).join ⟨name⟩ else p.join ⟨name⟩

/-- A parent is shorter. -/
theorem length_lt_of_parent {p q : Path} (h : p.parent = some q) :
    q.text.toList.length < p.text.toList.length := by
  unfold parent at h
  dsimp only at h
  split at h
  · split at h
    · next heq =>
      cases h
      rw [heq]
      simp
    · simp at h
  · next back hb =>
    cases h
    have hle : (backOfBody p.text.toList).length
        ≤ p.text.toList.length - anchorLength p.text.toList := by
      have := length_trimmedBack_le (p.text.toList.drop (anchorLength p.text.toList)).reverse
      simpa [backOfBody] using this
    have hpos : 0 < (backOfBody p.text.toList).length := List.length_pos_iff.mpr hb
    have hrest : (trimmedBack (((backOfBody p.text.toList).dropWhile (· != '/')).drop 1)).length
        ≤ (backOfBody p.text.toList).length - 1 := by
      refine Nat.le_trans (length_trimmedBack_le _) ?_
      rw [List.length_drop]
      have := (List.dropWhile_sublist (· != '/') (l := backOfBody p.text.toList)).length_le
      omega
    simp only [String.toList_ofList, List.length_append, List.length_reverse, List.length_take]
    omega

/-- The path and its parents, longest first. -/
def ancestors (p : Path) : List Path :=
  match _h : p.parent with
  | none => [p]
  | some q => p :: ancestors q
termination_by p.text.toList.length
decreasing_by exact length_lt_of_parent _h

/-! ## Names -/

/-- The names that slashes separate, empty ones included. -/
def splitSlash : List Char → List (List Char)
  | [] => [[]]
  | c :: r =>
    if c = '/' then [] :: splitSlash r
    else
      match splitSlash r with
      | [] => [[c]]
      | name :: names => (c :: name) :: names

/-- The names along a path, in order. -/
def names (p : Path) : List String :=
  ((splitSlash p.text.toList).filter (!·.isEmpty)).map String.ofList

end Path

end TestActor
