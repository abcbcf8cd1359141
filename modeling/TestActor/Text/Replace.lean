/-!
# Replacing a piece of text

Occurrences are taken from the left and do not overlap; what is put in is not searched again.

## Termination

`replaceAll` shortens its text at every step: by the occurrence, or by one character.
-/

namespace TestActor.Text

/-- Puts `new` in the place of every occurrence of `old`, which is not empty. -/
def replaceAll (old new : List Char) : List Char → List Char
  | [] => []
  | c :: r =>
    if old.isPrefixOf (c :: r) then new ++ replaceAll old new (r.drop (old.length - 1))
    else c :: replaceAll old new r
termination_by s => s.length
decreasing_by
  · simp only [List.length_drop, List.length_cons]; omega
  · simp

/-- A text in which `old` does not start at the front keeps its first character. -/
theorem replaceAll_cons_of_not {old new r : List Char} {c : Char}
    (h : old.isPrefixOf (c :: r) = false) :
    replaceAll old new (c :: r) = c :: replaceAll old new r := by
  rw [replaceAll, if_neg (by simp [h])]

/-- An occurrence at the front is replaced, and the search goes on behind it. -/
theorem replaceAll_append {old new : List Char} (rest : List Char) (h : old ≠ []) :
    replaceAll old new (old ++ rest) = new ++ replaceAll old new rest := by
  cases old with
  | nil => exact absurd rfl h
  | cons c r =>
    have hp : (c :: r).isPrefixOf (c :: (r ++ rest)) = true :=
      List.isPrefixOf_iff_prefix.mpr ⟨rest, rfl⟩
    rw [List.cons_append, replaceAll, if_pos hp]
    simp

end TestActor.Text
