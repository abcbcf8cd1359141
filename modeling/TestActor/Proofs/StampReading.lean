import TestActor.Build
import TestActor.Proofs.Production
import TestActor.Proofs.StampGrammar

/-!
# The stamp of a document

The first line of a generated source is the opening tag, the mark and the fingerprint, whatever the
settings and the methods are. The line break that may be added at the end of the source is behind
that line, so the stamp of the written file is the fingerprint of the document.

## Main statements

* `Stamp.isStamped_marked`: the stamp on a line with a mark.
* `Generator.stamp_of_produce`: the stamp of the file that is written for a document.
-/

namespace TestActor

open Text

/-! ## The first line -/

namespace Stamp

/-- The first line of a generated source, for given digits. -/
def marked (digits : List Char) : List Char :=
  "<?php  //[STAMP] ".toList ++ digits

/-- **A marked line has what stands behind the mark as its stamp.** -/
theorem isStamped_marked {digits : List Char} (hdigits : IsRun (· ∈ lowerDigits) digits) :
    IsStamped (marked digits) digits := by
  have hblanks : ∀ {blanks : List Char}, blanks ≠ [] → (∀ c ∈ blanks, c = ' ') →
      IsRun (isBlank ·) blanks :=
    fun hne h => ⟨hne, fun c hc => by rw [h c hc]; decide⟩
  have hstamped : IsStamped ("<?php".toList ++ ([' ', ' '] ++ ("//[STAMP]".toList ++ ([' '] ++
      (digits ++ []))))) digits :=
    .intro (hblanks (by simp) (by simp)) (hblanks (by simp) (by simp)) hdigits (by simp)
  rw [List.append_nil] at hstamped
  exact hstamped

/-- What stands before the first line feed of a text is its first line, if it is a marked one. -/
theorem isFirstLine_marked {digits : List Char} (rest : List Char)
    (hdigits : IsRun (· ∈ lowerDigits) digits) :
    IsFirstLine (marked digits ++ '\n' :: rest) (marked digits) := by
  have hfeed : '\n' ∉ lowerDigits := by decide
  have hreturn : '\r' ∉ lowerDigits := by decide
  refine .feed ?_ fun h => ?_
  · unfold marked
    rw [List.mem_append]
    rintro (h | h)
    · exact absurd h (by decide)
    · exact hfeed (hdigits.2 _ h)
  · obtain ⟨last, hlast⟩ :=
      Option.ne_none_iff_exists'.mp (mt List.getLast?_eq_none_iff.mp hdigits.1)
    unfold marked at h
    rw [List.getLast?_append, hlast] at h
    have hlast := hdigits.2 last (List.mem_of_getLast? hlast)
    rw [Option.some.inj h] at hlast
    exact hreturn hlast

theorem ofContents?_marked {contents stamp : String} (rest : List Char)
    (hcontents : contents.toList = marked stamp.toList ++ '\n' :: rest)
    (hdigits : IsRun (· ∈ lowerDigits) stamp.toList) : ofContents? contents = some stamp := by
  rw [ofContents?_eq_some_iff, hcontents]
  exact ⟨_, isFirstLine_marked rest hdigits, isStamped_marked hdigits⟩

end Stamp

namespace Generator

variable {g : Generator} {d : Document}

theorem fingerprint_of_produce (h : g.produce = .ok d) : d.fingerprint = g.fingerprint := by
  obtain ⟨methods, -, rfl⟩ := produce_eq_ok_iff.mp h
  rfl

/-- A source begins with the marked fingerprint. -/
theorem source_of_produce (h : g.produce = .ok d) :
    ∃ rest, d.source.toList = Stamp.marked g.fingerprint.toList ++ '\n' :: rest := by
  obtain ⟨methods, -, rfl⟩ := produce_eq_ok_iff.mp h
  obtain ⟨rest, hrest⟩ : ∃ rest, (g.documentOf methods).source
      = "<?php  //[STAMP] " ++ (g.fingerprint ++ ("\nnamespace " ++ rest)) := ⟨_, rfl⟩
  have hbreak : "\nnamespace ".toList ++ rest.toList
      = '\n' :: ("namespace ".toList ++ rest.toList) := rfl
  refine ⟨"namespace ".toList ++ rest.toList, ?_⟩
  unfold Stamp.marked
  rw [hrest, String.toList_append, String.toList_append, String.toList_append, hbreak,
    List.append_assoc]

/-- A line break at the end leaves the beginning of a source. -/
theorem toList_withFinalBreak (source : String) :
    ∃ final, (Artifact.withFinalBreak source).toList = source.toList ++ final := by
  unfold Artifact.withFinalBreak
  split
  · exact ⟨[], (List.append_nil _).symm⟩
  · exact ⟨"\n".toList, String.toList_append⟩

/-- **The stamp of the file that is written for a document is the fingerprint of the document.** -/
theorem stamp_of_produce (h : g.produce = .ok d) :
    Stamp.ofContents? (Artifact.withFinalBreak d.source) = some d.fingerprint := by
  obtain ⟨rest, hsource⟩ := source_of_produce h
  obtain ⟨final, hfinal⟩ := toList_withFinalBreak d.source
  have hcontents : (Artifact.withFinalBreak d.source).toList
      = Stamp.marked g.fingerprint.toList ++ '\n' :: (rest ++ final) := by
    rw [hfinal, hsource, List.append_assoc, List.cons_append]
  have hne : g.fingerprint.toList ≠ [] := by
    intro he
    have hlength : g.fingerprint.toList.length = 32 := Fingerprint.length_toList_ofText _
    rw [he] at hlength
    cases hlength
  have hdigits : g.fingerprint.toList.all isLowerHex = true := Fingerprint.all_isLowerHex_ofText _
  rw [Stamp.ofContents?_marked _ hcontents
      ⟨hne, fun c hc => isLowerHex_iff.mp (List.all_eq_true.mp hdigits c hc)⟩,
    fingerprint_of_produce h]

end Generator

end TestActor
