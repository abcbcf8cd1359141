import TestActor.Proofs.FileReplacement
import TestActor.Proofs.PathNames

/-!
# What replacing a file adds

What is new when a file was replaced, or when that failed, is at the place of the file, at the place
of the one beside it that is written first, or it is a directory: a parent of the path, made where
nothing was. A replacement that fails does not touch the place of the file, but one of the parents
may be at that place, as they are in the text of the path and nothing is resolved.

## Main definitions

* `FileSystem.Adds`: a change that only adds directories outside some places.
* `FileSystem.Replaces`: the ways in which a replacement may end.

## Main statements

* `FileSystem.replaces_runOn`: a replacement ends in one of these ways.
* `FileSystem.adds_replaceFile`: what is new after a replacement.
* `FileSystem.adds_of_replaceFile_error`: what is new after a replacement that fails.
-/

namespace TestActor.FileSystem

variable {fs fs' before middle after : FileSystem} {path source destination : Path}
  {place : Place} {text : String} {content : ByteArray} {touched more : List Place}
  {made others : List Path}

/-! ## Changes that add directories -/

/-- A change that leaves everything outside the touched places as it is, but for directories at the
places of some paths where nothing was. -/
structure Adds (touched : List Place) (made : List Path) (before after : FileSystem) : Prop where
  current : after.current = before.current
  elsewhere : ∀ place, place ∉ touched → after.get? place = before.get? place ∨
    before.get? place = none ∧ after.get? place = some .directory ∧
      ∃ path ∈ made, before.denoted path = place

theorem denoted_congr (h : after.current = before.current) (path : Path) :
    after.denoted path = before.denoted path := by
  unfold denoted start
  rw [h]

namespace Adds

theorem refl (touched : List Place) (made : List Path) (fs : FileSystem) :
    Adds touched made fs fs :=
  ⟨rfl, fun _ _ => .inl rfl⟩

theorem trans (h₁ : Adds touched made before middle) (h₂ : Adds touched made middle after) :
    Adds touched made before after where
  current := h₂.current.trans h₁.current
  elsewhere place hplace := by
    rcases h₁.elsewhere place hplace with hsame | ⟨hnone, hmade, hpath⟩
    · rw [← hsame]
      simpa only [denoted_congr h₁.current] using h₂.elsewhere place hplace
    · -- a directory that was made is still there
      rcases h₂.elsewhere place hplace with hsame | ⟨hnone', -⟩
      · exact .inr ⟨hnone, hsame.trans hmade, hpath⟩
      · rw [hmade] at hnone'
        cases hnone'

theorem mono (h : Adds touched made before after) (htouched : touched ⊆ more)
    (hmade : made ⊆ others) : Adds more others before after where
  current := h.current
  elsewhere place hplace :=
    (h.elsewhere place fun hmem => hplace (htouched hmem)).imp id
      fun ⟨hnone, hdirectory, path, hpath, hdenoted⟩ =>
        ⟨hnone, hdirectory, path, hmade hpath, hdenoted⟩

theorem of_eq_elsewhere (hcurrent : after.current = before.current)
    (h : ∀ other, other ≠ place → after.get? other = before.get? other) :
    Adds [place] made before after :=
  ⟨hcurrent, fun other hother => .inl (h other fun he => hother (List.mem_singleton.mpr he))⟩

theorem denoted (h : Adds touched made before after) (path : Path) :
    after.denoted path = before.denoted path :=
  denoted_congr h.current path

end Adds

/-! ## One change -/

theorem adds_put (fs : FileSystem) (place : Place) (entry : Entry) :
    Adds [place] [] fs (fs.put place entry) :=
  .of_eq_elsewhere rfl fun _ hne => get?_put_of_ne fs entry hne

theorem adds_erase (fs : FileSystem) (place : Place) : Adds [place] [] fs (fs.erase place) :=
  .of_eq_elsewhere rfl fun _ hne => get?_erase_of_ne fs hne

theorem adds_makeDirectory (h : fs.makeDirectory path = .ok fs') : Adds [] [path] fs fs' := by
  obtain ⟨place, htarget, hnone, rfl⟩ := makeDirectory_eq_ok h
  obtain ⟨-, hroot, -⟩ := walk_of_target htarget
  refine ⟨rfl, fun other _ => ?_⟩
  by_cases hother : other = place
  · rw [hother, get?_put_self fs _ hroot]
    exact .inr ⟨hnone, rfl, path, List.mem_singleton_self path, (eq_denoted_of_target htarget).symm⟩
  · exact .inl (get?_put_of_ne fs _ hother)

theorem adds_write (h : fs.write path content = .ok fs') : Adds [fs.denoted path] [] fs fs' := by
  obtain ⟨place, htarget, -, -, rfl⟩ := write_eq_ok_iff.mp h
  rw [← eq_denoted_of_target htarget]
  exact adds_put fs place _

theorem adds_move (h : fs.move source destination = .ok fs') :
    Adds [fs.denoted source, fs.denoted destination] [] fs fs' := by
  obtain ⟨old, new, content, hold, hnew, -, -, -, -, rfl⟩ := move_eq_ok_iff.mp h
  rw [← eq_denoted_of_target hold, ← eq_denoted_of_target hnew]
  split
  · exact .refl _ [] fs
  · exact ((adds_erase fs old).mono (by simp) (List.nil_subset _)).trans
      ((adds_put _ new _).mono (by simp) (List.nil_subset _))

/-- Making directories adds directories at the places of the paths. -/
theorem adds_makeDirectories (paths : List Path) (fs : FileSystem) :
    Adds [] paths fs ((Disk.makeDirectories paths : StateM FileSystem _).run fs).2 := by
  refine rel_of_makeDirectories (Adds.refl [] paths) Adds.trans paths (fun path hpath fs => ?_) fs
  unfold attempt
  split
  · exact .refl [] paths fs
  · next fs' hmade =>
    exact (adds_makeDirectory hmade).mono (List.nil_subset _) (by simpa using hpath)

theorem adds_of_makeDirectories {paths : List Path} {result : Except FileError Unit}
    (h : (Disk.makeDirectories paths : StateM FileSystem _).run fs = (result, fs')) :
    Adds [] paths fs fs' := by
  have hadds := adds_makeDirectories paths fs
  rw [h] at hadds
  exact hadds

/-! ## The ways in which a replacement may end -/

/-- How a replacement ends, and the file system that it leaves. -/
inductive Replaces (fs : FileSystem) (path : Path) (text : String) :
    Except Disk.ReplaceError Unit → FileSystem → Prop
  /-- The path has no parent. -/
  | noParent (hparent : path.parent = none) : Replaces fs path text (.error (.noParent path)) fs
  /-- Not all parents are made. -/
  | unmade {parent : Path} {failure : FileError} {left : FileSystem}
      (hparent : path.parent = some parent)
      (hmade : (Disk.makeDirectories parent.ancestors : StateM FileSystem _).run fs
        = (.error failure, left)) :
      Replaces fs path text (.error (.failed (.createDirectory parent) failure)) left
  /-- The text is not written. -/
  | unwritten {parent : Path} {failure : FileError} {left : FileSystem}
      (hparent : path.parent = some parent)
      (hmade : (Disk.makeDirectories parent.ancestors : StateM FileSystem _).run fs = (.ok (), left))
      (hwritten : left.write (Disk.temporary path) text.toUTF8 = .error failure) :
      Replaces fs path text (.error (.failed (.writeTemporary (Disk.temporary path)) failure)) left
  /-- What was written is not moved. -/
  | unmoved {parent : Path} {failure : FileError} {left written : FileSystem}
      (hparent : path.parent = some parent)
      (hmade : (Disk.makeDirectories parent.ancestors : StateM FileSystem _).run fs = (.ok (), left))
      (hwritten : left.write (Disk.temporary path) text.toUTF8 = .ok written)
      (hmoved : written.move (Disk.temporary path) path = .error failure) :
      Replaces fs path text (.error (.failed (.replace path) failure)) written
  /-- The file is replaced. -/
  | moved {parent : Path} {left written fs' : FileSystem}
      (hparent : path.parent = some parent)
      (hmade : (Disk.makeDirectories parent.ancestors : StateM FileSystem _).run fs = (.ok (), left))
      (hwritten : left.write (Disk.temporary path) text.toUTF8 = .ok written)
      (hmoved : written.move (Disk.temporary path) path = .ok fs') :
      Replaces fs path text (.ok ()) fs'

section Running

variable {failure : FileError}

theorem attempt_of_error (change : FileSystem → Except FileError FileSystem)
    (h : change fs = .error failure) : attempt change fs = (.error failure, fs) := by
  unfold attempt
  rw [h]

theorem run_write_of_error (h : fs.write path content = .error failure) :
    (Disk.write path content : StateM FileSystem (Except FileError Unit)).run fs
      = (.error failure, fs) :=
  attempt_of_error (·.write path content) h

theorem run_write_of_ok (h : fs.write path content = .ok fs') :
    (Disk.write path content : StateM FileSystem (Except FileError Unit)).run fs = (.ok (), fs') :=
  (attempt_eq_ok_iff (·.write path content)).mpr h

theorem run_move_of_error (h : fs.move source destination = .error failure) :
    (Disk.move source destination : StateM FileSystem (Except FileError Unit)).run fs
      = (.error failure, fs) :=
  attempt_of_error (·.move source destination) h

theorem run_move_of_ok (h : fs.move source destination = .ok fs') :
    (Disk.move source destination : StateM FileSystem (Except FileError Unit)).run fs
      = (.ok (), fs') :=
  (attempt_eq_ok_iff (·.move source destination)).mpr h

end Running

/-- **A replacement ends in one of these ways.** -/
theorem replaces_runOn (fs : FileSystem) (path : Path) (text : String) :
    Replaces fs path text (runOn (Disk.replaceFile path text) fs).1
      (runOn (Disk.replaceFile path text) fs).2 := by
  unfold Disk.replaceFile
  cases hparent : path.parent with
  | none => exact .noParent hparent
  | some parent =>
    simp only [runOn_bind, runOn_adapt, runOn_mk]
    cases hmade : (Disk.makeDirectories parent.ancestors : StateM FileSystem _).run fs with
    | mk result left =>
      cases result with
      | error failure => exact .unmade hparent hmade
      | ok _ =>
        cases hwritten : left.write (Disk.temporary path) text.toUTF8 with
        | error failure =>
          simp only [run_write_of_error hwritten, Except.mapError]
          exact .unwritten hparent hmade hwritten
        | ok written =>
          cases hmoved : written.move (Disk.temporary path) path with
          | error failure =>
            simp only [run_write_of_ok hwritten, run_move_of_error hmoved, Except.mapError]
            exact .unmoved hparent hmade hwritten hmoved
          | ok fs' =>
            simp only [run_write_of_ok hwritten, run_move_of_ok hmoved, Except.mapError]
            exact .moved hparent hmade hwritten hmoved

theorem replaces_of_runOn {result : Except Disk.ReplaceError Unit}
    (h : runOn (Disk.replaceFile path text) fs = (result, fs')) :
    Replaces fs path text result fs' := by
  have hreplaces := replaces_runOn fs path text
  rw [h] at hreplaces
  exact hreplaces

/-! ## What is new after a replacement -/

/-- The parents of a path, longest first. -/
def above (path : Path) : List Path :=
  path.parent.elim [] Path.ancestors

theorem above_of_parent {parent : Path} (h : path.parent = some parent) :
    above path = parent.ancestors := by
  rw [above, h]
  rfl

/-- What is new when the text was written, but not moved yet. -/
theorem adds_of_write {parent : Path} {left written : FileSystem}
    (hparent : path.parent = some parent)
    (hmade : (Disk.makeDirectories parent.ancestors : StateM FileSystem _).run fs = (.ok (), left))
    (hwritten : left.write (Disk.temporary path) content = .ok written) :
    Adds [fs.denoted (Disk.temporary path)] (above path) fs written := by
  have hdirectories := adds_of_makeDirectories hmade
  have hwrite := adds_write hwritten
  rw [hdirectories.denoted] at hwrite
  rw [above_of_parent hparent]
  exact (hdirectories.mono (List.nil_subset _) (List.Subset.refl _)).trans
    (hwrite.mono (List.Subset.refl _) (List.nil_subset _))

/-- **A replacement that fails** adds parents of the path and the temporary file. -/
theorem adds_of_replaceFile_error {failure : Disk.ReplaceError}
    (h : runOn (Disk.replaceFile path text) fs = (.error failure, fs')) :
    Adds [fs.denoted (Disk.temporary path)] (above path) fs fs' := by
  cases replaces_of_runOn h with
  | noParent hparent => exact .refl _ _ fs
  | unmade hparent hmade =>
    rw [above_of_parent hparent]
    exact (adds_of_makeDirectories hmade).mono (List.nil_subset _) (List.Subset.refl _)
  | unwritten hparent hmade hwritten =>
    rw [above_of_parent hparent]
    exact (adds_of_makeDirectories hmade).mono (List.nil_subset _) (List.Subset.refl _)
  | unmoved hparent hmade hwritten hmoved => exact adds_of_write hparent hmade hwritten

/-- **A replacement** adds parents of the path, the temporary file and the file. -/
theorem adds_replaceFile (fs : FileSystem) (path : Path) (text : String) :
    Adds (fs.replaced path) (above path) fs (runOn (Disk.replaceFile path text) fs).2 := by
  cases hrun : runOn (Disk.replaceFile path text) fs with
  | mk result fs' =>
    cases result with
    | error failure =>
      exact (adds_of_replaceFile_error hrun).mono (by simp [replaced]) (List.Subset.refl _)
    | ok _ =>
      cases replaces_of_runOn hrun with
      | moved hparent hmade hwritten hmoved =>
        have hwrite := adds_of_write hparent hmade hwritten
        have hmove := adds_move hmoved
        rw [hwrite.denoted, hwrite.denoted] at hmove
        exact (hwrite.mono (by simp [replaced]) (List.Subset.refl _)).trans
          (hmove.mono (List.Subset.refl _) (List.nil_subset _))

theorem denoted_not_mem_temporary (fs : FileSystem) (path : Path) :
    fs.denoted path ∉ [fs.denoted (Disk.temporary path)] :=
  fun hmem => denoted_temporary_ne fs path (List.mem_singleton.mp hmem).symm

/-- A replacement that fails touches the temporary file only. -/
theorem kept_of_replaceFile_error {failure : Disk.ReplaceError}
    (h : runOn (Disk.replaceFile path text) fs = (.error failure, fs')) :
    Kept [fs.denoted (Disk.temporary path)] fs fs' := by
  cases replaces_of_runOn h with
  | noParent hparent => exact .refl _ fs
  | unmade hparent hmade => exact (kept_of_makeDirectories hmade).mono (List.nil_subset _)
  | unwritten hparent hmade hwritten =>
    exact (kept_of_makeDirectories hmade).mono (List.nil_subset _)
  | unmoved hparent hmade hwritten hmoved =>
    have hdirectories := kept_of_makeDirectories hmade
    have hwrite := kept_write hwritten
    rw [hdirectories.denoted] at hwrite
    exact (hdirectories.mono (List.nil_subset _)).trans hwrite

/-- What was at the place of a file is there after a replacement that fails, and what is new there
is a directory that was made as one of the parents. -/
theorem get?_of_replaceFile_error {failure : Disk.ReplaceError}
    (h : runOn (Disk.replaceFile path text) fs = (.error failure, fs')) :
    fs'.get? (fs.denoted path) = fs.get? (fs.denoted path) ∨
      fs.get? (fs.denoted path) = none ∧ fs'.get? (fs.denoted path) = some .directory ∧
        ∃ parent ∈ above path, fs.denoted parent = fs.denoted path :=
  (adds_of_replaceFile_error h).elsewhere _ (denoted_not_mem_temporary fs path)

end TestActor.FileSystem
