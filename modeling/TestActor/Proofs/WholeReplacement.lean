import TestActor.Proofs.CheckAndBuild
import TestActor.Proofs.ReplacementFrame
import TestActor.Proofs.SavedConfigs

/-!
# Replacing a file as a whole

A file is replaced as a whole or not at all. When that succeeds, the path reads back as the text and
nothing is left of the temporary file beside it. When it fails, at whichever step, what was at the
place of the file is there as before. Everything else that was there stays in either case, but for
what was at the place of the temporary file.

What is new is the file, if it was replaced, or the temporary file, if that was written and could
not be moved, or a directory where nothing was at the place of a parent. As the parents are made in
the way they are written, such a directory may be at the place of the file itself: replacing
`a/../a` makes the directory `a` where nothing was, and then fails.

## Main definitions

* `FileSystem.MayBeNew`: what may be new after a replacement.
* `FileSystem.AllOrNothing`: what a replacement leaves of a file system.

## Main statements

* `FileSystem.allOrNothing_replaceFile`: this is what every replacement leaves.
* `saves_all_or_nothing`: generated files and configurations are saved in this way.
-/

namespace TestActor

variable {fs fs' before after : FileSystem} {path source destination : Path} {place : Place}
  {entry : Entry} {text : String} {content : ByteArray} {touched : List Place} {made : List Path}
  {result : Except Disk.ReplaceError Unit} {failure : Disk.ReplaceError}

namespace FileSystem

/-- What may be new after a replacement, and at which place. -/
inductive MayBeNew (fs : FileSystem) (path : Path) (text : String)
    (result : Except Disk.ReplaceError Unit) : Place → Entry → Prop
  /-- A directory above the file. -/
  | parent {parent : Path} (h : parent ∈ above path) :
      MayBeNew fs path text result (fs.denoted parent) .directory
  /-- The file, when it was replaced. -/
  | file (h : result = .ok ()) :
      MayBeNew fs path text result (fs.denoted path) (.file text.toUTF8)
  /-- The temporary file, when it was written and could not be moved. -/
  | temporary {reason : FileError} (h : result = .error (.failed (.replace path) reason)) :
      MayBeNew fs path text result (fs.denoted (Disk.temporary path)) (.file text.toUTF8)

/-- What a replacement with this result leaves of a file system. -/
structure AllOrNothing (before : FileSystem) (path : Path) (text : String)
    (result : Except Disk.ReplaceError Unit) (after : FileSystem) : Prop where
  current : after.current = before.current
  /-- The temporary file is in the directory of the file. -/
  beside : ∀ name, path.fileName = some name → ∃ directory,
    before.denoted path = name :: directory ∧
      before.denoted (Disk.temporary path) = (name ++ ".tmp") :: directory
  written : result = .ok () → after.read path = .ok text.toUTF8
  /-- No temporary file is left. -/
  moved : result = .ok () → after.get? (before.denoted (Disk.temporary path)) = none ∧
    after.isPresent (Disk.temporary path) = false
  /-- What was at the place of the file is there after a failure. -/
  unchanged : ∀ failure, result = .error failure → ∀ entry,
    before.get? (before.denoted path) = some entry → after.get? (before.denoted path) = some entry
  /-- A file that could be read before a failure is read as before. -/
  read : ∀ failure, result = .error failure → ∀ content,
    before.read path = .ok content → after.read path = .ok content
  kept : ∀ place entry, place ∉ before.replaced path →
    before.get? place = some entry → after.get? place = some entry
  new : ∀ place entry, before.get? place = none → after.get? place = some entry →
    MayBeNew before path text result place entry

/-! ## What the steps leave -/

/-- What is new after a change that adds directories is one of them or at a touched place. -/
theorem Adds.new (h : Adds touched made before after) (hbefore : before.get? place = none)
    (hafter : after.get? place = some entry) :
    place ∈ touched ∨ entry = .directory ∧ ∃ path ∈ made, before.denoted path = place := by
  refine or_iff_not_imp_left.mpr fun hplace => ?_
  rcases h.elsewhere place hplace with hsame | ⟨-, hdirectory, hpath⟩
  · rw [hsame, hbefore] at hafter
    cases hafter
  · exact ⟨Option.some.inj (hafter.symm.trans hdirectory), hpath⟩

theorem get?_of_write (h : fs.write path content = .ok fs') :
    fs'.get? (fs.denoted path) = some (.file content) := by
  obtain ⟨place, htarget, -, -, rfl⟩ := write_eq_ok_iff.mp h
  rw [← eq_denoted_of_target htarget]
  exact get?_put_self fs _ (walk_of_target htarget).2.1

/-- Nothing is left where a file was moved from. -/
theorem get?_of_move (h : fs.move source destination = .ok fs')
    (hne : fs.denoted source ≠ fs.denoted destination) : fs'.get? (fs.denoted source) = none := by
  obtain ⟨old, new, content, hold, hnew, -, -, -, -, rfl⟩ := move_eq_ok_iff.mp h
  rw [← eq_denoted_of_target hold, ← eq_denoted_of_target hnew] at hne
  rw [← eq_denoted_of_target hold, if_neg hne, get?_put_of_ne _ _ hne]
  exact get?_erase_self fs (walk_of_target hold).2.1

theorem isPresent_of_none (h : fs.get? (fs.denoted path) = none) : fs.isPresent path = false := by
  unfold isPresent at?
  cases hfollow : fs.follow path with
  | error reason => rfl
  | ok place =>
    rw [← eq_denoted_of_follow hfollow] at h
    rw [Option.isSome_eq_false_iff, Option.isNone_iff_eq_none]
    exact h

/-! ## What a replacement leaves -/

theorem kept_of_replaces (h : runOn (Disk.replaceFile path text) fs = (result, fs')) :
    Kept (fs.replaced path) fs fs' := by
  cases result with
  | error failure => exact (kept_of_replaceFile_error h).mono (by simp [replaced])
  | ok _ => exact kept_replaceFile h

/-- Nothing is left of the temporary file when the file was replaced. -/
theorem get?_temporary_of_replaceFile
    (h : runOn (Disk.replaceFile path text) fs = (.ok (), fs')) :
    fs'.get? (fs.denoted (Disk.temporary path)) = none := by
  obtain ⟨parent, left, written, hparent, hmade, hwritten, hmoved⟩ := replaceFile_eq_ok_iff.mp h
  have hadds := adds_of_write hparent hmade hwritten
  rw [← hadds.denoted]
  exact get?_of_move hmoved (denoted_temporary_ne written path)

/-- A file that could be read is read as before when it could not be replaced. -/
theorem read_of_replaceFile_error
    (h : runOn (Disk.replaceFile path text) fs = (.error failure, fs'))
    (hread : fs.read path = .ok content) : fs'.read path = .ok content :=
  (kept_of_replaceFile_error h).read (denoted_not_mem_temporary fs path) hread

theorem MayBeNew.of_made
    (h : entry = .directory ∧ ∃ parent ∈ above path, fs.denoted parent = place) :
    MayBeNew fs path text result place entry := by
  obtain ⟨rfl, parent, hmem, rfl⟩ := h
  exact .parent hmem

/-- **What is new after a replacement**, by the step that it came to. -/
theorem mayBeNew_of_replaces (h : runOn (Disk.replaceFile path text) fs = (result, fs'))
    (hbefore : fs.get? place = none) (hafter : fs'.get? place = some entry) :
    MayBeNew fs path text result place entry := by
  cases replaces_of_runOn h with
  | noParent hparent =>
    rw [hbefore] at hafter
    cases hafter
  | unmade hparent hmade =>
    have hnew := (adds_of_makeDirectories hmade).new hbefore hafter
    rw [← above_of_parent hparent] at hnew
    exact .of_made (hnew.resolve_left List.not_mem_nil)
  | unwritten hparent hmade hwritten =>
    have hnew := (adds_of_makeDirectories hmade).new hbefore hafter
    rw [← above_of_parent hparent] at hnew
    exact .of_made (hnew.resolve_left List.not_mem_nil)
  | unmoved hparent hmade hwritten hmoved =>
    rcases (adds_of_write hparent hmade hwritten).new hbefore hafter with hplace | hnew
    · obtain rfl := List.mem_singleton.mp hplace
      rw [← (adds_of_makeDirectories hmade).denoted, get?_of_write hwritten] at hafter
      obtain rfl := Option.some.inj hafter
      exact .temporary rfl
    · exact .of_made hnew
  | moved hparent hmade hwritten hmoved =>
    have hadds := adds_replaceFile fs path text
    rw [h] at hadds
    rcases hadds.new hbefore hafter with hplace | hnew
    · rcases List.mem_pair.mp hplace with rfl | rfl
      · rw [get?_temporary_of_replaceFile h] at hafter
        cases hafter
      · rw [get?_of_replaceFile h] at hafter
        obtain rfl := Option.some.inj hafter
        exact .file rfl
    · exact .of_made hnew

/-- **A replacement leaves the whole new file or what was there before.** -/
theorem allOrNothing_of_runOn (h : runOn (Disk.replaceFile path text) fs = (result, fs')) :
    AllOrNothing fs path text result fs' where
  current := (kept_of_replaces h).current
  beside _ hname := denoted_temporary_of_fileName hname
  written := by
    rintro rfl
    exact read_of_replaceFile h
  moved := by
    rintro rfl
    have hnone := get?_temporary_of_replaceFile h
    refine ⟨hnone, isPresent_of_none ?_⟩
    rwa [(kept_of_replaces h).denoted]
  unchanged := by
    rintro failure rfl entry hentry
    exact (kept_of_replaceFile_error h).entry _ entry (denoted_not_mem_temporary fs path) hentry
  read := by
    rintro failure rfl content hread
    exact read_of_replaceFile_error h hread
  kept := (kept_of_replaces h).entry
  new _ _ := mayBeNew_of_replaces h

theorem allOrNothing_replaceFile (fs : FileSystem) (path : Path) (text : String) :
    AllOrNothing fs path text (runOn (Disk.replaceFile path text) fs).1
      (runOn (Disk.replaceFile path text) fs).2 :=
  allOrNothing_of_runOn rfl

/-- The directory is made as a parent, and then it is in the way of the file. -/
example : (runOn (Disk.replaceFile ⟨"a/../a"⟩ "text") ⟨[], []⟩).1
      = .error (.failed (.replace ⟨"a/../a"⟩) .isDirectory) ∧
    (runOn (Disk.replaceFile ⟨"a/../a"⟩ "text") ⟨[], []⟩).2.entries
      = [(["a.tmp"], .file "text".toUTF8), (["a"], .directory)] := by
  decide +kernel

end FileSystem

/-! ## Generated files and configurations -/

/-- **Generated files and configurations are written as a whole or not at all**: replacing a file
leaves the whole new text at its path, and no temporary file, or it leaves what was there. Saving a
generated file replaces it by its text with a line break at the end. Saving a configuration replaces
it by its text, unless it has a fault; then nothing is changed. -/
theorem saves_all_or_nothing (fs : FileSystem) (path : Path) :
    (∀ text, fs.AllOrNothing path text (runOn (Disk.replaceFile path text) fs).1
      (runOn (Disk.replaceFile path text) fs).2) ∧
    (∀ source, ∃ result,
      fs.AllOrNothing path (Artifact.withFinalBreak source) result
        (runOn (Artifact.save path source) fs).2 ∧
      (runOn (Artifact.save path source) fs).1 = result.mapError .replace) ∧
    ∀ config : Config, match config.fault? with
      | some fault => runOn (Config.save path config) fs = (.error (.config fault), fs)
      | none => ∃ result,
          fs.AllOrNothing path config.toText result (runOn (Config.save path config) fs).2 ∧
          (runOn (Config.save path config) fs).1 = result.mapError .replace := by
  refine ⟨fs.allOrNothing_replaceFile path, fun source => ?_, fun config => ?_⟩
  · exact ⟨_, fs.allOrNothing_replaceFile path (Artifact.withFinalBreak source), rfl⟩
  · rw [Config.runOn_save]
    cases config.fault? with
    | some fault => rfl
    | none => exact ⟨_, fs.allOrNothing_replaceFile path config.toText, rfl⟩

end TestActor
