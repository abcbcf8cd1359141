import TestActor.Proofs.DiskRun
import TestActor.Proofs.PathWalk

/-!
# Replacing a file

Only two places are touched when a file is replaced: its own and the one beside it that the text is
written to first. Directories that are made above it take the place of nothing.

## Main definition

* `FileSystem.EditedAt`: one place is edited.

## Main statements

* `FileSystem.kept_makeDirectories`: making directories touches nothing that is there.
* `FileSystem.replaceFile_eq_ok_iff`: the steps of replacing a file.
* `FileSystem.kept_replaceFile`: what is touched when a file is replaced.
* `FileSystem.read_of_replaceFile`: the file then holds the text.
-/

namespace TestActor.FileSystem

variable {fs fs' : FileSystem} {path source destination : Path} {place : Place}
  {content : ByteArray}

/-! ## One change -/

/-- One place is edited, and everything else is as it was. -/
structure EditedAt (place : Place) (before after : FileSystem) : Prop where
  current : after.current = before.current
  elsewhere : ∀ other, other ≠ place → after.get? other = before.get? other

/-- A change at one place that is no directory. -/
theorem Kept.of_eq_elsewhere (hcurrent : fs'.current = fs.current)
    (hplace : fs.get? place ≠ some .directory)
    (h : ∀ other, other ≠ place → fs'.get? other = fs.get? other) : Kept [place] fs fs' where
  current := hcurrent
  directory other hother := by
    have hne : other ≠ place := fun he => hplace (he ▸ hother)
    rw [h other hne]
    exact hother
  entry other found hout hother := by
    have hne : other ≠ place := fun he => hout (List.mem_singleton.mpr he)
    rw [h other hne]
    exact hother

/-- What takes the place of nothing touches nothing. -/
theorem Kept.of_none (h : Kept [place] fs fs') (hnone : fs.get? place = none) : Kept [] fs fs' where
  current := h.current
  directory := h.directory
  entry other found _ hother := by
    have hne : other ≠ place := by
      intro he
      rw [he, hnone] at hother
      cases hother
    exact h.entry other found (by simpa using hne) hother

theorem kept_put (entry : Entry) (h : fs.get? place ≠ some .directory) :
    Kept [place] fs (fs.put place entry) :=
  .of_eq_elsewhere rfl h fun _ hne => get?_put_of_ne fs entry hne

theorem kept_erase (h : fs.get? place ≠ some .directory) : Kept [place] fs (fs.erase place) :=
  .of_eq_elsewhere rfl h fun _ hne => get?_erase_of_ne fs hne

theorem makeDirectory_eq_ok (h : fs.makeDirectory path = .ok fs') :
    ∃ place, fs.target path = .ok (some place) ∧ fs.get? place = none ∧
      fs' = fs.put place .directory := by
  obtain ⟨found, htarget, h⟩ := bind_eq_ok_iff.mp h
  cases found with
  | none => cases h
  | some place =>
    by_cases hthere : (fs.get? place).isSome
    · simp [hthere] at h
    · simp only [hthere] at h
      cases h
      exact ⟨place, htarget, Option.not_isSome_iff_eq_none.mp hthere, rfl⟩

theorem write_eq_ok_iff :
    fs.write path content = .ok fs' ↔
      ∃ place, fs.target path = .ok (some place) ∧ ¬ path.endsInSlash ∧
        fs.get? place ≠ some .directory ∧ fs' = fs.put place (.file content) := by
  constructor
  · intro h
    obtain ⟨found, htarget, h⟩ := bind_eq_ok_iff.mp h
    cases found with
    | none => cases h
    | some place =>
      by_cases hrefused : path.endsInSlash ∨ fs.get? place = some .directory
      · simp [hrefused] at h
      · simp only [hrefused] at h
        cases h
        obtain ⟨hslash, hdirectory⟩ := not_or.mp hrefused
        exact ⟨place, htarget, hslash, hdirectory, rfl⟩
  · rintro ⟨place, htarget, hslash, hdirectory, rfl⟩
    exact bind_eq_ok_iff.mpr ⟨some place, htarget, if_neg (not_or.mpr ⟨hslash, hdirectory⟩)⟩

/-- A file is moved where no directory is. -/
theorem move_eq_ok_iff :
    fs.move source destination = .ok fs' ↔
      ∃ old new content, fs.target source = .ok (some old) ∧
        fs.target destination = .ok (some new) ∧ fs.get? old = some (.file content) ∧
        ¬ source.endsInSlash ∧ ¬ destination.endsInSlash ∧ fs.get? new ≠ some .directory ∧
        fs' = if old = new then fs else (fs.erase old).put new (.file content) := by
  constructor
  · intro h
    obtain ⟨foundOld, hold, h⟩ := bind_eq_ok_iff.mp h
    obtain ⟨foundNew, hnew, h⟩ := bind_eq_ok_iff.mp h
    cases foundOld with
    | none => cases h
    | some old =>
      cases foundNew with
      | none => cases h
      | some new =>
        cases hfile : fs.get? old with
        | none => simp [hfile] at h
        | some entry =>
          cases entry with
          | directory => simp [hfile] at h
          | file content =>
            simp only [hfile] at h
            by_cases hslash : source.endsInSlash ∨ destination.endsInSlash
            · simp [hslash] at h
            by_cases hdirectory : fs.get? new = some .directory
            · simp [hslash, hdirectory] at h
            obtain ⟨hsource, hdestination⟩ := not_or.mp hslash
            refine ⟨old, new, content, hold, hnew, hfile, hsource, hdestination, hdirectory, ?_⟩
            rw [if_neg hslash, if_neg hdirectory, ← apply_ite Except.ok] at h
            exact (Except.ok.inj h).symm
  · rintro ⟨old, new, content, hold, hnew, hfile, hsource, hdestination, hdirectory, rfl⟩
    refine bind_eq_ok_iff.mpr ⟨some old, hold, bind_eq_ok_iff.mpr ⟨some new, hnew, ?_⟩⟩
    simp only [hfile]
    rw [if_neg (not_or.mpr ⟨hsource, hdestination⟩), if_neg hdirectory, apply_ite Except.ok]

theorem kept_makeDirectory (h : fs.makeDirectory path = .ok fs') : Kept [] fs fs' := by
  obtain ⟨place, -, hnone, rfl⟩ := makeDirectory_eq_ok h
  have hplace : fs.get? place ≠ some .directory := by
    rw [hnone]
    exact fun he => by cases he
  exact (kept_put .directory hplace).of_none hnone

theorem kept_write (h : fs.write path content = .ok fs') : Kept [fs.denoted path] fs fs' := by
  obtain ⟨place, htarget, -, hdirectory, rfl⟩ := write_eq_ok_iff.mp h
  rw [← eq_denoted_of_target htarget]
  exact kept_put _ hdirectory

theorem kept_move (h : fs.move source destination = .ok fs') :
    Kept [fs.denoted source, fs.denoted destination] fs fs' := by
  obtain ⟨old, new, content, hold, hnew, hfile, -, -, hdirectory, rfl⟩ := move_eq_ok_iff.mp h
  rw [← eq_denoted_of_target hold, ← eq_denoted_of_target hnew]
  split
  · exact .refl _ fs
  · next hne =>
    have holdFile : fs.get? old ≠ some .directory := by
      rw [hfile]
      exact fun he => by cases he
    -- the file is taken away first, and what is at the new place is still no directory
    have herased : (fs.erase old).get? new ≠ some .directory := by
      rw [get?_erase_of_ne fs (Ne.symm hne)]
      exact hdirectory
    exact ((kept_erase holdFile).mono (by simp)).trans ((kept_put _ herased).mono (by simp))

/-! ## Making directories -/

theorem kept_attempt {change : FileSystem → Except FileError FileSystem} {touched : List Place}
    (h : ∀ fs', change fs = .ok fs' → Kept touched fs fs') :
    Kept touched fs (attempt change fs).2 := by
  unfold attempt
  split
  · exact .refl touched fs
  · next fs' hchange => exact h fs' hchange

theorem attempt_eq_ok_iff (change : FileSystem → Except FileError FileSystem) :
    attempt change fs = (.ok (), fs') ↔ change fs = .ok fs' := by
  unfold attempt
  split
  · next failure hchange =>
    rw [hchange]
    exact iff_of_false (fun h => by cases h) (fun h => by cases h)
  · next left hchange =>
    rw [hchange]
    exact ⟨fun h => congrArg Except.ok (Prod.mk.inj h).2, fun h => by rw [Except.ok.inj h]⟩

/-- What holds of a change that leaves everything, of two changes one after the other and of every
try to make one of the directories holds of making directories, also when not all of them can be
made. -/
theorem rel_of_makeDirectories {R : FileSystem → FileSystem → Prop} (hrefl : ∀ fs, R fs fs)
    (htrans : ∀ {before middle after}, R before middle → R middle after → R before after)
    (paths : List Path)
    (hmake : ∀ path ∈ paths, ∀ fs, R fs (attempt (·.makeDirectory path) fs).2) (fs : FileSystem) :
    R fs ((Disk.makeDirectories paths : StateM FileSystem _).run fs).2 := by
  have hbind : ∀ {α β : Type} {first : StateM FileSystem α} {second : α → StateM FileSystem β} {fs},
      R fs (first.run fs).2 → (∀ a left, R left ((second a).run left).2) →
        R fs ((first >>= second).run fs).2 := by
    intro α β first second fs hfirst hsecond
    rw [StateT.run_bind]
    exact htrans hfirst (hsecond _ _)
  induction paths generalizing fs with
  | nil => exact hrefl fs
  | cons path parents ih =>
    have hone := hmake path List.mem_cons_self
    have hparents := ih fun path hpath => hmake path (List.mem_cons_of_mem _ hpath)
    unfold Disk.makeDirectories
    split
    · exact hrefl fs
    refine hbind (hone fs) fun result left => ?_
    cases result with
    | ok _ => exact hrefl left
    | error failure =>
      cases failure with
      | notFound =>
        -- the parents are made in what the first try left, then comes a second try
        refine hbind (hparents left) fun result left => ?_
        cases result with
        | error failure => exact hrefl left
        | ok _ =>
          refine hbind (hone left) fun result left => ?_
          cases result <;> exact hrefl left
      | _ => exact hrefl left

/-- **Directories are made only where nothing is**, also when not all of them can be made. -/
theorem kept_makeDirectories (paths : List Path) (fs : FileSystem) :
    Kept [] fs ((Disk.makeDirectories paths : StateM FileSystem _).run fs).2 :=
  rel_of_makeDirectories (Kept.refl []) Kept.trans paths
    (fun _ _ _ => kept_attempt fun _ h => kept_makeDirectory h) fs

/-! ## Replacing a file -/

/-- The places that are touched when a file is replaced. -/
def replaced (fs : FileSystem) (path : Path) : List Place :=
  [fs.denoted (Disk.temporary path), fs.denoted path]

/-- **A file is replaced when all steps succeed**: directories are made, the text is written beside
the file, and what was written is moved. -/
theorem replaceFile_eq_ok_iff {text : String} :
    runOn (Disk.replaceFile path text) fs = (.ok (), fs') ↔
      ∃ parent made written, path.parent = some parent ∧
        (Disk.makeDirectories parent.ancestors : StateM FileSystem _).run fs = (.ok (), made) ∧
        made.write (Disk.temporary path) text.toUTF8 = .ok written ∧
        written.move (Disk.temporary path) path = .ok fs' := by
  unfold Disk.replaceFile
  cases path.parent with
  | none =>
    constructor
    · intro h
      cases h
    · rintro ⟨parent, made, written, h, -⟩
      cases h
  | some parent =>
    simp only [runOn_bind_eq_ok_iff, runOn_adapt_eq_ok_iff, runOn_mk, run_write, run_move]
    constructor
    · rintro ⟨⟨⟩, made, hmade, ⟨⟩, written, hwritten, hmoved⟩
      exact ⟨parent, made, written, rfl, hmade, (attempt_eq_ok_iff (·.write _ _)).mp hwritten,
        (attempt_eq_ok_iff (·.move _ _)).mp hmoved⟩
    · rintro ⟨_, made, written, hparent, hmade, hwritten, hmoved⟩
      cases hparent
      exact ⟨(), made, hmade, (), written, (attempt_eq_ok_iff (·.write _ _)).mpr hwritten,
        (attempt_eq_ok_iff (·.move _ _)).mpr hmoved⟩

theorem kept_of_makeDirectories {paths : List Path} {result : Except FileError Unit}
    (h : (Disk.makeDirectories paths : StateM FileSystem _).run fs = (result, fs')) :
    Kept [] fs fs' := by
  have hkept := kept_makeDirectories paths fs
  rw [h] at hkept
  exact hkept

/-- **Replacing a file touches two places.** -/
theorem kept_replaceFile {text : String}
    (h : runOn (Disk.replaceFile path text) fs = (.ok (), fs')) :
    Kept (fs.replaced path) fs fs' := by
  obtain ⟨parent, made, written, -, hrun, hwritten, hmoved⟩ := replaceFile_eq_ok_iff.mp h
  have hmade := kept_of_makeDirectories hrun
  have hwrite := kept_write hwritten
  have hmove := kept_move hmoved
  rw [hwrite.denoted, hwrite.denoted, hmade.denoted, hmade.denoted] at hmove
  rw [hmade.denoted] at hwrite
  exact ((hmade.mono (by simp)).trans (hwrite.mono (by simp [replaced]))).trans hmove

/-- **A file that was replaced holds the text.** -/
theorem read_of_replaceFile {text : String}
    (h : runOn (Disk.replaceFile path text) fs = (.ok (), fs')) :
    fs'.read path = .ok text.toUTF8 := by
  obtain ⟨parent, made, written, -, -, hwritten, hmoved⟩ := replaceFile_eq_ok_iff.mp h
  have hkept := kept_move hmoved
  obtain ⟨place, htarget, -, -, rfl⟩ := write_eq_ok_iff.mp hwritten
  have hplace : place ≠ [] := (walk_of_target htarget).2.1
  obtain ⟨old, new, content, hold, hnew, hfile, -, hslash, -, hleft⟩ := move_eq_ok_iff.mp hmoved
  -- what is moved is what was written just before
  have hsame : old = place := by
    rw [eq_denoted_of_target hold, eq_denoted_of_target htarget]
    rfl
  have hcontent : content = text.toUTF8 := by
    rw [hsame, get?_put_self _ _ hplace] at hfile
    cases hfile
    rfl
  refine read_eq_ok_iff.mpr ⟨new, hkept.follow (follow_of_target hnew hslash), ?_⟩
  rw [hleft]
  split
  · next heq =>
    rw [← heq, hfile, hcontent]
  · next hne =>
    rw [get?_put_self _ _ (walk_of_target hnew).2.1, hcontent]

/-- The text is at the place that the path denotes. -/
theorem get?_of_replaceFile {text : String}
    (h : runOn (Disk.replaceFile path text) fs = (.ok (), fs')) :
    fs'.get? (fs.denoted path) = some (.file text.toUTF8) := by
  rw [← (kept_replaceFile h).denoted]
  exact (file_of_read (read_of_replaceFile h)).2

end TestActor.FileSystem
