import TestActor.Proofs.FileReplacement

/-!
# Replacing a file again

A file that was replaced can be replaced again. The directories are there, every path leads where it
led, and no directory has taken the place of the file or of the one beside it.

## Main statements

* `FileSystem.makeDirectories_of_isDirectory`: directories that are there are not made again.
* `FileSystem.exists_replaceFile_again`: a file that was replaced can be replaced again.
-/

namespace TestActor.FileSystem

variable {fs fs' before after : FileSystem} {path : Path} {place : Place} {touched : List Place}

/-! ## Directories -/

theorem Kept.target (h : Kept touched before after)
    (htarget : before.target path = .ok (some place)) : after.target path = .ok (some place) := by
  obtain ⟨⟨⟩, hchecked, htarget⟩ := bind_eq_ok_iff.mp htarget
  refine bind_eq_ok_iff.mpr ⟨(), hchecked, ?_⟩
  cases hlast : path.names.getLast? with
  | none =>
    rw [hlast] at htarget
    exact htarget
  | some name =>
    rw [hlast] at htarget
    obtain ⟨directory, hwalk, htarget⟩ := bind_eq_ok_iff.mp htarget
    obtain ⟨next, hstep, hnext⟩ := bind_eq_ok_iff.mp htarget
    refine bind_eq_ok_iff.mpr ⟨directory, ?_, bind_eq_ok_iff.mpr ⟨next, h.step hstep, hnext⟩⟩
    rw [h.start]
    exact h.walk hwalk

theorem isDirectory_iff :
    fs.isDirectory path = true ↔
      ∃ place, fs.follow path = .ok place ∧ fs.get? place = some .directory := by
  unfold isDirectory at?
  cases fs.follow path with
  | error failure => simp
  | ok place => simp

theorem Kept.isDirectory (h : Kept touched before after) (hthere : before.isDirectory path = true) :
    after.isDirectory path = true := by
  obtain ⟨place, hfollow, hplace⟩ := isDirectory_iff.mp hthere
  exact isDirectory_iff.mpr ⟨place, h.follow hfollow, h.directory place hplace⟩

/-- A directory that was made is there, also behind a slash at the end of the path. -/
theorem isDirectory_of_makeDirectory (h : fs.makeDirectory path = .ok fs') :
    fs'.isDirectory path = true := by
  have hkept := kept_makeDirectory h
  obtain ⟨place, htarget, -, rfl⟩ := makeDirectory_eq_ok h
  obtain ⟨hchecked, hroot, hwalk⟩ := walk_of_target (hkept.target htarget)
  have hplace := get?_put_self fs .directory hroot
  refine isDirectory_iff.mpr ⟨place, ?_, hplace⟩
  refine bind_eq_ok_iff.mpr ⟨(), hchecked, walk_append_eq_ok_iff.mpr ⟨place, hwalk, ?_⟩⟩
  split
  · exact walk_singleton.trans (step_eq_ok_iff.mpr ⟨hplace, .inl rfl, rfl⟩)
  · rfl

/-- The last name of a path that can be followed names the same place, or none. -/
theorem target_of_follow (h : fs.follow path = .ok place) :
    fs.target path = .ok none ∨ fs.target path = .ok (some place) := by
  have hplace := eq_denoted_of_follow h
  obtain ⟨⟨⟩, hchecked, hwalk⟩ := bind_eq_ok_iff.mp h
  obtain ⟨last, hnames, -⟩ := walk_append_eq_ok_iff.mp hwalk
  have hlast : last = place := by
    rw [hplace, eq_foldl_of_walk hnames]
    rfl
  cases hget : path.names.getLast? with
  | none =>
    refine .inl (bind_eq_ok_iff.mpr ⟨(), hchecked, ?_⟩)
    rw [hget]
    rfl
  | some name =>
    obtain ⟨names, hsplit⟩ := List.getLast?_eq_some_iff.mp hget
    rw [hsplit, walk_append_eq_ok_iff] at hnames
    obtain ⟨directory, hfront, hstep⟩ := hnames
    rw [walk_singleton, hlast] at hstep
    have hfound : fs.target path = .ok (if name = "." ∨ name = ".." then none else some place) := by
      refine bind_eq_ok_iff.mpr ⟨(), hchecked, ?_⟩
      rw [hget, hsplit, List.dropLast_concat]
      exact bind_eq_ok_iff.mpr ⟨directory, hfront, bind_eq_ok_iff.mpr ⟨place, hstep, rfl⟩⟩
    split at hfound
    · exact .inl hfound
    · exact .inr hfound

theorem makeDirectory_of_isDirectory (h : fs.isDirectory path = true) :
    fs.makeDirectory path = .error .alreadyExists := by
  obtain ⟨place, hfollow, hplace⟩ := isDirectory_iff.mp h
  unfold makeDirectory
  rcases target_of_follow hfollow with hnone | hsome
  · rw [hnone]
    rfl
  · rw [hsome]
    show (if (fs.get? place).isSome then _ else _) = _
    rw [hplace]
    rfl

/-! ## Making directories -/

theorem run_bind_eq_iff {α β : Type} {first : StateM FileSystem α}
    {second : α → StateM FileSystem β} {b : β} :
    (first >>= second).run fs = (b, fs') ↔
      ∃ a left, first.run fs = (a, left) ∧ (second a).run left = (b, fs') :=
  ⟨fun h => ⟨_, _, rfl, h⟩, by rintro ⟨a, left, hfirst, h⟩; rw [StateT.run_bind, hfirst]; exact h⟩

/-- Where directories were made there is one, unless the path is empty. -/
theorem isDirectory_of_makeDirectories {parents : List Path}
    (h : (Disk.makeDirectories (path :: parents) : StateM FileSystem _).run fs = (.ok (), fs')) :
    path.text.isEmpty = true ∨ fs'.isDirectory path = true := by
  have hunless : ∀ {failure : FileError} {left : FileSystem},
      (Disk.unlessDirectory path failure : StateM FileSystem _).run left = (.ok (), fs') →
        fs'.isDirectory path = true := by
    intro failure left h
    have hrun : (Disk.unlessDirectory path failure : StateM FileSystem _).run left
        = (if left.isDirectory path then .ok () else .error failure, left) := rfl
    rw [hrun] at h
    split at h
    · next hthere =>
      cases h
      exact hthere
    · cases h
  have hmade : ∀ {left : FileSystem}, attempt (·.makeDirectory path) left = (.ok (), fs') →
      fs'.isDirectory path = true :=
    fun h => isDirectory_of_makeDirectory ((attempt_eq_ok_iff _).mp h)
  unfold Disk.makeDirectories at h
  split at h
  · next hempty => exact .inl hempty
  right
  obtain ⟨result, left, hfirst, h⟩ := run_bind_eq_iff.mp h
  cases result with
  | ok _ =>
    cases h
    exact hmade hfirst
  | error failure =>
    cases failure with
    | notFound =>
      obtain ⟨result, left, -, h⟩ := run_bind_eq_iff.mp h
      cases result with
      | error failure => cases h
      | ok _ =>
        obtain ⟨result, left, hsecond, h⟩ := run_bind_eq_iff.mp h
        cases result with
        | ok _ =>
          cases h
          exact hmade hsecond
        | error failure => exact hunless h
    | _ => exact hunless h

/-- A directory that is there is not made again. -/
theorem makeDirectories_of_isDirectory {parents : List Path}
    (h : path.text.isEmpty = true ∨ fs.isDirectory path = true) :
    (Disk.makeDirectories (path :: parents) : StateM FileSystem _).run fs = (.ok (), fs) := by
  unfold Disk.makeDirectories
  split
  · rfl
  · next hempty =>
    have hthere := h.resolve_left hempty
    have hrefused : attempt (·.makeDirectory path) fs = (.error .alreadyExists, fs) := by
      simp only [attempt, makeDirectory_of_isDirectory hthere]
    refine run_bind_eq_iff.mpr ⟨_, _, hrefused, ?_⟩
    show (if fs.isDirectory path then _ else _, fs) = _
    rw [if_pos hthere]

theorem exists_ancestors_eq (path : Path) : ∃ parents, path.ancestors = path :: parents := by
  unfold Path.ancestors
  split
  · exact ⟨_, rfl⟩
  · exact ⟨_, rfl⟩

/-! ## The file -/

/-- There is no directory at the place of a file that was replaced or of the file beside it. -/
theorem not_directory_of_replaceFile {text : String}
    (h : runOn (Disk.replaceFile path text) fs = (.ok (), fs'))
    (hplace : place ∈ fs'.replaced path) : fs'.get? place ≠ some .directory := by
  obtain ⟨_, _, written, -, -, -, hmoved⟩ := replaceFile_eq_ok_iff.mp h
  have hkept := kept_move hmoved
  obtain ⟨old, new, content, hold, hnew, hfile, -, -, -, hleft⟩ := move_eq_ok_iff.mp hmoved
  have hroot : old ≠ [] ∧ new ≠ [] := ⟨(walk_of_target hold).2.1, (walk_of_target hnew).2.1⟩
  have hplaces : place = old ∨ place = new := by
    unfold replaced at hplace
    rw [hkept.denoted, hkept.denoted, ← eq_denoted_of_target hold,
      ← eq_denoted_of_target hnew] at hplace
    simpa using hplace
  rw [hleft]
  split
  · next heq =>
    rw [← heq, or_self] at hplaces
    rw [hplaces, hfile]
    exact fun he => by cases he
  · next hne =>
    rcases hplaces with rfl | rfl
    · rw [get?_put_of_ne _ _ hne, get?_erase_self written hroot.1]
      exact fun he => by cases he
    · rw [get?_put_self _ _ hroot.2]
      exact fun he => by cases he

/-- **A file that was replaced can be replaced again** when nothing has changed at its place and at
the place of the file beside it. -/
theorem exists_replaceFile_again {text again : String}
    (h : runOn (Disk.replaceFile path text) fs = (.ok (), fs')) (hkept : Kept touched fs' after)
    (hsame : ∀ place ∈ fs'.replaced path, after.get? place = fs'.get? place) :
    ∃ last, runOn (Disk.replaceFile path again) after = (.ok (), last) := by
  have hfree : ∀ place ∈ fs'.replaced path, after.get? place ≠ some .directory := by
    intro place hplace
    rw [hsame place hplace]
    exact not_directory_of_replaceFile h hplace
  obtain ⟨parent, made, written, hparent, hmade, hwritten, hmoved⟩ := replaceFile_eq_ok_iff.mp h
  obtain ⟨parents, hparents⟩ := exists_ancestors_eq parent
  have hwrite := kept_write hwritten
  have hlater := ((kept_move hmoved).mono (List.subset_append_left _ touched)).trans
    (hkept.mono (List.subset_append_right _ touched))
  obtain ⟨place, htarget, hslash, -, rfl⟩ := write_eq_ok_iff.mp hwritten
  obtain ⟨_, new, _, _, hnew, _, _, hslashNew, -, -⟩ := move_eq_ok_iff.mp hmoved
  -- every path leads in the end where it led when the file was replaced first
  have hplace := hlater.target (hwrite.target htarget)
  have hnewPlace := hlater.target hnew
  have hbeside : after.get? place ≠ some .directory := by
    refine hfree place ?_
    rw [eq_denoted_of_target hplace, hkept.denoted]
    exact List.mem_cons_self
  have hpath : after.get? new ≠ some .directory := by
    refine hfree new ?_
    rw [eq_denoted_of_target hnewPlace, hkept.denoted]
    exact List.mem_cons_of_mem _ List.mem_cons_self
  have hput := kept_put (.file again.toUTF8) hbeside
  have hfile := get?_put_self after (.file again.toUTF8) (walk_of_target hplace).2.1
  have hnewPut : (after.put place (.file again.toUTF8)).get? new ≠ some .directory := by
    by_cases heq : new = place
    · rw [heq, hfile]
      exact fun he => by cases he
    · rw [get?_put_of_ne after _ heq]
      exact hpath
  have hthere : parent.text.isEmpty = true ∨ after.isDirectory parent = true := by
    rw [hparents] at hmade
    refine (isDirectory_of_makeDirectories hmade).imp id fun hmade => ?_
    exact hlater.isDirectory (hwrite.isDirectory hmade)
  refine ⟨_, replaceFile_eq_ok_iff.mpr ⟨parent, after, _, hparent, ?_,
    write_eq_ok_iff.mpr ⟨place, hplace, hslash, hbeside, rfl⟩,
    move_eq_ok_iff.mpr ⟨place, new, _, hput.target hplace, hput.target hnewPlace, hfile, hslash,
      hslashNew, hnewPut, rfl⟩⟩⟩
  rw [hparents]
  exact makeDirectories_of_isDirectory hthere

end TestActor.FileSystem
