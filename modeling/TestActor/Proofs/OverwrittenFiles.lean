import TestActor.Proofs.ReplacementFrame
import TestActor.Proofs.ReplacingAgain

/-!
# Files with other bytes

Two file systems that differ only in the bytes of one file cannot be told apart without reading that
file or moving it away. Every path leads to the same place in both, the same directories are made,
and whatever is written fails in both or succeeds in both. A program of such steps gives the same
result, and the file systems that it leaves differ in the bytes of that file at most.

## Main definitions

* `FileSystem.DiffersAt`: two file systems differ at most in the bytes of one file.
* `BlindTo`: a program cannot tell such file systems apart.

## Main statements

* `FileSystem.DiffersAt.follow`, `FileSystem.DiffersAt.target`: paths lead to the same places.
* `BlindTo.bind`: a program of blind steps is blind.
* `blindTo_replaceFile`: replacing the file is blind to its bytes.
-/

namespace TestActor

namespace FileSystem

variable {place current other : Place} {first second : FileSystem} {path : Path}

theorem editedAt_put (fs : FileSystem) (place : Place) (entry : Entry) :
    EditedAt place fs (fs.put place entry) :=
  ⟨rfl, fun _ hne => get?_put_of_ne fs entry hne⟩

theorem editedAt_erase (fs : FileSystem) (place : Place) : EditedAt place fs (fs.erase place) :=
  ⟨rfl, fun _ hne => get?_erase_of_ne fs hne⟩

/-- Two file systems, with the given current directory, that differ at most in the bytes of the file
at one place. -/
structure DiffersAt (place current : Place) (first second : FileSystem) : Prop where
  current : first.current = current
  edited : EditedAt place first second
  old : ∃ content, first.get? place = some (.file content)
  new : ∃ content, second.get? place = some (.file content)

namespace DiffersAt

variable (h : DiffersAt place current first second)

include h

theorem ne_root : place ≠ [] := by
  obtain ⟨content, hfile⟩ := h.old
  rintro rfl
  cases hfile

theorem isSome_get? (other : Place) : (second.get? other).isSome = (first.get? other).isSome := by
  by_cases hother : other = place
  · obtain ⟨old, hold⟩ := h.old
    obtain ⟨new, hnew⟩ := h.new
    rw [hother, hold, hnew]
    rfl
  · rw [h.edited.elsewhere other hother]

theorem directory_iff (other : Place) :
    second.get? other = some .directory ↔ first.get? other = some .directory := by
  by_cases hother : other = place
  · obtain ⟨old, hold⟩ := h.old
    obtain ⟨new, hnew⟩ := h.new
    rw [hother, hold, hnew]
    simp
  · rw [h.edited.elsewhere other hother]

/-! ## Paths -/

theorem step (other : Place) (name : String) : second.step other name = first.step other name := by
  unfold FileSystem.step
  by_cases hother : other = place
  · -- there is a file in both, and no way leads on behind it
    obtain ⟨old, hold⟩ := h.old
    obtain ⟨new, hnew⟩ := h.new
    rw [hother, hold, hnew]
  · rw [h.edited.elsewhere other hother]

theorem walk (other : Place) (names : List String) :
    second.walk other names = first.walk other names := by
  have hstep : second.step = first.step := funext fun p => funext fun name => h.step p name
  unfold FileSystem.walk
  rw [hstep]

theorem start (path : Path) : second.start path = first.start path := by
  unfold FileSystem.start
  rw [h.edited.current]

/-- **A path leads to the same place in both.** -/
theorem follow (path : Path) : second.follow path = first.follow path := by
  unfold FileSystem.follow
  rw [h.start, h.walk]

theorem target (path : Path) : second.target path = first.target path := by
  unfold FileSystem.target
  simp only [h.start, h.walk, h.step]

theorem denoted (path : Path) : second.denoted path = first.denoted path :=
  denoted_congr h.edited.current path

/-! ## Reading -/

theorem isPresent (path : Path) : second.isPresent path = first.isPresent path := by
  unfold FileSystem.isPresent at?
  rw [h.follow]
  cases first.follow path with
  | error failure => rfl
  | ok found => exact h.isSome_get? found

theorem isDirectory (path : Path) : second.isDirectory path = first.isDirectory path := by
  rw [Bool.eq_iff_iff, isDirectory_iff, isDirectory_iff, h.follow]
  simp only [h.directory_iff]

/-- **Every other file is read alike.** -/
theorem read (hpath : first.denoted path ≠ place) : second.read path = first.read path := by
  unfold FileSystem.read
  rw [h.follow]
  cases hfollow : first.follow path with
  | error failure => rfl
  | ok found =>
    have hfound : found ≠ place := by
      rw [eq_denoted_of_follow hfollow]
      exact hpath
    simp only [bind, Except.bind, h.edited.elsewhere found hfound]

theorem text (hpath : first.denoted path ≠ place) : second.text path = first.text path := by
  unfold FileSystem.text
  rw [h.read hpath]

/-! ## Putting and taking away -/

/-- A change at another place, after which the same is there in both. -/
theorem change {first' second' : FileSystem} (hother : other ≠ place)
    (hfirst : EditedAt other first first') (hsecond : EditedAt other second second')
    (hsame : other ≠ [] → second'.get? other = first'.get? other) :
    DiffersAt place current first' second' where
  current := hfirst.current.trans h.current
  edited.current := hsecond.current.trans (h.edited.current.trans hfirst.current.symm)
  edited.elsewhere p hp := by
    by_cases hat : p = other
    · by_cases hroot : other = []
      · simp [hat, hroot, get?]
      · rw [hat]
        exact hsame hroot
    · rw [hsecond.elsewhere p hat, h.edited.elsewhere p hp, hfirst.elsewhere p hat]
  old := by
    rw [hfirst.elsewhere place (Ne.symm hother)]
    exact h.old
  new := by
    rw [hsecond.elsewhere place (Ne.symm hother)]
    exact h.new

theorem put (entry : Entry) (hother : other ≠ place) :
    DiffersAt place current (first.put other entry) (second.put other entry) := by
  refine h.change hother (editedAt_put first other entry) (editedAt_put second other entry) ?_
  intro hroot
  rw [get?_put_self first entry hroot, get?_put_self second entry hroot]

theorem erase (hother : other ≠ place) :
    DiffersAt place current (first.erase other) (second.erase other) := by
  refine h.change hother (editedAt_erase first other) (editedAt_erase second other) ?_
  intro hroot
  rw [get?_erase_self first hroot, get?_erase_self second hroot]

/-- A file may be put at the place itself. -/
theorem put_file (other : Place) (content : ByteArray) :
    DiffersAt place current (first.put other (.file content))
      (second.put other (.file content)) := by
  by_cases hother : other = place
  · subst hother
    refine ⟨h.current, ⟨h.edited.current, fun p hp => ?_⟩, ?_, ?_⟩
    · rw [get?_put_of_ne first _ hp, get?_put_of_ne second _ hp]
      exact h.edited.elsewhere p hp
    · exact ⟨content, get?_put_self first _ h.ne_root⟩
    · exact ⟨content, get?_put_self second _ h.ne_root⟩
  · exact h.put (.file content) hother

end DiffersAt

/-! ## One change -/

/-- Two changes that fail alike, or leave file systems that differ at the place at most. -/
inductive ChangesAlike (place current : Place) :
    Except FileError FileSystem → Except FileError FileSystem → Prop
  | failed (failure : FileError) : ChangesAlike place current (.error failure) (.error failure)
  | changed {left left' : FileSystem} (h : DiffersAt place current left left') :
      ChangesAlike place current (.ok left) (.ok left')

namespace DiffersAt

variable {source destination : Path} (h : DiffersAt place current first second)

include h

theorem makeDirectory (path : Path) :
    ChangesAlike place current (first.makeDirectory path) (second.makeDirectory path) := by
  unfold FileSystem.makeDirectory
  rw [h.target]
  cases first.target path with
  | error failure => exact .failed failure
  | ok found =>
    cases found with
    | none => exact .failed _
    | some other =>
      simp only [bind, Except.bind, h.isSome_get? other]
      by_cases hthere : (first.get? other).isSome
      · rw [if_pos hthere, if_pos hthere]
        exact .failed _
      · rw [if_neg hthere, if_neg hthere]
        have hother : other ≠ place := by
          rintro rfl
          obtain ⟨content, hfile⟩ := h.old
          exact hthere (by rw [hfile]; rfl)
        exact .changed (h.put .directory hother)

theorem write (path : Path) (content : ByteArray) :
    ChangesAlike place current (first.write path content) (second.write path content) := by
  unfold FileSystem.write
  rw [h.target]
  cases first.target path with
  | error failure => exact .failed failure
  | ok found =>
    cases found with
    | none => exact .failed _
    | some other =>
      simp only [bind, Except.bind, h.directory_iff other]
      split
      · exact .failed _
      · exact .changed (h.put_file other content)

/-- Another file is moved alike, also to the place itself. -/
theorem move (hsource : first.denoted source ≠ place) :
    ChangesAlike place current (first.move source destination)
      (second.move source destination) := by
  unfold FileSystem.move
  rw [h.target, h.target]
  cases hold : first.target source with
  | error failure => exact .failed failure
  | ok foundOld =>
    cases first.target destination with
    | error failure => exact .failed failure
    | ok foundNew =>
      cases foundOld with
      | none => exact .failed _
      | some old =>
        cases foundNew with
        | none => exact .failed _
        | some new =>
          have hplace : old ≠ place := by
            rw [eq_denoted_of_target hold]
            exact hsource
          simp only [bind, Except.bind, h.edited.elsewhere old hplace, h.directory_iff new]
          split
          · exact .failed _
          · exact .failed _
          · next content _ =>
            split
            · exact .failed _
            · split
              · exact .failed _
              · split
                · exact .changed h
                · exact .changed ((h.erase hplace).put_file new content)

end DiffersAt

end FileSystem

/-! ## Programs -/

section Programs

open FileSystem

variable {place current : Place} {α β ε δ : Type}

/-- The program gives the same result on file systems that differ only in the bytes of the file at
the place, and it leaves file systems that differ there at most. -/
def BlindTo (place current : Place) (program : StateM FileSystem α) : Prop :=
  ∀ first second, DiffersAt place current first second →
    (program.run second).1 = (program.run first).1 ∧
      DiffersAt place current (program.run first).2 (program.run second).2

namespace BlindTo

theorem pure (a : α) : BlindTo place current (Pure.pure a : StateM FileSystem α) :=
  fun _ _ h => ⟨rfl, h⟩

/-- **A program of blind steps is blind.** -/
theorem bind {program : StateM FileSystem α} {next : α → StateM FileSystem β}
    (hprogram : BlindTo place current program) (hnext : ∀ a, BlindTo place current (next a)) :
    BlindTo place current (program >>= next) := by
  intro first second h
  obtain ⟨hresult, hleft⟩ := hprogram first second h
  have hsecond : (program >>= next).run second
      = (next (program.run first).1).run (program.run second).2 := by
    rw [← hresult]
    rfl
  rw [hsecond]
  exact hnext (program.run first).1 _ _ hleft

theorem attempt {change : FileSystem → Except FileError FileSystem}
    (hchange : ∀ first second, DiffersAt place current first second →
      ChangesAlike place current (change first) (change second)) :
    BlindTo place current (FileSystem.attempt change) := by
  intro first second h
  have halike := hchange first second h
  show (FileSystem.attempt change second).1 = (FileSystem.attempt change first).1 ∧
    DiffersAt place current (FileSystem.attempt change first).2 (FileSystem.attempt change second).2
  unfold FileSystem.attempt
  generalize change first = left at halike ⊢
  generalize change second = left' at halike ⊢
  cases halike with
  | failed failure => exact ⟨rfl, h⟩
  | changed hleft => exact ⟨rfl, hleft⟩

/-- A program that may fail is blind when its steps are. -/
theorem bindExcept {program : ExceptT ε (StateM FileSystem) α}
    {next : α → ExceptT ε (StateM FileSystem) β} (hprogram : BlindTo place current program.run)
    (hnext : ∀ a, BlindTo place current (next a).run) :
    BlindTo place current (program >>= next).run := by
  rw [ExceptT.run_bind]
  refine hprogram.bind fun result => ?_
  cases result with
  | error e => exact .pure _
  | ok a => exact hnext a

theorem adapt {program : ExceptT ε (StateM FileSystem) α} {wrap : ε → δ}
    (hprogram : BlindTo place current program.run) :
    BlindTo place current (program.adapt wrap).run :=
  fun first second h => ⟨congrArg (Except.mapError wrap) (hprogram first second h).1,
    (hprogram first second h).2⟩

theorem runOn {program : ExceptT ε (StateM FileSystem) α} {first second : FileSystem}
    (hprogram : BlindTo place current program.run) (h : DiffersAt place current first second) :
    (TestActor.runOn program second).1 = (TestActor.runOn program first).1 ∧
      DiffersAt place current (TestActor.runOn program first).2
        (TestActor.runOn program second).2 :=
  hprogram first second h

end BlindTo

/-! ## Replacing the file -/

theorem blindTo_unlessDirectory (path : Path) (failure : FileError) :
    BlindTo place current (Disk.unlessDirectory path failure : StateM FileSystem _) := by
  intro first second h
  refine ⟨?_, h⟩
  show (if second.isDirectory path then _ else _) = if first.isDirectory path then _ else _
  rw [h.isDirectory]

theorem blindTo_makeDirectory (path : Path) :
    BlindTo place current (Disk.makeDirectory path : StateM FileSystem _) :=
  .attempt fun _ _ h => h.makeDirectory path

theorem blindTo_makeDirectories (paths : List Path) :
    BlindTo place current (Disk.makeDirectories paths : StateM FileSystem _) := by
  induction paths with
  | nil => exact .pure _
  | cons path parents ih =>
    unfold Disk.makeDirectories
    split
    · exact .pure _
    refine (blindTo_makeDirectory path).bind fun result => ?_
    cases result with
    | ok _ => exact .pure _
    | error failure =>
      cases failure with
      | notFound =>
        refine ih.bind fun result => ?_
        cases result with
        | error failure => exact .pure _
        | ok _ =>
          refine (blindTo_makeDirectory path).bind fun result => ?_
          cases result with
          | ok _ => exact .pure _
          | error failure => exact blindTo_unlessDirectory path failure
      | _ => exact blindTo_unlessDirectory path _

/-- **Replacing a file does not depend on its bytes**, nor on those of any file but the one that is
written beside it. -/
theorem blindTo_replaceFile {path : Path} (text : String)
    (hbeside : ∀ fs : FileSystem, fs.current = current → fs.denoted (Disk.temporary path) ≠ place) :
    BlindTo place current
      (Disk.replaceFile path text : ExceptT Disk.ReplaceError (StateM FileSystem) Unit).run := by
  unfold Disk.replaceFile
  cases path.parent with
  | none => exact .pure _
  | some parent =>
    refine .bindExcept (.adapt (blindTo_makeDirectories parent.ancestors)) fun _ => ?_
    refine .bindExcept (.adapt (.attempt fun _ _ h => h.write _ _)) fun _ => ?_
    exact .adapt (.attempt fun first _ h => h.move (hbeside first h.current))

end Programs

end TestActor
