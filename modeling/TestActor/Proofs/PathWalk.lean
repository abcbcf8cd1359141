import TestActor.FileSystem
import TestActor.Proofs.FirstError

/-!
# Where paths lead

A path denotes one place, whatever the files are: every name leads on from the place before it.
Following the path leads to that place or fails, because something on the way is no directory.

A change that leaves the directories as they are therefore leaves the way of every path that can be
followed, and a file that is not changed is read as before.

## Main statements

* `FileSystem.eq_denoted_of_follow`: a path that can be followed leads to the place it denotes.
* `FileSystem.Kept.follow`: a path that can be followed leads to the same place after a change.
* `FileSystem.Kept.read`: a file is read as before after a change of other places.
-/

namespace TestActor.FileSystem

variable {fs before middle after : FileSystem} {path : Path} {place next last : Place}
  {name : String} {names : List String}

/-! ## Places that paths denote -/

/-- The place that a name leads to. -/
def along (place : Place) (name : String) : Place :=
  if name = "." then place else if name = ".." then place.tail else name :: place

/-- The place that a path denotes. -/
def denoted (fs : FileSystem) (path : Path) : Place :=
  path.names.foldl along (fs.start path)

/-- May a name be gone along? -/
def IsName (name : String) : Prop :=
  name = "." ∨ name = ".." ∨ name.utf8ByteSize ≤ 255

theorem step_eq_ok_iff :
    fs.step place name = .ok next ↔
      fs.get? place = some .directory ∧ IsName name ∧ next = along place name := by
  unfold step along IsName
  cases hplace : fs.get? place with
  | none => simp
  | some entry =>
    cases entry with
    | file content => simp
    | directory =>
      by_cases hdot : name = "."
      · simp [hdot, eq_comm]
      · by_cases hdots : name = ".."
        · simp [hdots, eq_comm]
        · by_cases hlong : 255 < name.utf8ByteSize
          · simp [hdot, hdots, hlong, Nat.not_le_of_lt hlong]
          · simp [hdot, hdots, hlong, Nat.le_of_not_lt hlong, eq_comm]

theorem walk_cons_eq_ok_iff :
    fs.walk place (name :: names) = .ok last ↔
      ∃ next, fs.step place name = .ok next ∧ fs.walk next names = .ok last := by
  unfold walk
  rw [List.foldlM_cons]
  exact bind_eq_ok_iff

theorem walk_append_eq_ok_iff {more : List String} :
    fs.walk place (names ++ more) = .ok last ↔
      ∃ next, fs.walk place names = .ok next ∧ fs.walk next more = .ok last := by
  unfold walk
  rw [List.foldlM_append]
  exact bind_eq_ok_iff

theorem walk_singleton : fs.walk place [name] = fs.step place name := by
  unfold walk
  rw [List.foldlM_cons]
  cases fs.step place name <;> rfl

theorem eq_foldl_of_walk (h : fs.walk place names = .ok last) : last = names.foldl along place := by
  induction names generalizing place with
  | nil => exact (Except.ok.inj h).symm
  | cons name names ih =>
    obtain ⟨next, hstep, hrest⟩ := walk_cons_eq_ok_iff.mp h
    obtain ⟨-, -, rfl⟩ := step_eq_ok_iff.mp hstep
    exact ih hrest

/-- The name behind a slash at the end of a path leads nowhere else. -/
theorem foldl_along_slash (slash : Bool) :
    (if slash then ["."] else []).foldl along place = place := by
  cases slash <;> rfl

/-- **A path that can be followed leads to the place it denotes.** -/
theorem eq_denoted_of_follow (h : fs.follow path = .ok place) : place = fs.denoted path := by
  obtain ⟨⟨⟩, -, hwalk⟩ := bind_eq_ok_iff.mp h
  rw [eq_foldl_of_walk hwalk, List.foldl_append, foldl_along_slash]
  rfl

/-- What is known of a path whose last name names a place: the path is no refused one, and going
along its names leads to the place, which is not the root. -/
theorem walk_of_target (h : fs.target path = .ok (some place)) :
    checked path = .ok () ∧ place ≠ [] ∧ fs.walk (fs.start path) path.names = .ok place := by
  obtain ⟨⟨⟩, hchecked, h⟩ := bind_eq_ok_iff.mp h
  split at h
  · cases h
  · next name hlast =>
    obtain ⟨directory, hwalk, h⟩ := bind_eq_ok_iff.mp h
    obtain ⟨next, hstep, h⟩ := bind_eq_ok_iff.mp h
    obtain ⟨names, hnames⟩ := List.getLast?_eq_some_iff.mp hlast
    by_cases hdots : name = "." ∨ name = ".."
    · rw [if_pos hdots] at h
      cases h
    · rw [if_neg hdots] at h
      cases h
      refine ⟨hchecked, ?_, ?_⟩
      · obtain ⟨-, -, rfl⟩ := step_eq_ok_iff.mp hstep
        rw [along, if_neg fun he => hdots (.inl he), if_neg fun he => hdots (.inr he)]
        exact List.cons_ne_nil name directory
      · rw [hnames, List.dropLast_concat] at hwalk
        rw [hnames, walk_append_eq_ok_iff]
        exact ⟨directory, hwalk, walk_singleton.trans hstep⟩

theorem eq_denoted_of_target (h : fs.target path = .ok (some place)) : place = fs.denoted path :=
  eq_foldl_of_walk (walk_of_target h).2.2

/-- Without a slash at its end a path leads to what its last name names. -/
theorem follow_of_target (h : fs.target path = .ok (some place)) (hslash : ¬ path.endsInSlash) :
    fs.follow path = .ok place := by
  obtain ⟨hchecked, -, hwalk⟩ := walk_of_target h
  refine bind_eq_ok_iff.mpr ⟨(), hchecked, ?_⟩
  rw [if_neg hslash, List.append_nil]
  exact hwalk

/-! ## What a change keeps -/

/-- A change that leaves all directories where they are, and everything that is there outside the
touched places. -/
structure Kept (touched : List Place) (before after : FileSystem) : Prop where
  current : after.current = before.current
  directory : ∀ place, before.get? place = some .directory → after.get? place = some .directory
  entry : ∀ place entry, place ∉ touched → before.get? place = some entry →
    after.get? place = some entry

namespace Kept

variable {touched more : List Place}

theorem refl (touched : List Place) (fs : FileSystem) : Kept touched fs fs :=
  ⟨rfl, fun _ h => h, fun _ _ _ h => h⟩

theorem trans (h₁ : Kept touched before middle) (h₂ : Kept touched middle after) :
    Kept touched before after where
  current := h₂.current.trans h₁.current
  directory place h := h₂.directory place (h₁.directory place h)
  entry place entry hplace h := h₂.entry place entry hplace (h₁.entry place entry hplace h)

theorem mono (h : Kept touched before after) (hsub : touched ⊆ more) : Kept more before after where
  current := h.current
  directory := h.directory
  entry place entry hplace := h.entry place entry fun hmem => hplace (hsub hmem)

theorem start (h : Kept touched before after) (path : Path) :
    after.start path = before.start path := by
  unfold FileSystem.start
  rw [h.current]

theorem denoted (h : Kept touched before after) (path : Path) :
    after.denoted path = before.denoted path := by
  unfold FileSystem.denoted
  rw [h.start]

theorem step (h : Kept touched before after) (hstep : before.step place name = .ok next) :
    after.step place name = .ok next := by
  obtain ⟨hplace, hname, hnext⟩ := step_eq_ok_iff.mp hstep
  exact step_eq_ok_iff.mpr ⟨h.directory place hplace, hname, hnext⟩

theorem walk (h : Kept touched before after) (hwalk : before.walk place names = .ok last) :
    after.walk place names = .ok last := by
  -- every place on the way is a directory before, and so it is one after
  induction names generalizing place with
  | nil => exact hwalk
  | cons name names ih =>
    obtain ⟨next, hstep, hrest⟩ := walk_cons_eq_ok_iff.mp hwalk
    exact walk_cons_eq_ok_iff.mpr ⟨next, h.step hstep, ih hrest⟩

/-- **A path that can be followed leads to the same place.** -/
theorem follow (h : Kept touched before after) (hfollow : before.follow path = .ok place) :
    after.follow path = .ok place := by
  obtain ⟨⟨⟩, hchecked, hwalk⟩ := bind_eq_ok_iff.mp hfollow
  refine bind_eq_ok_iff.mpr ⟨(), hchecked, ?_⟩
  rw [h.start]
  exact h.walk hwalk

end Kept

/-! ## Reading -/

theorem read_eq_ok_iff {content : ByteArray} :
    fs.read path = .ok content ↔
      ∃ place, fs.follow path = .ok place ∧ fs.get? place = some (.file content) := by
  unfold read
  rw [bind_eq_ok_iff]
  refine exists_congr fun place => and_congr_right fun _ => ?_
  split
  · next h => simp [h]
  · next h => simp [h]
  · next h => simp [h]

/-- A file that can be read is at the place that its path denotes. -/
theorem file_of_read {content : ByteArray} (h : fs.read path = .ok content) :
    fs.follow path = .ok (fs.denoted path) ∧
      fs.get? (fs.denoted path) = some (.file content) := by
  obtain ⟨place, hfollow, hfile⟩ := read_eq_ok_iff.mp h
  obtain rfl := eq_denoted_of_follow hfollow
  exact ⟨hfollow, hfile⟩

/-- **A file outside the touched places is read as before.** -/
theorem Kept.read {touched : List Place} {content : ByteArray} (h : Kept touched before after)
    (houtside : before.denoted path ∉ touched) (hread : before.read path = .ok content) :
    after.read path = .ok content := by
  obtain ⟨hfollow, hfile⟩ := file_of_read hread
  exact read_eq_ok_iff.mpr ⟨_, h.follow hfollow, h.entry _ _ houtside hfile⟩

end TestActor.FileSystem
