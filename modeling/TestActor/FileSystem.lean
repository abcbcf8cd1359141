import TestActor.Disk

/-!
# File systems as values

A file system is a set of places, each with a file or a directory, and a current directory. A place
is given by the names from it up to the root. Paths are followed name by name: a single dot stays,
two dots lead upwards, and everything that is passed on the way has to be a directory.

## What is left out

There are no links: what is at a place is a file or a directory. A write succeeds as a whole or
changes nothing; that it fails half way for want of space is left out. Nobody else changes the files
while a program runs, and whoever runs it may read and write all of them.
-/

namespace TestActor

/-- The names from a place up to the root, its own name first. -/
abbrev Place := List String

/-- What is at a place. -/
inductive Entry where
  | file (content : ByteArray)
  | directory

instance : DecidableEq Entry
  | .file a, .file b =>
    match ByteArray.instDecidableEq a b with
    | isTrue h => isTrue (congrArg Entry.file h)
    | isFalse h => isFalse fun he => h (Entry.file.inj he)
  | .file _, .directory => isFalse Entry.noConfusion
  | .directory, .file _ => isFalse Entry.noConfusion
  | .directory, .directory => isTrue rfl

/-- Places with what is there, and the current directory. -/
structure FileSystem where
  entries : List (Place × Entry)
  current : Place

namespace FileSystem

/-- What is at a place; the root is a directory. -/
def get? (fs : FileSystem) (place : Place) : Option Entry :=
  if place = [] then some .directory else fs.entries.lookup place

/-- Puts something at a place, instead of what is there. -/
def put (fs : FileSystem) (place : Place) (entry : Entry) : FileSystem :=
  { fs with entries := (place, entry) :: fs.entries.filter (·.1 != place) }

/-- Takes away what is at a place. -/
def erase (fs : FileSystem) (place : Place) : FileSystem :=
  { fs with entries := fs.entries.filter (·.1 != place) }

/-- What was put at a place is there. -/
theorem get?_put_self (fs : FileSystem) {place : Place} (entry : Entry) (h : place ≠ []) :
    (fs.put place entry).get? place = some entry := by
  simp [get?, put, h]

theorem lookup_filter_ne {place other : Place} (entries : List (Place × Entry))
    (h : other ≠ place) :
    (entries.filter (·.1 != place)).lookup other = entries.lookup other := by
  induction entries with
  | nil => rfl
  | cons e rest ih =>
    obtain ⟨p, entry⟩ := e
    by_cases hp : p = place
    · have ho : (other == p) = false := by simpa [hp] using h
      rw [List.filter_cons_of_neg (by simp [hp]), ih, List.lookup_cons, ho]
    · rw [List.filter_cons_of_pos (by simp [hp]), List.lookup_cons, List.lookup_cons, ih]

/-- Every other place is as it was. -/
theorem get?_put_of_ne (fs : FileSystem) {place other : Place} (entry : Entry)
    (h : other ≠ place) : (fs.put place entry).get? other = fs.get? other := by
  have ho : (other == place) = false := by simpa using h
  simp only [get?, put, List.lookup_cons, ho, lookup_filter_ne fs.entries h]

/-- Nothing is left at a place that was emptied. -/
theorem get?_erase_self (fs : FileSystem) {place : Place} (h : place ≠ []) :
    (fs.erase place).get? place = none := by
  rw [get?, if_neg h, erase, List.lookup_eq_none_iff]
  intro e he
  have := (List.mem_filter.mp he).2
  simp only [bne_iff_ne, ne_eq] at this
  simpa using fun heq => this heq.symm

/-- Every other place is as it was. -/
theorem get?_erase_of_ne (fs : FileSystem) {place other : Place} (h : other ≠ place) :
    (fs.erase place).get? other = fs.get? other := by
  simp only [get?, erase, lookup_filter_ne fs.entries h]

/-! ## Following paths -/

/-- Goes one name further. -/
def step (fs : FileSystem) (place : Place) (name : String) : Except FileError Place :=
  match fs.get? place with
  | none => .error .notFound
  | some (.file _) => .error .notDirectory
  | some .directory =>
    if name = "." then .ok place
    else if name = ".." then .ok place.tail
    else if 255 < name.utf8ByteSize then .error .nameTooLong
    else .ok (name :: place)

/-- Goes along names. -/
def walk (fs : FileSystem) (place : Place) (names : List String) : Except FileError Place :=
  names.foldlM fs.step place

/-- Where a path begins. -/
def start (fs : FileSystem) (path : Path) : Place :=
  if path.isAbsolute then [] else fs.current

/-- Refuses a path that leads nowhere whatever the files are. -/
def checked (path : Path) : Except FileError Unit :=
  if path.text.toList.contains '\x00' then .error .invalidPath
  else if path.text.isEmpty then .error .notFound
  else if 4096 ≤ path.text.utf8ByteSize then .error .nameTooLong
  else .ok ()

/-- The place that a path leads to; nothing need be there. Behind a slash at the end there has to be
a directory. -/
def follow (fs : FileSystem) (path : Path) : Except FileError Place := do
  checked path
  fs.walk (fs.start path) (path.names ++ if path.endsInSlash then ["."] else [])

/-- The place that a path names with its last name; none when it ends in the root or in dots. -/
def target (fs : FileSystem) (path : Path) : Except FileError (Option Place) := do
  checked path
  match path.names.getLast? with
  | none => return none
  | some name => do
    let directory ← fs.walk (fs.start path) path.names.dropLast
    let place ← fs.step directory name
    return if name = "." ∨ name = ".." then none else some place

/-- What a path leads to. -/
def at? (fs : FileSystem) (path : Path) : Option Entry :=
  match fs.follow path with
  | .error _ => none
  | .ok place => fs.get? place

/-! ## Operations -/

/-- The whole content of a file. -/
def read (fs : FileSystem) (path : Path) : Except FileError ByteArray := do
  match fs.get? (← fs.follow path) with
  | none => .error .notFound
  | some .directory => .error .isDirectory
  | some (.file content) => .ok content

/-- Does the path lead to a file or a directory? -/
def isPresent (fs : FileSystem) (path : Path) : Bool :=
  (fs.at? path).isSome

/-- Does the path lead to a directory? -/
def isDirectory (fs : FileSystem) (path : Path) : Bool :=
  fs.at? path == some .directory

/-- Makes one directory. -/
def makeDirectory (fs : FileSystem) (path : Path) : Except FileError FileSystem := do
  match ← fs.target path with
  | none => .error .alreadyExists
  | some place =>
    if (fs.get? place).isSome then .error .alreadyExists else .ok (fs.put place .directory)

/-- Makes a file or gives it another content. -/
def write (fs : FileSystem) (path : Path) (content : ByteArray) :
    Except FileError FileSystem := do
  match ← fs.target path with
  | none => .error .isDirectory
  | some place =>
    if path.endsInSlash ∨ fs.get? place = some .directory then .error .isDirectory
    else .ok (fs.put place (.file content))

/-- Moves a file to a path, in the place of a file there. Directories are not moved. -/
def move (fs : FileSystem) (source destination : Path) : Except FileError FileSystem := do
  match ← fs.target source, ← fs.target destination with
  | some old, some new =>
    match fs.get? old with
    | none => .error .notFound
    | some .directory => .error .isDirectory
    | some (.file content) =>
      if source.endsInSlash ∨ destination.endsInSlash then .error .notDirectory
      else if fs.get? new = some .directory then .error .isDirectory
      else if old = new then .ok fs
      else .ok ((fs.erase old).put new (.file content))
  | _, _ => .error .resourceBusy

/-- Removes a file. -/
def remove (fs : FileSystem) (path : Path) : Except FileError FileSystem := do
  match ← fs.target path with
  | none => .error .isDirectory
  | some place =>
    match fs.get? place with
    | none => .error .notFound
    | some .directory => .error .isDirectory
    | some (.file _) =>
      if path.endsInSlash then .error .notDirectory else .ok (fs.erase place)

/-! ## As a disk -/

/-- Makes a change, or leaves everything as it is when the change fails. -/
def attempt (change : FileSystem → Except FileError FileSystem) :
    StateM FileSystem (Except FileError Unit) := fun fs =>
  match change fs with
  | .error failure => (.error failure, fs)
  | .ok changed => (.ok (), changed)

instance : Disk (StateM FileSystem) where
  read path := fun fs => (fs.read path, fs)
  isPresent path := fun fs => (fs.isPresent path, fs)
  isDirectory path := fun fs => (fs.isDirectory path, fs)
  makeDirectory path := attempt (·.makeDirectory path)
  write path content := attempt (·.write path content)
  move source destination := attempt (·.move source destination)

section Running

variable (fs : FileSystem) (path : Path)

@[simp] theorem run_read :
    StateT.run (Disk.read path : StateM FileSystem (Except FileError ByteArray)) fs
      = pure (fs.read path, fs) := rfl

@[simp] theorem run_isPresent :
    StateT.run (Disk.isPresent path : StateM FileSystem Bool) fs
      = pure (fs.isPresent path, fs) := rfl

@[simp] theorem run_isDirectory :
    StateT.run (Disk.isDirectory path : StateM FileSystem Bool) fs
      = pure (fs.isDirectory path, fs) := rfl

@[simp] theorem run_makeDirectory :
    StateT.run (Disk.makeDirectory path : StateM FileSystem (Except FileError Unit)) fs
      = pure (attempt (·.makeDirectory path) fs) := rfl

@[simp] theorem run_write (content : ByteArray) :
    StateT.run (Disk.write path content : StateM FileSystem (Except FileError Unit)) fs
      = pure (attempt (·.write path content) fs) := rfl

@[simp] theorem run_move (destination : Path) :
    StateT.run (Disk.move path destination : StateM FileSystem (Except FileError Unit)) fs
      = pure (attempt (·.move path destination) fs) := rfl

end Running

/-! ## Listing -/

/-- The names from a directory down to a place below it. -/
def below? (directory place : Place) : Option (List String) :=
  let down := place.reverse
  let top := directory.reverse
  if top.isPrefixOf down && top.length < down.length then some (down.drop top.length) else none

/-- The paths of everything below the current directory, a directory with a slash at its end, in the
order of their characters. -/
def listing (fs : FileSystem) : List String :=
  let paths := fs.entries.filterMap fun (place, entry) =>
    (below? fs.current place).map fun names =>
      "/".intercalate names ++ if entry = .directory then "/" else ""
  paths.mergeSort fun a b => a ≤ b

end FileSystem

end TestActor
