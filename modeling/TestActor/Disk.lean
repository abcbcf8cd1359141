import TestActor.FileError
import TestActor.Path

/-!
# Disks

A disk is whatever files are read from and written to. Programs are written once over any disk:
they run on the one of the machine, and they are reasoned about on a file system that is a value.

## Replacing a file

`replaceFile` writes a file beside its target and then moves it there, so that the target holds
either what it held before or the whole new text.
-/

namespace TestActor

/-- The operations on files. -/
class Disk (m : Type → Type) where
  /-- The whole content of a file. -/
  read : Path → m (Except FileError ByteArray)
  /-- Does the path lead to a file or a directory? -/
  isPresent : Path → m Bool
  /-- Does the path lead to a directory? -/
  isDirectory : Path → m Bool
  /-- Makes one directory. -/
  makeDirectory : Path → m (Except FileError Unit)
  /-- Makes a file or gives it another content. -/
  write : Path → ByteArray → m (Except FileError Unit)
  /-- Moves a file to a path, in the place of a file there. -/
  move : Path → Path → m (Except FileError Unit)

namespace Disk

variable {m : Type → Type} [Monad m] [Disk m]

/-- The content of a file as text. -/
def readText (path : Path) : ExceptT FileError m String := do
  let bytes ← ExceptT.mk (Disk.read path)
  match String.fromUTF8? bytes with
  | none => throw .notText
  | some text => return text

/-- A failure to make a directory, unless a directory is there already. -/
def unlessDirectory (path : Path) (failure : FileError) : m (Except FileError Unit) := do
  return if ← isDirectory path then .ok () else .error failure

/-- Makes the first of the paths, of which each is the parent of the one before it. What is missing
above is made first, and a directory that is there already is no failure. -/
def makeDirectories : List Path → m (Except FileError Unit)
  | [] => return .error .notFound
  | path :: parents => do
    if path.text.isEmpty then return .ok ()
    else
      match ← makeDirectory path with
      | .ok () => return .ok ()
      | .error .notFound =>
        match ← makeDirectories parents with
        | .error failure => return .error failure
        | .ok () =>
          match ← makeDirectory path with
          | .ok () => return .ok ()
          | .error failure => unlessDirectory path failure
      | .error failure => unlessDirectory path failure

/-- What a file is written under before it is moved to its place. -/
def temporary (path : Path) : Path :=
  path.withFileName (path.fileName.getD "" ++ ".tmp")

/-- The steps of replacing a file, as a failure names them. -/
inductive ReplaceStep where
  | createDirectory (path : Path)
  | writeTemporary (path : Path)
  | replace (path : Path)
  deriving DecidableEq

/-- Why a file could not be replaced. -/
inductive ReplaceError where
  /-- The path has no parent. -/
  | noParent (path : Path)
  | failed (step : ReplaceStep) (failure : FileError)
  deriving DecidableEq

/-- Gives a file a new content, and makes the directories above it as needed. -/
def replaceFile (path : Path) (content : String) : ExceptT ReplaceError m Unit := do
  match path.parent with
  | none => throw (.noParent path)
  | some parent =>
    (ExceptT.mk (makeDirectories parent.ancestors)).adapt (.failed (.createDirectory parent))
    (ExceptT.mk (Disk.write (temporary path) content.toUTF8)).adapt
      (.failed (.writeTemporary (temporary path)))
    (ExceptT.mk (Disk.move (temporary path) path)).adapt (.failed (.replace path))

end Disk

end TestActor
