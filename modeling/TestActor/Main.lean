import TestActor.CommandLine

/-!
# The program

The machine's files as a disk, and the entry point.
-/

namespace TestActor

/-- The reason for which the machine refused a file operation. -/
def FileError.ofMachine : IO.Error → FileError
  | .noFileOrDirectory .. => .notFound
  | .noSuchThing .. => .notFound
  | .alreadyExists .. => .alreadyExists
  | .inappropriateType _ code _ => if code = 21 then .isDirectory else .notDirectory
  | .resourceBusy .. => .resourceBusy
  | _ => .invalidPath

/-- Runs a file operation of the machine. -/
def onMachine {α : Type} (operation : IO α) : IO (Except FileError α) := do
  try
    return .ok (← operation)
  catch failure =>
    return .error (.ofMachine failure)

/-- The answer of the machine to a question about a file; none is taken for no. -/
def asked (question : IO Bool) : IO Bool := do
  try question catch _ => return false

instance : Disk IO where
  read path := onMachine (IO.FS.readBinFile path.text)
  isPresent path := asked do (← IO.FS.realPath path.text).pathExists
  isDirectory path := asked do (← IO.FS.realPath path.text).isDir
  makeDirectory path := onMachine (IO.FS.createDir path.text)
  write path content := onMachine (IO.FS.writeBinFile path.text content)
  move source destination := onMachine (IO.FS.rename source.text destination.text)

end TestActor

/-- Runs the program on the machine's files. -/
def main (arguments : List String) : IO UInt32 := do
  let result ← TestActor.CommandLine.run arguments
  IO.print result.stdout
  IO.eprint result.stderr
  return UInt32.ofNat result.code
