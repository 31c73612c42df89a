/-
# The program

Reads the files that a command looks at, runs the command, and writes back the files that it changed.
All decisions are made by `Command.runCommandLine`; here files are only moved between the real disk
and the value that stands for it.

Other programs are not called.  The disk that is read holds none, so a command that needs a tool
reports it as missing.
-/
import PackageRefs.Command.Files
import Std.Time.DateTime.Timestamp

namespace PackageRefs

open PackageRefs.Disk PackageRefs.Command

/-! ## 1. From the real disk -/

/-- What a path leads to. -/
def entryAt (path : String) : IO (Option Entry) := do
  match ← (IO.FS.readBinFile path).toBaseIO with
  | .ok content => return some (.file content.toList none)
  | .error (.noFileOrDirectory ..) => return none
  | .error _ => return some .directory

/-- The place of a path, with double dots taken away. -/
def placeOfPath (working : Place) (path : String) : Place :=
  (absoluteNames working path).foldl
    (fun place name => if name == ".." then place.dropLast else place ++ [name]) []

/-- The disk with what the paths lead to. -/
def load (disk : Disk) (paths : List String) : IO Disk :=
  paths.foldlM
    (fun disk path => do
      match ← entryAt path with
      | some e =>
        let place := placeOfPath disk.working path
        return (disk.withParents place).set place e
      | none => return disk)
    disk

/-- The machine with the files that a command looks at.  What is read first may name more files. -/
def loadFor (m : Machine) (invocation : Invocation) : IO Machine := do
  let disk ← load m.disk (invocation.files m)
  let m := { m with disk }
  return { m with disk := ← load disk (invocation.files m) }

/-! ## 2. To the real disk -/

/-- Writes the files that have changed, and deletes those that have gone. -/
def store (before after : Disk) : IO Unit := do
  for (place, e) in after.entries do
    match e with
    | .file content _ =>
      if before.entry? place != some e then
        IO.FS.writeBinFile (pathFromTop place) content.toByteArray
    | .directory => pure ()
  for (place, e) in before.entries do
    match e, after.entry? place with
    | .file .., none => IO.FS.removeFile (pathFromTop place)
    | _, _ => pure ()

/-! ## 3. The run -/

/-- Output is coloured on a terminal, and wherever that is asked for. -/
def wantsColour : IO Bool := do
  match ← IO.getEnv "CLICOLOR_FORCE" with
  | some value => return value != "0"
  | none => (← IO.getStdout).isTty

/-- The time by which backups are named: milliseconds since the start of 1970. -/
def unixMilliseconds : IO Nat := do
  return (← Std.Time.Timestamp.now).toMillisecondsSinceUnixEpoch.toInt.toNat

/-- The machine before anything is read. -/
def emptyMachine : IO Machine := do
  return {
    disk := { working := pathNames (← IO.currentDir).toString }
    clock := ← unixMilliseconds
    freshPart := toString (← IO.monoNanosNow)
    packagePath := ← IO.getEnv "NODE_PATH" }

/-- Runs a command line. -/
def runProgram (arguments : List String) : IO UInt32 := do
  let start ← IO.monoMsNow
  let display : Display := ⟨← wantsColour⟩
  let empty ← emptyMachine
  let machine ←
    match readCommandLine arguments with
    | .ok invocation => loadFor empty invocation
    | .error _ => pure empty
  let run := runCommandLine display machine arguments
  store machine.disk run.machine.disk
  IO.eprint run.stderr
  IO.print (run.output display (toString ((← IO.monoMsNow) - start)))
  return run.code.toUInt32

end PackageRefs

/-- The program. -/
def main (arguments : List String) : IO UInt32 := PackageRefs.runProgram arguments
