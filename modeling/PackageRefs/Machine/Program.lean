/-
# Finding and calling programs

A program that a project has installed for itself is preferred; otherwise it is looked for like any
command.
-/
import PackageRefs.Machine.Basic

namespace PackageRefs

open PackageRefs.Disk PackageRefs.Text

/-! ## 1. The answer to a call -/

/-- How an argument that names the file to write starts. -/
def outfileMark : String := "--outfile="

/-- The file that the arguments tell to write. -/
def outfile? (arguments : List String) : Option String :=
  (arguments.find? fun a => outfileMark.toList.isPrefixOf a.toList).map fun a =>
    String.ofList (a.toList.drop outfileMark.length)

namespace Disk.Program

/-- The output of a program that is called with the arguments. -/
def output (p : Program) (arguments : List String) : Output :=
  let echoed := if p.echoes then arguments.map (fun a => "[" ++ a ++ "]") else []
  ⟨(p.code % 256 : Nat), encode (String.join echoed) ++ p.stdout, p.stderr⟩

end Disk.Program

namespace Machine

/-- Writes what a program writes to the file that it is told to write. -/
def writeOutfile (m : Machine) (arguments : List String) (bytes : Option Bytes) :
    Option FileError × Machine :=
  match bytes, outfile? arguments with
  | some bytes, some path => m.write path bytes
  | _, _ => (none, m)

/-- The answer of a program on the disk. -/
def runInstalled (m : Machine) (command : Command) : Except FileError Output × Machine :=
  match m.disk.lookup command.program with
  | .ok (.file _ (some p)) =>
    let (_, m) := m.writeOutfile command.arguments p.writes
    (.ok (p.output command.arguments), m)
  | .ok _ => (.error .permissionDenied, m)
  | .error e => (.error e, m)

/-- The next answer of those that are prepared. -/
def runPrepared (m : Machine) (command : Command) (answers : List Answer) :
    Except FileError Output × Machine :=
  match answers with
  | [] => (.error (.other "no more runs"), m)
  | answer :: rest =>
    let m := { m with runner := .prepared rest }
    match answer with
    | .refuses e => (.error e, m)
    | .runs output writes =>
      match m.writeOutfile command.arguments writes with
      | (some e, m) => (.error e, m)
      | (none, m) => (.ok output, m)

/-- Calls a program. -/
def run (m : Machine) (command : Command) : Except FileError Output × Machine :=
  let m := { m with calls := ⟨command, m.disk⟩ :: m.calls }
  match m.runner with
  | .installed => m.runInstalled command
  | .prepared answers => m.runPrepared command answers

/-! ## 2. Finding a program -/

/-- The path leads to a program. -/
def isProgram (m : Machine) (path : String) : Bool := (m.disk.program? path).isSome

/-- The path of a command: seen from the working directory if its name has a slash, and otherwise in
the first directory that has it. -/
def findCommand (m : Machine) (name : String) : Option String :=
  if name.isEmpty then none
  else if name.toList.contains '/' then
    let here := match name.toList with
      | '.' :: '/' :: r => String.ofList r
      | _ => name
    some (join m.workingPath here) |>.filter m.isProgram
  else (m.programPath.map (join · name)).find? m.isProgram

/-- The path of a tool: the one that the project has installed, or else the command of its name. -/
def locateTool (m : Machine) (name root : String) : Option String :=
  let own := join (join (join root "node_modules") ".bin") name
  if m.disk.isFile own then some own else m.findCommand name

end Machine

end PackageRefs
