/-
# The machine that operations run on

An operation takes a machine and gives its result with the machine as it is afterwards.  Beside the
disk a machine has a clock, a limit for the growth of files, the places where programs and packages
are looked for, and a runner that answers when a program is called.  Every call is kept with the disk
as it was then.
-/
import PackageRefs.Disk.Source

namespace PackageRefs

open PackageRefs.Disk PackageRefs.Text

/-- A call of a program. -/
structure Command where
  program : String
  arguments : List String
  deriving DecidableEq, Inhabited, Repr

/-- How a called program ended. -/
structure Output where
  code : Int
  stdout : Bytes
  stderr : Bytes
  deriving DecidableEq, Inhabited, Repr

namespace Output

/-- The program reports success. -/
def succeeded (output : Output) : Bool := output.code == 0

/-- What the program printed, as text. -/
def text (output : Output) : String := decodeLossy output.stdout

/-- What the program complained about, as text. -/
def complaint (output : Output) : String := decodeLossy output.stderr

end Output

/-- An answer that is prepared for a call. -/
inductive Answer where
  /-- the program runs; it may write the file that it is told to write -/
  | runs (output : Output) (writes : Option Bytes)
  /-- the program cannot be started -/
  | refuses (error : FileError)
  deriving DecidableEq, Inhabited

/-- Who answers when a program is called. -/
inductive Runner where
  /-- the programs on the disk -/
  | installed
  /-- prepared answers, one for each call -/
  | prepared (answers : List Answer)
  deriving DecidableEq, Inhabited

/-- A call that was made, and the disk at that time. -/
structure Call where
  command : Command
  disk : Disk

/-- What operations run on. -/
structure Machine where
  disk : Disk := {}
  /-- No file can grow past so many bytes. -/
  limit : Option Nat := none
  /-- The time in milliseconds. -/
  clock : Nat := 0
  /-- What makes the name of the next temporary file a new one. -/
  freshPart : String := "0"
  /-- The directories in which programs are looked for. -/
  programPath : List String := []
  /-- The search path for packages, if there is one. -/
  packagePath : Option String := none
  runner : Runner := .installed
  /-- The calls made so far, the last one first. -/
  calls : List Call := []

/-- What an operation gives: its result, and the machine afterwards. -/
abbrev Result (α : Type) := Except Failure α × Machine

/-- A way of running programs: how a call is answered, and the machine afterwards. -/
abbrev Running := Machine → Command → Except FileError Output × Machine

namespace Machine

/-- The working directory as a path. -/
def workingPath (m : Machine) : String := pathFromTop m.disk.working

/-- Writes a file anew, as far as the limit allows. -/
def write (m : Machine) (path : String) (bytes : Bytes) : Option FileError × Machine :=
  let (disk, error) := m.disk.write m.limit path bytes
  (error, { m with disk })

/-- Copies a file, as far as the limit allows. -/
def copy (m : Machine) (source target : String) : Option FileError × Machine :=
  let (disk, error) := m.disk.copy m.limit source target
  (error, { m with disk })

/-- Deletes a file, if it is there. -/
def delete (m : Machine) (path : String) : Machine := { m with disk := m.disk.remove path }

/-- Writes a text into the file of an operation. -/
def save (m : Machine) (file text : String) : Result Unit :=
  match m.write file (encode text) with
  | (some e, m) => (.error (.file file e), m)
  | (none, m) => (.ok (), m)

end Machine

end PackageRefs
