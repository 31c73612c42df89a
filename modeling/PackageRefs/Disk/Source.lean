/-
# Reading a source file

A path at which nothing is found is a failure of its own; every other trouble is reported as the disk
reports it.
-/
import PackageRefs.Failure

namespace PackageRefs.Disk

/-- The text of a source file. -/
def readSource (disk : Disk) (file : String) : Except Failure String :=
  if disk.exists? file then
    match disk.readText file with
    | .ok text => .ok text
    | .error e => .error (.file file e)
  else .error (.missingFile file)

end PackageRefs.Disk
