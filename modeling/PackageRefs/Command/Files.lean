/-
# The files that a command looks at

Before a command is run, the files that it may read have to be on the machine's disk.  Which these
are can depend on the content of one of them: an analysis reads the script first, and then the
manifests of the packages that the script mentions.
-/
import PackageRefs.Command.Run

namespace PackageRefs.Command

open PackageRefs.Package

/-- The paths that a command may read, as far as the disk tells so far. -/
def Invocation.files (m : Machine) : Invocation → List String
  | analyze file root threshold =>
    let lookup := Lookup.ofSearchPath root m.packagePath
    match analyzeFile m file threshold with
    | .ok analysis => file :: analysis.references.flatMap lookup.candidates
    | .error _ => [file]
  | remove file .. => [file]
  | format file _ => [file]
  | bundle packages .. => packages.flatMap (Lookup.ofSearchPath "." m.packagePath).candidates

end PackageRefs.Command
