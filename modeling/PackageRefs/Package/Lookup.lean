/-
# Looking up installed versions

The version of a package stands in its manifest.  A lookup knows the places where packages are
installed: below the project's root, among the published types, and in further directories.  The
first manifest that is there decides, even if nothing can be read from it.
-/
import PackageRefs.Disk.Basic
import PackageRefs.Package.Manifest
import PackageRefs.Package.Name

namespace PackageRefs.Package

open PackageRefs.Disk

/-- Where packages are looked for. -/
structure Lookup where
  /-- the project's root -/
  root : String := "."
  /-- further directories that hold packages -/
  directories : List String := []
  deriving DecidableEq, Inhabited, Repr

/-- The directories of a search path: the parts between colons, without empty ones. -/
def searchDirectories (path : String) : List String :=
  ((parts path.toList).filter fun p => !p.isEmpty).map String.ofList
where
  /-- The parts of a text between colons. -/
  parts : List Char → List (List Char)
    | [] => [[]]
    | c :: r =>
      if c == ':' then [] :: parts r
      else
        match parts r with
        | p :: ps => (c :: p) :: ps
        | [] => [[c]]

/-- What stands for a version that cannot be found out. -/
def unknownVersion : String := "unknown version"

/-- The name of a manifest. -/
def manifestName : String := "package.json"

namespace Lookup

/-- The lookup from a root, given the search path if there is one. -/
def ofSearchPath (root : String) (path : Option String) : Lookup :=
  ⟨root, (path.map searchDirectories).getD []⟩

/-- The directory of a project's installed packages. -/
def installed (lookup : Lookup) : String := join lookup.root "node_modules"

/-- The paths at which the manifest of a package may be, in the order in which they are tried. -/
def candidates (lookup : Lookup) (name : String) : List String :=
  let package := packageRoot name
  join (join lookup.installed package) manifestName ::
    join (join (join lookup.installed "@types") (typesName package)) manifestName ::
    lookup.directories.map fun directory => join (join directory package) manifestName

/-- The installed version of a package. -/
def version (lookup : Lookup) (disk : Disk) (name : String) : String :=
  if isPlausibleName name then
    match (lookup.candidates name).find? disk.isFile with
    | some manifest =>
      match disk.readText manifest with
      | .ok text => (declaredVersion text).getD unknownVersion
      | .error _ => unknownVersion
    | none => unknownVersion
  else unknownVersion

end Lookup

end PackageRefs.Package
