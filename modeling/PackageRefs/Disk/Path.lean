/-
# Paths

A path is a text.  Joining two paths, and making one absolute, only looks at the text; what a path
leads to is the business of the disk.
-/

namespace PackageRefs.Disk

/-- The path leads from the top. -/
def isAbsolute (path : String) : Bool := path.toList.head? == some '/'

/-- The second path, seen from the first. -/
def join (base path : String) : String :=
  if isAbsolute path || base.isEmpty then path
  else if base.toList.getLast? == some '/' then base ++ path
  else base ++ "/" ++ path

/-- The parts of a path between slashes. -/
def splitPath : List Char → List (List Char)
  | [] => [[]]
  | c :: r =>
    if c == '/' then [] :: splitPath r
    else
      match splitPath r with
      | p :: ps => (c :: p) :: ps
      | [] => [[c]]

/-- The names in a path; empty parts and single dots are left out. -/
def pathNames (path : String) : List String :=
  ((splitPath path.toList).filter fun p => !p.isEmpty && p != ['.']).map String.ofList

/-- The names of a path as seen from the top, given those of the working directory; double dots
stay. -/
def absoluteNames (working : List String) (path : String) : List String :=
  if isAbsolute path then pathNames path else working ++ pathNames path

/-- The path from the top that consists of the names. -/
def pathFromTop (names : List String) : String := "/" ++ String.intercalate "/" names

/-- All directories above a list of names, the innermost first. -/
def directoriesAbove : List String → List (List String)
  | [] => []
  | names@(_ :: _) =>
    (List.range names.length).reverse.map names.take

end PackageRefs.Disk
