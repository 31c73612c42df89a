/-
# File names and the dialects they announce

The extension of a file is what follows the last dot of its name, unless that dot starts the name.
It decides the dialect in which a script is read.
-/
import PackageRefs.Script.Dialect

namespace PackageRefs.Script

/-! ## 1. The name of a file and its extension -/

/-- The parts of a path between slashes. -/
def pathParts : List Char → List (List Char)
  | [] => [[]]
  | '/' :: r => [] :: pathParts r
  | c :: r =>
    match pathParts r with
    | p :: ps => (c :: p) :: ps
    | [] => [[c]]

/-- The last part of a path, looking past empty parts and single dots; a path that ends in two dots
has none. -/
def fileName? (path : String) : Option (List Char) :=
  match ((pathParts path.toList).filter fun p => !p.isEmpty && p != ['.']).getLast? with
  | some ['.', '.'] => none
  | some name => some name
  | none => none

/-- What follows the last dot of a name; the dot may not be the name's first character. -/
def extension? (path : String) : Option String :=
  match fileName? path with
  | none => none
  | some name =>
    let after := name.reverse.takeWhile (· != '.')
    if after.length == name.length || after.length + 1 == name.length then none
    else some (String.ofList after.reverse)

/-! ## 2. The dialect of a file -/

namespace Dialect

/-- The extensions of scripts with types. -/
def typedExtensions : List String := ["ts", "tsx", "mts", "cts"]

/-- The extensions of all scripts. -/
def extensions : List String := typedExtensions ++ ["js", "jsx", "mjs", "cjs"]

/-- The dialect of a file with the extension.  Markup may be written in scripts without types, where
it cannot be mistaken for a cast; with types it takes an extension of its own. -/
def ofExtension (ext : Option String) : Dialect :=
  let typescript := ext.any typedExtensions.contains
  { typescript
    jsx := !typescript || ext == some "tsx"
    isModule := !(ext == some "cjs" || ext == some "cts") }

/-- The dialect of a file. -/
def ofPath (path : String) : Dialect := ofExtension (extension? path)

/-- The dialect with types to try after reading in a first dialect has failed; there is none when
the first had both types and markup. -/
def typedRetry (path : String) : Option Dialect :=
  let first := ofPath path
  if first.typescript && first.jsx then none
  else
    let markup := first.typescript || extension? path == some "jsx"
    some { typescript := true, jsx := markup, isModule := first.isModule }

end Dialect

end PackageRefs.Script
