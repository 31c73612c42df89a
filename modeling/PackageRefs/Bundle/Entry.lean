/-
# The entry of a bundle

The bundler starts from one script that imports every package for its effect.  It lies in the
project, so that the project's own packages are found, and only for the time of one call.
-/
import PackageRefs.Machine.Basic

namespace PackageRefs.Bundle

open PackageRefs.Disk PackageRefs.Text

/-! ## 1. Its text -/

/-- A character as it is written between single quotes. -/
def escapedChar (c : Char) : List Char :=
  if c == '\\' || c == '\'' then ['\\', c] else [c]

/-- A name as it is written between single quotes. -/
def escaped (name : String) : String := String.ofList (name.toList.flatMap escapedChar)

/-- The line that imports one package. -/
def entryLine (name : String) : String := "import '" ++ escaped name ++ "';\n"

/-- The text of an entry. -/
def entrySource (packages : List String) : String := String.join (packages.map entryLine)

/-! ## 2. Its file -/

/-- How the name of an entry starts. -/
def entryStem : String := ".oxipack-entry-"

/-- How the name of an entry ends. -/
def entryExtension : String := ".js"

/-- The name of a new entry. -/
def entryName (m : Machine) : String := entryStem ++ m.freshPart ++ entryExtension

/-- The path of a new entry in a directory, seen from the top. -/
def entryPath (m : Machine) (directory : String) : String :=
  join (join m.workingPath directory) (entryName m)

/-- Writes the entry into a directory and gives its path.  An entry that cannot be written to its end
is deleted. -/
def writeEntry (directory : String) (packages : List String) (m : Machine) : Result String :=
  let path := entryPath m directory
  match m.write path [] with
  | (some e, m) => (.error (.file directory (e.at path)), m)
  | (none, m) =>
    match m.write path (encode (entrySource packages)) with
    | (some e, m) => (.error (.file path (e.at path)), m.delete path)
    | (none, m) => (.ok path, m)

end PackageRefs.Bundle
