/-
# Formatting or minifying a file

The file is read, given a new text as a whole, and written in its place.
-/
import PackageRefs.Format.Formatter
import PackageRefs.Format.Minify

namespace PackageRefs.Format

open PackageRefs.Disk

/-- What to do with a file. -/
structure FormatRequest where
  file : String
  minify : Bool := false
  deriving DecidableEq, Inhabited, Repr

/-- A file that was formatted or minified; the sizes are in bytes. -/
structure FormatOutcome where
  file : String
  mode : Mode
  before : Nat
  after : Nat
  deriving DecidableEq, Inhabited, Repr

namespace FormatRequest

/-- The new text of a file whose text is the source. -/
def newText (request : FormatRequest) (source : String) (m : Machine) : Result (Mode × String) :=
  if request.minify then
    match minifySource request.file source with
    | .ok text => (.ok (.minified, text), m)
    | .error e => (.error e, m)
  else
    match m.locateTool prettier.name "." with
    | none => (.error (.missingTool prettier), m)
    | some binary => formatSource binary request.file source m

/-- Formats or minifies a file. -/
def run (request : FormatRequest) (m : Machine) : Result FormatOutcome :=
  match m.disk.readSource request.file with
  | .error e => (.error e, m)
  | .ok source =>
    match request.newText source m with
    | (.error e, m) => (.error e, m)
    | (.ok (mode, text), m) =>
      match m.save request.file text with
      | (.error e, m) => (.error e, m)
      | (.ok (), m) =>
        (.ok ⟨request.file, mode, source.utf8ByteSize, text.utf8ByteSize⟩, m)

end FormatRequest

end PackageRefs.Format
