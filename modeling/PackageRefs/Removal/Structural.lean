/-
# Removing references from a script

The script is read, the references are taken out of its tree, and the tree is written again.  Where
reading in the dialect of the file's name fails, a dialect with types is tried once.
-/
import PackageRefs.Removal.Tree
import PackageRefs.Script.Extension
import PackageRefs.Script.Parser
import PackageRefs.Script.Printer

namespace PackageRefs

open PackageRefs.Script

/-- A script after a removal, and how much went. -/
structure Remainder where
  code : String
  count : Nat
  deriving DecidableEq, Inhabited, Repr

/-- What a structural removal gives. -/
inductive StructuralResult where
  /-- nothing in the script matches -/
  | unchanged
  | changed (result : Remainder)
  /-- the script could not be read; the first complaint, if there is one -/
  | unreadable (complaint : Option Diagnostic)
  deriving Inhabited

/-- Reading failed as far as the mode is concerned: an exact removal takes no script that anything
is wrong with, a looser one only needs a tree. -/
def readingFailed (mode : MatchMode) (p : Parsed) : Bool :=
  match mode with
  | .exact => !p.succeeded
  | .substring => p.panicked

/-- Reads a script for a removal: in the dialect of its name, or else in one with types. -/
def readForRemoval (file source : String) (mode : MatchMode) : Parsed × Dialect :=
  let dialect := Dialect.ofPath file
  let first := parse dialect source
  if readingFailed mode first then
    match Dialect.typedRetry file with
    | some retry => (parse retry source, retry)
    | none => (first, dialect)
  else (first, dialect)

/-- Removes the references to a package from a script. -/
def removeStructurally (file source package : String) (mode : MatchMode) : StructuralResult :=
  let (parsed, dialect) := readForRemoval file source mode
  if readingFailed mode parsed then .unreadable parsed.diagnostics.head?
  else
    match parsed.program.remove (mode.accepts · package) with
    | (_, 0) => .unchanged
    | (program, count) => .changed ⟨print .spacious dialect parsed.comments program, count⟩

/-- The wording of a failure to read a script. -/
def unreadableMessage (complaint : Option Diagnostic) : String :=
  match complaint with
  | some d => d.message
  | none => "parser could not recover"

end PackageRefs
