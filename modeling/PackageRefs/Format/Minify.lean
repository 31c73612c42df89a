/-
# Minifying a script

Only scripts are minified, and only those that can be read without a complaint.  A script is
compressed, its variables get short names, infinite numbers are written by name, and the rest is
printed without blanks and comments.
-/
import PackageRefs.Failure
import PackageRefs.Format.Style
import PackageRefs.Removal.Structural
import PackageRefs.Script.Compress
import PackageRefs.Script.Infinity
import PackageRefs.Script.ShortName

namespace PackageRefs.Format

open PackageRefs.Script

/-- The failure of a file that is no script. -/
def notAScript (ext : String) : Failure :=
  .transform "minify" ("cannot minify ." ++ ext ++ " files")
    (some "Only JavaScript and TypeScript files can be minified")

/-- The failure of a script that could not be read. -/
def syntaxFailure (complaint : Option Diagnostic) : Failure :=
  .transform "minify" (unreadableMessage complaint) (some "Fix the syntax error and try again")

/-- The file's extension, if it is not that of a script. -/
def foreignExtension? (file : String) : Option String :=
  (extension? file).filter fun ext => !Dialect.extensions.contains (smallLetters ext)

/-- The tree of a script in its shortest form. -/
def minified (dialect : Dialect) (program : Tree) : Tree :=
  (program.numbered.compressed dialect.isModule).withShortNames.restoreInfinity

/-- Minifies the script of a file. -/
def minifySource (file source : String) : Except Failure String :=
  match foreignExtension? file with
  | some ext => .error (notAScript ext)
  | none =>
    let dialect := Dialect.ofPath file
    let parsed := parse dialect source
    if parsed.succeeded then .ok (print .compact dialect [] (minified dialect parsed.program))
    else .error (syntaxFailure parsed.diagnostics.head?)

end PackageRefs.Format
