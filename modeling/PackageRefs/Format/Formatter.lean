/-
# Calling the formatter

The formatter prints the formatted file.  If it fails with the parser for the file's own language,
it is called once more with the general one; if that fails too, the first failure counts.
-/
import PackageRefs.Format.Style
import PackageRefs.Machine.Program
import PackageRefs.Reference.Node
import PackageRefs.Text.Line

namespace PackageRefs.Format

open PackageRefs.Disk PackageRefs.Text

/-- The formatter. -/
def prettier : Tool := ⟨"prettier", "npm i -D prettier"⟩

/-! ## 1. One call -/

/-- The arguments for the default style. -/
def defaultStyle : List String := [
  "--no-config",
  "--tab-width", "2",
  "--semi",
  "--single-quote",
  "--trailing-comma", "all",
  "--print-width", "100",
  "--arrow-parens", "avoid"]

/-- The arguments for a style. -/
def Style.arguments : Style → List String
  | project _ => []
  | defaults => defaultStyle

/-- The arguments for a parser. -/
def parserArguments : Option String → List String
  | some parser => ["--parser", parser]
  | none => []

/-- The call that formats a file. -/
def formatCommand (binary file : String) (parser : Option String) (style : Style) : Command :=
  ⟨binary, parserArguments parser ++ style.arguments ++ [file]⟩

/-- What to do about a complaint of the formatter. -/
def hintFor (complaint : String) : Option String :=
  let mentions (phrase : String) : Bool := occursIn phrase.toList complaint.toList
  if mentions "SyntaxError" then some "Fix the syntax error in the file and try again"
  else if mentions "No parser could be inferred" || mentions "No parser and no file path" then
    some ("Use a file extension prettier recognizes, " ++
      "or set a parser override in the prettier config")
  else none

/-- The failure of a formatter that ended with a complaint. -/
def complaintFailure (complaint : String) : Failure :=
  let text := match trimmed complaint.toList with
    | [] => "prettier exited with an error"
    | line => String.ofList (firstLine line)
  .transform "format" text (hintFor complaint)

/-- The failure of a formatter that could not be started. -/
def startFailure (binary : String) : FileError → Failure
  | .notFound => .missingTool prettier
  | error => .file binary error

/-- Calls the formatter and gives what it printed. -/
def callFormatter (binary file : String) (parser : Option String) (style : Style) (m : Machine) :
    Result String :=
  match m.run (formatCommand binary file parser style) with
  | (.error e, m) => (.error (startFailure binary e), m)
  | (.ok output, m) =>
    if output.succeeded then (.ok output.text, m)
    else (.error (complaintFailure output.complaint), m)

/-! ## 2. At most two calls -/

/-- How a file got its new text. -/
inductive Mode where
  | minified
  /-- formatted in a style, with a parser unless the formatter chose one -/
  | formatted (style : Style) (parser : Option String)
  deriving DecidableEq, Inhabited, Repr

/-- A failure after which another parser is worth a try. -/
def retries (parser : Option String) : Failure → Bool
  | .missingTool _ => false
  | _ => parser != some generalParser

/-- Formats a file, and gives the parser that did it and what was printed. -/
def formatTwice (binary file : String) (style : Style) (m : Machine) :
    Result (Option String × String) :=
  let parser := parserFor file
  match callFormatter binary file parser style m with
  | (.ok output, m) => (.ok (parser, output), m)
  | (.error e, m) =>
    if retries parser e then
      match callFormatter binary file (some generalParser) style m with
      | (.ok output, m) => (.ok (some generalParser, output), m)
      | (.error _, m) => (.error e, m)
    else (.error e, m)

/-- The failure of a formatter that printed nothing. -/
def nothingPrinted : Failure :=
  .transform "format" "prettier produced no output"
    (some "Check whether the file is listed in .prettierignore")

/-- Formats a file whose text is the source.  A formatter that prints nothing for a source with
something in it has failed. -/
def formatSource (binary file source : String) (m : Machine) : Result (Mode × String) :=
  let style := styleOf m.disk file
  match formatTwice binary file style m with
  | (.error e, m) => (.error e, m)
  | (.ok (parser, output), m) =>
    if isBlankText output && !isBlankText source then (.error nothingPrinted, m)
    else (.ok (.formatted style parser, output), m)

end PackageRefs.Format
