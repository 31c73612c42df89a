/-
# Reports

What is printed after an operation.  Every report is a text made of whole lines.
-/
import PackageRefs.Bundle.Build
import PackageRefs.Format.File
import PackageRefs.Reference.Analysis
import PackageRefs.Removal.File
import PackageRefs.Report.Ink
import PackageRefs.Report.Size

namespace PackageRefs.Report

open PackageRefs.Disk PackageRefs.Package PackageRefs.Format PackageRefs.Bundle

/-! ## 1. Parts of reports -/

/-- The sign before a success. -/
def tick (colour : Bool) : String := Ink.boldGreen.paint colour "✓"

/-- The sign before a failure. -/
def cross (colour : Bool) : String := Ink.boldRed.paint colour "✗"

/-- The sign before a warning. -/
def warning (colour : Bool) : String := Ink.boldYellow.paint colour "⚠"

/-- The sign before a notice. -/
def bullet (colour : Bool) : String := Ink.brightBlue.paint colour "●"

/-- A number. -/
def number (colour : Bool) (n : Int) : String := Ink.cyan.paint colour (toString n)

/-- A path. -/
def path (colour : Bool) (file : String) : String := Ink.blue.paint colour file

/-- A line that says what could be done. -/
def hintLine (colour : Bool) (text : String) : String :=
  "  " ++ Ink.dimmed.paint colour "hint:" ++ " " ++ text ++ "\n"

/-- The items of a list, each on a branch of its own. -/
def branches (colour : Bool) : List String → String
  | [] => ""
  | [item] => Ink.dimmed.paint colour "└──" ++ "  " ++ item ++ "\n"
  | item :: rest =>
    Ink.dimmed.paint colour "├──" ++ "  " ++ item ++ "\n" ++ branches colour rest

/-- A package and its version. -/
def versioned (colour : Bool) (name version : String) : String :=
  name ++ " (" ++ Ink.yellow.paint colour version ++ ")"

/-! ## 2. Analysis -/

/-- The reference names a package, and no file. -/
def namesPackage (reference : String) : Bool :=
  let first := reference.toList.head?
  !(first == some '.' || first == some '/')

/-- A reference, with the version of the package that it names. -/
def referenceItem (colour : Bool) (lookup : Lookup) (disk : Disk) (reference : String) : String :=
  if namesPackage reference then versioned colour reference (lookup.version disk reference)
  else reference

/-- The report of an analysis. -/
def analysis (colour : Bool) (lookup : Lookup) (disk : Disk) (a : Analysis) : String :=
  let label (text : String) : String := Ink.bold.paint colour text ++ " "
  let head := label "File:" ++ path colour a.file ++ "\n" ++
    label "Lines:" ++ number colour a.lines ++ "\n" ++
    label "Detection:" ++ Ink.dimmed.paint colour a.detection.describe ++ "\n\n"
  let found :=
    match a.references with
    | [] => bullet colour ++ " No package references found\n"
    | references =>
      tick colour ++ " Found " ++ number colour references.length ++ " package references:\n" ++
        branches colour (references.map (referenceItem colour lookup disk))
  head ++ found

/-! ## 3. Removal -/

/-- The report of a removal. -/
def removal (colour : Bool) (request : RemovalRequest) : RemovalOutcome → String
  | .removed strategy count before after =>
    tick colour ++ " Removed " ++ number colour count ++
      (if count == 1 then " reference to " else " references to ") ++
      Ink.bold.paint colour request.package ++ " from " ++ path colour request.file ++
      " (" ++ Ink.dimmed.paint colour strategy.describe ++ ")\n" ++
      "  Size: " ++ toString before ++ " → " ++ toString after ++ " bytes (" ++
      number colour (bytesSaved before after) ++ " bytes saved, " ++
      (percentSaved before after).oneDecimal false ++ "%)\n"
  | .notFound =>
    let advice :=
      if !request.force then hintLine colour "try --force for minified or bundled files"
      else if !request.aggressive then
        hintLine colour "--aggressive deletes any code mentioning the package"
      else ""
    warning colour ++ " No references to " ++ Ink.bold.paint colour request.package ++
      " found in " ++ path colour request.file ++ "\n" ++ advice

/-! ## 4. Formatting -/

/-- The wording of a style. -/
def styleText : Style → String
  | .project path => "style from " ++ path
  | .defaults => "default style"

/-- The wording of what was done to a file. -/
def modeText : Mode → String
  | .minified => "Minified"
  | .formatted style (some parser) =>
    "Formatted with " ++ parser ++ " parser, " ++ styleText style
  | .formatted style none => "Formatted with inferred parser, " ++ styleText style

/-- The report of formatting. -/
def formatting (colour : Bool) (outcome : FormatOutcome) : String :=
  tick colour ++ " " ++ modeText outcome.mode ++ " " ++ path colour outcome.file ++ "\n" ++
    "  Size: " ++ number colour outcome.before ++ " → " ++ number colour outcome.after ++
    " bytes (" ++ (percentChange outcome.before outcome.after).oneDecimal true ++ "%)\n"

/-! ## 5. Bundles -/

/-- The report of what is going to be bundled. -/
def plan (colour : Bool) (packages : List PlannedPackage) : String :=
  bullet colour ++ " Bundling " ++ number colour packages.length ++ " packages:\n" ++
    branches colour (packages.map fun p => versioned colour p.name p.version)

/-- The report of a bundle. -/
def bundle (colour : Bool) (outcome : BundleOutcome) : String :=
  tick colour ++ " Wrote " ++ path colour outcome.out ++ " (" ++ number colour outcome.bytes ++
    " bytes" ++ (if outcome.minified then ", minified" else "") ++ ")\n"

/-! ## 6. Failures -/

/-- The report of a failure. -/
def failure (colour : Bool) (f : Failure) : String :=
  cross colour ++ " " ++ f.message ++ "\n" ++
    match f.hint with
    | some text => hintLine colour text
    | none => ""

end PackageRefs.Report
