/-
# The commands and their arguments

A command takes options and positional arguments.  What each of them is called, what it expects and
what it is good for stands here; reading a command line and printing help both go by it.
-/

namespace PackageRefs.Command

/-! ## 1. Shapes of arguments -/

/-- What a value has to be. -/
inductive ValueKind where
  | text
  /-- a text that is not empty -/
  | path
  /-- a whole number of 64 bits -/
  | count
  deriving DecidableEq, Inhabited, Repr

/-- The value that an option takes. -/
structure OptionValue where
  name : String
  kind : ValueKind
  default : Option String := none
  deriving DecidableEq, Inhabited, Repr

/-- An option; without a value it is a switch. -/
structure OptionSpec where
  short : Option Char := none
  long : String
  value : Option OptionValue := none
  help : String
  deriving DecidableEq, Inhabited, Repr

/-- A positional argument. -/
structure PositionalSpec where
  name : String
  kind : ValueKind
  required : Bool := true
  /-- It may be given any number of times. -/
  many : Bool := false
  help : String
  deriving DecidableEq, Inhabited, Repr

/-- A command. -/
structure CommandSpec where
  /-- the words that call it -/
  name : List String
  about : String
  options : List OptionSpec := []
  positionals : List PositionalSpec := []
  subcommands : List (String × String) := []
  deriving DecidableEq, Inhabited, Repr

namespace OptionSpec

/-- The option as it is named in messages. -/
def text (o : OptionSpec) : String :=
  "--" ++ o.long ++ match o.value with
    | some v => " <" ++ v.name ++ ">"
    | none => ""

end OptionSpec

namespace PositionalSpec

/-- The argument as it is named in messages, with brackets that say whether it has to be given. -/
def text (p : PositionalSpec) (required : Bool) : String :=
  (if required then "<" ++ p.name ++ ">" else "[" ++ p.name ++ "]") ++ if p.many then "..." else ""

end PositionalSpec

/-! ## 2. The program's commands -/

/-- The name of the program. -/
def programName : String := "oxipack"

/-- The switch that asks for help. -/
def helpOption : OptionSpec := { short := some 'h', long := "help", help := "Print help" }

/-- Finds references. -/
def analyzeSpec : CommandSpec where
  name := [programName, "analyze"]
  about := "Detect imported and required packages in a file"
  options := [
    { long := "bundled-line-threshold"
      value := some ⟨"BUNDLED_LINE_THRESHOLD", .count, some "10"⟩
      help := "Files shorter than this that mention webpack are scanned with patterns only" },
    { long := "root"
      value := some ⟨"ROOT", .path, none⟩
      help := "Project root used to look up installed package versions " ++
        "(defaults to the current directory)" },
    helpOption]
  positionals := [{ name := "FILE", kind := .path, help := "File to analyze" }]

/-- Removes references. -/
def removeSpec : CommandSpec where
  name := [programName, "remove"]
  about := "Remove references to a package from a file"
  options := [
    { short := some 'f', long := "force"
      help := "Match by substring and fall back to regex rewrites " ++
        "(works on minified/bundled files)" },
    { short := some 'a', long := "aggressive"
      help := "With --force, delete any code mentioning the package when nothing else matched" },
    helpOption]
  positionals := [
    { name := "FILE", kind := .path, help := "File to edit in place" },
    { name := "PACKAGE", kind := .text, help := "Package name to remove" }]

/-- Formats or minifies. -/
def formatSpec : CommandSpec where
  name := [programName, "format"]
  about := "Reformat a file with prettier, or minify it"
  options := [
    { short := some 'm', long := "minify", help := "Minify instead of formatting" },
    helpOption]
  positionals := [{ name := "FILE", kind := .path, help := "File to rewrite in place" }]

/-- Bundles. -/
def bundleSpec : CommandSpec where
  name := [programName, "bundle"]
  about := "Bundle packages into a single browser script"
  options := [
    { short := some 'o', long := "out", value := some ⟨"OUT", .path, some "bundle.js"⟩
      help := "Output file" },
    { long := "minify", help := "Minify the bundle" },
    helpOption]
  positionals := [
    { name := "PACKAGES", kind := .text, required := false, many := true
      help := "Packages to include, in import order" }]

/-- Prints help. -/
def helpSpec : CommandSpec where
  name := [programName, "help"]
  about := "Print this message or the help of the given subcommand(s)"
  positionals := [
    { name := "COMMAND", kind := .text, required := false, many := true
      help := "Print help for the subcommand(s)" }]

/-- The commands that do something, by their names. -/
def commands : List (String × CommandSpec) := [
  ("analyze", analyzeSpec),
  ("remove", removeSpec),
  ("format", formatSpec),
  ("bundle", bundleSpec),
  ("help", helpSpec)]

/-- The program itself. -/
def programSpec : CommandSpec where
  name := [programName]
  about := "Inspect, edit, format and bundle JavaScript/TypeScript files"
  options := [helpOption]
  subcommands := commands.map fun (name, spec) => (name, spec.about)

end PackageRefs.Command
