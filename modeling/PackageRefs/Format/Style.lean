/-
# The style that a file is formatted in

A project sets its style in one of several files, which are looked for in the directory of the file
and in every directory above.  Where there is none, a default style is used.
-/
import PackageRefs.Disk.Basic
import PackageRefs.Package.Manifest
import PackageRefs.Script.Extension

namespace PackageRefs.Format

open PackageRefs.Disk PackageRefs.Package PackageRefs.Script

/-! ## 1. The language of a file -/

/-- A letter of ASCII in its small form. -/
def smallLetter (c : Char) : Char :=
  if 'A' ≤ c && c ≤ 'Z' then Char.ofNat (c.toNat + 32) else c

/-- A text with its ASCII letters in small form. -/
def smallLetters (text : String) : String := String.ofList (text.toList.map smallLetter)

/-- The parser for scripts of any kind. -/
def generalParser : String := "babel"

/-- The formatter's parsers and the extensions that they are used for. -/
def parserTable : List (String × List String) := [
  ("typescript", ["ts", "tsx", "mts", "cts"]),
  (generalParser, ["js", "jsx", "mjs", "cjs"]),
  ("json", ["json"]),
  ("css", ["css"]),
  ("scss", ["scss"]),
  ("less", ["less"]),
  ("markdown", ["md", "markdown"]),
  ("yaml", ["yaml", "yml"]),
  ("html", ["html", "htm"]),
  ("vue", ["vue"])]

/-- The parser for a file, as far as its extension decides it. -/
def parserFor (file : String) : Option String :=
  match extension? file with
  | some ext => (parserTable.find? fun row => row.2.contains (smallLetters ext)).map (·.1)
  | none => none

/-! ## 2. Where the style comes from -/

/-- Where the style of a file comes from. -/
inductive Style where
  /-- the project's configuration at the path -/
  | project (path : String)
  | defaults
  deriving DecidableEq, Inhabited, Repr

/-- The names of configuration files in the order in which they are tried. -/
def configurationNames : List String := [
  ".prettierrc",
  ".prettierrc.json",
  ".prettierrc.json5",
  ".prettierrc.yaml",
  ".prettierrc.yml",
  ".prettierrc.toml",
  ".prettierrc.js",
  ".prettierrc.cjs",
  ".prettierrc.mjs",
  ".prettierrc.ts",
  "prettier.config.js",
  "prettier.config.cjs",
  "prettier.config.mjs",
  "prettier.config.ts"]

/-- The name of the file that may hold a configuration among other things. -/
def manifestName : String := "package.json"

/-- The file is a manifest with a configuration. -/
def isConfiguringManifest (disk : Disk) (path : String) : Bool :=
  match disk.readText path with
  | .ok text => configuresFormatter text
  | .error _ => false

/-- The configuration in a directory. -/
def configurationIn (disk : Disk) (directory : String) : Option String :=
  match (configurationNames.map (join directory ·)).find? disk.isFile with
  | some path => some path
  | none =>
    let manifest := join directory manifestName
    if isConfiguringManifest disk manifest then some manifest else none

/-- The slashes at the start of the directories of a file: two if its path starts with two and no more, and
one otherwise. -/
def leadingSlashes (file : String) : String :=
  match file.toList with
  | '/' :: '/' :: '/' :: _ => "/"
  | '/' :: '/' :: _ => "//"
  | _ => "/"

/-- The path of a directory that its names lead to from the top. -/
def directoryPath (slashes : String) (names : List String) : String :=
  if names.isEmpty then "/" else slashes ++ String.intercalate "/" names

/-- The directories in which the configuration of a file is looked for, the innermost first. -/
def directoriesOf (disk : Disk) (file : String) : List String :=
  if file.isEmpty then []
  else (directoriesAbove (absoluteNames disk.working file)).map (directoryPath (leadingSlashes file))

/-- The style of a file. -/
def styleOf (disk : Disk) (file : String) : Style :=
  match (directoriesOf disk file).findSome? (configurationIn disk) with
  | some path => .project path
  | none => .defaults

end PackageRefs.Format
