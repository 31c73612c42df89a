/-
# The packages that a script refers to

A script that can be read is searched through its tree.  One that cannot is scanned as text, and so
is a short one that mentions the bundler it comes from, because the packages in it are held as text.
-/
import PackageRefs.Reference.Scan
import PackageRefs.Script.Extension
import PackageRefs.Script.Parser

namespace PackageRefs

open PackageRefs.Text PackageRefs.Script

/-- How references were found. -/
inductive Detection where
  /-- in the tree of the script -/
  | structural
  /-- by scanning a script that could not be read -/
  | patternFallback
  /-- by scanning a script that comes from a bundler -/
  | bundledHeuristic
  deriving DecidableEq, Inhabited, Repr

/-- The wording of a way to find references. -/
def Detection.describe : Detection → String
  | structural => "structural parse"
  | patternFallback => "pattern fallback (parse failed)"
  | bundledHeuristic => "bundled-file heuristic"

/-- What is found out about a script. -/
structure Analysis where
  file : String
  lines : Nat
  detection : Detection
  /-- The texts of the references in order, each once. -/
  references : List String
  deriving DecidableEq, Inhabited, Repr

/-- The number of lines; a line feed ends a line, and the last line may lack one. -/
def lineCount : List Char → Nat
  | [] => 0
  | [_] => 1
  | c :: r => lineCount r + if c == '\n' then 1 else 0

/-- The word by which a bundler is known in its output, in small letters. -/
def bundlerMark : String := "webpack"

/-- Scripts with fewer lines than this are short, if nothing else is said. -/
def defaultThreshold : Nat := 10

/-- The script is short and mentions a bundler. -/
def looksBundled (source : String) (threshold : Nat) : Bool :=
  lineCount source.toList < threshold &&
    occursIn bundlerMark.toList (source.toList.map lowerChar)

/-- Takes out every text that stands behind an equal one. -/
def withoutRepeats : List String → List String
  | a :: b :: r => if a == b then withoutRepeats (b :: r) else a :: withoutRepeats (b :: r)
  | texts => texts

/-- The texts in order, each once. -/
def distinct (texts : List String) : List String :=
  withoutRepeats (texts.mergeSort fun a b => !(b < a))

/-- Finds the references in a script. -/
def analyze (file source : String) (threshold : Nat) : Analysis :=
  let found (detection : Detection) (references : List String) : Analysis :=
    ⟨file, lineCount source.toList, detection, distinct references⟩
  if looksBundled source threshold then
    found .bundledHeuristic ((scanReferences source).map (·.request) ++ scanModules source)
  else
    let parsed := parse (Dialect.ofPath file) source
    if parsed.succeeded then found .structural (parsed.program.references.map (·.request))
    else found .patternFallback ((scanReferences source).map (·.request))

end PackageRefs
