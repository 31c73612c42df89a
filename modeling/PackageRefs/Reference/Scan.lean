/-
# References found without reading the grammar

Where a script cannot be read, its text is searched for what looks like an import or a call of
`require`.  The search may find too much or too little, and never fails.

`importFinder` and `requireFinder` look for the two forms; `moduleFinder` looks for the paths of
installed packages, as a bundled file holds them.
-/
import PackageRefs.Reference.Filter
import PackageRefs.Reference.Node
import PackageRefs.Text.Search

namespace PackageRefs

open PackageRefs.Text

/-! ## 1. Imports -/

/-- A character that may stand between `import` and the source. -/
def isImportChar (c : Char) : Bool :=
  isWordChar c || c == '$' || c == '*' || c == '\x7b' || c == '\x7d' || c == ',' || isBlank c

/-- The text ends with the word `from` and white space behind it, and something stands before. -/
def endsWithFrom (text : List Char) : Bool :=
  match text.reverse.dropWhile isBlank with
  | 'm' :: 'o' :: 'r' :: 'f' :: c :: _ => !isWordChar c
  | _ => false

/-- The text from the quote on that opens the source of an import. -/
def importSource? (text : List Char) : Option (List Char) := do
  let r ← after? "import" text
  let names := r.takeWhile isImportChar
  if names.all isBlank || endsWithFrom names then some (r.drop names.length) else none

/-- The text from the quote on that opens the source of a dynamic import. -/
def dynamicSource? (text : List Char) : Option (List Char) := do
  let r ← after? "import" text
  let r ← after? "(" (afterBlanks r)
  return afterBlanks r

/-- The text in quotes that starts here, and what comes after it. -/
def quotedText? : List Char → Option (List Char × List Char)
  | c :: r =>
    if isQuote c then
      let inner := r.takeWhile isUnquoted
      match inner, r.drop inner.length with
      | _ :: _, d :: rest => if isQuote d then some (inner, rest) else none
      | _, _ => none
    else none
  | [] => none

/-- Looks for an import, static or dynamic, and gives its source. -/
def importFinder : Finder (List Char) := fun before text =>
  if startsWord before then
    let opened := (importSource? text).bind quotedText?
    let found := opened.orElse fun _ => (dynamicSource? text).bind quotedText?
    found.map fun (source, rest) => upTo source text rest
  else none

/-! ## 2. Calls of `require` -/

/-- The text after `require` and an opening parenthesis, white space passed over. -/
def requireArgument? (text : List Char) : Option (List Char) := do
  let r ← after? "require" text
  let r ← after? "(" (afterBlanks r)
  return afterBlanks r

/-- Looks for a call of `require` with one string, and gives the string. -/
def requireFinder : Finder (List Char) := fun before text =>
  if startsWord before then do
    let argument ← requireArgument? text
    let (source, rest) ← quotedText? argument
    let rest ← after? ")" (afterBlanks rest)
    return upTo source text rest
  else none

/-! ## 3. Paths of installed packages -/

/-- A character of a package's name. -/
def isPackageChar (c : Char) : Bool := isWordChar c || c == '.' || c == '-'

/-- The name of a package with its scope, if it has one. -/
def packageName? : List Char → Option (List Char)
  | '@' :: r =>
    let scope := r.takeWhile isPackageChar
    match scope, r.drop scope.length with
    | _ :: _, '/' :: s =>
      match s.takeWhile isPackageChar with
      | [] => none
      | name => some ('@' :: scope ++ '/' :: name)
    | _, _ => none
  | r =>
    match r.takeWhile isPackageChar with
    | [] => none
    | name => some name

/-- Looks for the path of an installed package, and gives its name. -/
def moduleFinder : Finder (List Char) := fun _ text => do
  let r ← after? "node_modules/" text
  let name ← packageName? r
  return upTo name text (r.drop name.length)

/-! ## 4. What the scans report -/

/-- What a finder finds in a source, as far as it can be a reference. -/
def scan (find : Finder (List Char)) (source : String) : List String :=
  ((findAll find source.toList).filter isReferenceText).map String.ofList

/-- The imports and then the calls of `require` that a source seems to hold. -/
def scanReferences (source : String) : List Reference :=
  (scan importFinder source).map (⟨.import, ·⟩) ++ (scan requireFinder source).map (⟨.require, ·⟩)

/-- The packages whose paths a source holds. -/
def scanModules (source : String) : List String := scan moduleFinder source

end PackageRefs
