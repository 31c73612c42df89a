/-
# Deleting all text that mentions a package

The last resort: every line that holds the name goes, and then every string, call and property that
still does.  It can take unrelated code with it.  Runs of blank lines that are left are shortened.
-/
import PackageRefs.Removal.CommentOut

namespace PackageRefs

open PackageRefs.Text

/-! ## 1. What is deleted -/

/-- Any character but a line feed. -/
def isInLine (c : Char) : Bool := c != '\n'

/-- The text after the line that holds the name; the name may go over to later lines.  The number is
that of the characters still to be tried before the name. -/
def lineWith? (name text : List Char) : Nat → Option (List Char)
  | 0 => if name.isPrefixOf text then some (afterLine (text.drop name.length)) else none
  | n + 1 =>
    let here := text.drop (n + 1)
    if name.isPrefixOf here then some (afterLine (here.drop name.length))
    else lineWith? name text n
where
  /-- The text after the end of the line. -/
  afterLine (text : List Char) : List Char :=
    match text.dropWhile isInLine with
    | _ :: r => r
    | [] => []

/-- Looks for a whole line that holds the name. -/
def lineFinder (name : List Char) : Finder Unit := fun before text =>
  if startsLine before then
    (lineWith? name text (text.takeWhile isInLine).length).map (upTo () text ·)
  else none

/-- A quote of a string or a template. -/
def isAnyQuote (c : Char) : Bool := isQuote c || c == '\x60'

/-- Looks for a string that holds the name. -/
def stringFinder (name : List Char) : Finder Unit := fun _ text =>
  match text with
  | c :: r =>
    if isAnyQuote c then
      let inside (d : Char) : Bool := !isAnyQuote d && d != '\n'
      (around? inside isAnyQuote name r).map (upTo () text ·)
    else none
  | [] => none

/-- A character of a name with dots. -/
def isAccessChar (c : Char) : Bool := isWordChar c || c == '$' || c == '.'

/-- Looks for a call with the name between its parentheses. -/
def callFinder (name : List Char) : Finder Unit := fun _ text =>
  let callee := text.takeWhile isAccessChar
  if callee.isEmpty then none
  else do
    let r ← after? "(" (afterBlanks (text.drop callee.length))
    let rest ← around? (fun c => c != '(' && c != ')') (· == ')') name r
    return upTo () text rest

/-- Looks for a property whose value is a string that holds the name. -/
def propertyFinder (name : List Char) : Finder Unit := fun _ text =>
  let key := text.takeWhile fun c => isWordChar c || c == '$'
  if key.isEmpty then none
  else do
    let r ← after? ":" (afterBlanks (text.drop key.length))
    let r ← quoted? name (afterBlanks r)
    let r := afterBlanks r
    return upTo () text ((after? "," r).getD r)

/-! ## 2. Deleting -/

/-- Deletes everything that the finder finds; the number counts the finds. -/
def deleteAll (find : Finder Unit) (text : List Char) : List Char × Nat :=
  let pieces := segments find text
  (pieces.flatMap (fun p => if p.isFound then [] else p.text), countFound pieces)

/-- The text after all blank lines that it starts with; each ends with a line feed. -/
def blankLines : Nat → List Char → Nat × List Char
  | 0, text => (0, text)
  | fuel + 1, text =>
    match afterSpaces text with
    | '\n' :: r =>
      let (n, rest) := blankLines fuel r
      (n + 1, rest)
    | _ => (0, text)

/-- Looks for a line feed with at least two blank lines after it. -/
def blankRunFinder : Finder Unit := fun _ text =>
  match text with
  | '\n' :: r =>
    let (n, rest) := blankLines r.length r
    if 2 ≤ n then some (upTo () text rest) else none
  | _ => none

/-- Shortens every run of blank lines to one. -/
def collapseBlankLines (text : List Char) : List Char :=
  (segments blankRunFinder text).flatMap fun p => if p.isFound then ['\n', '\n'] else p.text

/-- The four searches in their order. -/
def mentionFinders (name : List Char) : List (Finder Unit) :=
  [lineFinder name, stringFinder name, callFinder name, propertyFinder name]

/-- Deletes all text that mentions the package. -/
def stripReferences (source package : String) : Edited :=
  let step := fun ((text, total) : List Char × Nat) (find : Finder Unit) =>
    let (text, count) := deleteAll find text
    (text, total + count)
  let (text, count) := (mentionFinders package.toList).foldl step (source.toList, 0)
  ⟨String.ofList (if count == 0 then text else collapseBlankLines text), count⟩

end PackageRefs
