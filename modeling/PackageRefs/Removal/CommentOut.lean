/-
# Commenting references out

Without a tree, statements that mention a package can still be put into comments, so that the edit
can be reviewed.  Three searches run one after the other, each on what the one before left: imports,
variables that are set by `require`, and calls of `require` that start a line.

A comment's end inside a statement is broken up, so each comment ends where its statement ended.
-/
import PackageRefs.Reference.Scan

namespace PackageRefs

open PackageRefs.Text

/-! ## 1. Statements to look for -/

/-- Passes over spaces and a semicolon after a statement. -/
def afterStatement (text : List Char) : List Char :=
  match afterSpaces text with
  | ';' :: r => r
  | r => r

/-- The text after a call of `require` whose string holds the package. -/
def requireOf? (package text : List Char) : Option (List Char) := do
  let r ← requireArgument? text
  let r ← quoted? package r
  after? ")" (afterBlanks r)

/-- Looks for an import whose source holds the package.  The value is the number of characters to
leave before the comment. -/
def importStatement (package : List Char) : Finder Nat := fun before text =>
  if startsWord before then do
    let r ← importSource? text
    let r ← quoted? package r
    return upTo 0 text (afterStatement r)
  else none

/-- A character that may stand between a declaring word and `=`. -/
def isTargetChar (c : Char) : Bool :=
  isWordChar c || c == '$' || isBlank c || c == '\x7b' || c == '\x7d' || c == ',' || c == ':'

/-- The text after a word that declares variables. -/
def declaringWord? (text : List Char) : Option (List Char) :=
  (after? "const" text).orElse fun _ => (after? "let" text).orElse fun _ => after? "var" text

/-- Looks for variables that are set by `require` of the package. -/
def requireDeclaration (package : List Char) : Finder Nat := fun before text =>
  if startsWord before then do
    let r ← declaringWord? text
    let targets := r.takeWhile isTargetChar
    if (targets.head?.any isBlank) && 2 ≤ targets.length then
      let r ← after? "=" (r.drop targets.length)
      let r ← requireOf? package (afterBlanks r)
      return upTo 0 text (afterStatement r)
    else none
  else none

/-- Looks for a call of `require` that starts a line. -/
def requireStatement (package : List Char) : Finder Nat := fun before text =>
  if startsLine before then do
    let rest := afterSpaces text
    let r ← requireOf? package rest
    return upTo (text.length - rest.length) text (afterStatement r)
  else none

/-! ## 2. Comments -/

/-- Breaks up every end of a comment. -/
def breakTerminators : List Char → List Char
  | '*' :: '/' :: r => '*' :: ' ' :: '/' :: breakTerminators r
  | c :: r => c :: breakTerminators r
  | [] => []

/-- What opens the comment around a removed statement. -/
def removedOpener : List Char := "/* removed: ".toList

/-- What closes the comment around a removed statement. -/
def removedCloser : List Char := " */".toList

/-- A piece of a text, with its statement in a comment if it is a find. -/
def Text.Segment.commentedOut : Segment Nat → List Char
  | .kept c => [c]
  | .found lead text =>
    text.take lead ++ removedOpener ++ breakTerminators (text.drop lead) ++ removedCloser

/-- Puts everything that the finder finds into comments; the number counts the finds. -/
def commentOutAll (find : Finder Nat) (text : List Char) : List Char × Nat :=
  let pieces := segments find text
  (pieces.flatMap Segment.commentedOut, countFound pieces)

/-- A text after an edit, and how much the edit did. -/
structure Edited where
  text : String
  count : Nat
  deriving DecidableEq, Inhabited, Repr

/-- The three searches in their order. -/
def statementFinders (package : List Char) : List (Finder Nat) :=
  [importStatement package, requireDeclaration package, requireStatement package]

/-- Puts all statements that refer to the package into comments. -/
def commentOutReferences (source package : String) : Edited :=
  let step := fun ((text, total) : List Char × Nat) (find : Finder Nat) =>
    let (text, count) := commentOutAll find text
    (text, total + count)
  let (text, count) := (statementFinders package.toList).foldl step (source.toList, 0)
  ⟨String.ofList text, count⟩

end PackageRefs
