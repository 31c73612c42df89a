/-
# What stands between tokens

White space, line breaks and comments are skipped before a token.  `skipTrivia` walks over them once
and reports comments and line breaks to the comment log.

In a script, as opposed to a module, `<!--` anywhere and `-->` at the start of a line open a comment
that runs to the end of the line.
-/
import PackageRefs.Script.Comment
import PackageRefs.Script.Diagnostic

namespace PackageRefs.Script.Lexer

open PackageRefs.Text

/-- One of the four line terminators. -/
def isLineBreak (c : Char) : Bool :=
  c == '\n' || c == '\r' || c == '\u2028' || c == '\u2029'

/-- White space that is not a line terminator. -/
def isInlineSpace (c : Char) : Bool :=
  c == '\ufeff' || (isBlank c && !isLineBreak c && c != '\u0085')

/-- Where the walk stands. -/
inductive TriviaMode where
  | code
  /-- in a line comment that began at the position; its text so far, reversed -/
  | line (start : Nat) (seen : List Char)
  /-- in a block comment that began at the position; its text so far, reversed -/
  | block (start : Nat) (seen : List Char)
  deriving Inhabited

/-- The state of the walk: comments, and whether a line break was crossed. -/
structure Trivia where
  rest : List Char
  pos : Nat
  log : CommentLog
  onNewLine : Bool
  unterminated : Bool := false
  deriving Inhabited

/-- Skips white space and comments. -/
def skipTrivia (isModule : Bool) :
    TriviaMode → List Char → Nat → CommentLog → Bool → Trivia
  | .code, [], pos, log, fresh => { rest := [], pos, log, onNewLine := fresh }
  | .line start seen, [], pos, log, fresh =>
    { rest := [], pos, log := log.add true start pos seen.reverse, onNewLine := fresh }
  | .block _ _, [], pos, log, fresh =>
    { rest := [], pos, log, onNewLine := fresh, unterminated := true }
  | .line start seen, c :: r, pos, log, fresh =>
    if isLineBreak c then
      skipTrivia isModule .code r (pos + 1) (log.add true start pos seen.reverse).newline true
    else skipTrivia isModule (.line start (c :: seen)) r (pos + 1) log fresh
  | .block start seen, '*' :: '/' :: r, pos, log, fresh =>
    skipTrivia isModule .code r (pos + 2)
      (log.add false start (pos + 2) ('/' :: '*' :: seen).reverse) fresh
  | .block start seen, c :: r, pos, log, fresh =>
    skipTrivia isModule (.block start (c :: seen)) r (pos + 1) log (fresh || isLineBreak c)
  | .code, '/' :: '/' :: r, pos, log, fresh =>
    skipTrivia isModule (.line pos ['/', '/']) r (pos + 2) log fresh
  | .code, '/' :: '*' :: r, pos, log, fresh =>
    skipTrivia isModule (.block pos ['*', '/']) r (pos + 2) log fresh
  | .code, c :: r, pos, log, fresh =>
    if isLineBreak c then skipTrivia isModule .code r (pos + 1) log.newline true
    else if isInlineSpace c then skipTrivia isModule .code r (pos + 1) log fresh
    else if !isModule && c == '<' && "!--".toList.isPrefixOf r then
      skipTrivia isModule (.line pos ['<']) r (pos + 1) log fresh
    else if !isModule && fresh && c == '-' && "->".toList.isPrefixOf r then
      skipTrivia isModule (.line pos ['-']) r (pos + 1) log fresh
    else { rest := c :: r, pos, log, onNewLine := fresh }

end PackageRefs.Script.Lexer
