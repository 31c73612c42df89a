/-
# Comments and where they belong

A comment belongs to the token after it, unless it trails a token on its own line.  `CommentLog`
collects comments while a text is read, and settles their place when the next line break or token
shows what follows them.

* a line comment after a token on the same line trails that token;
* a block comment after a token trails it when only a line break follows;
* every other comment leads the next token, and is remembered under that token's position.
-/
import PackageRefs.Text.Character

namespace PackageRefs.Script

open PackageRefs.Text

/-- What a comment says to a printer. -/
inductive CommentContent where
  | normal
  /-- a licence or another text to be kept -/
  | legal
  /-- the call that follows has no effect -/
  | harmlessCall
  /-- the function that follows has no effect -/
  | harmlessFunction
  deriving DecidableEq, Inhabited, Repr

/-- A comment of a script. -/
structure Comment where
  /-- The comment runs to the end of its line. -/
  isLine : Bool
  start : Nat
  stop : Nat
  /-- The comment with its marks. -/
  text : List Char
  content : CommentContent
  /-- The position of the token that the comment leads, if it leads one. -/
  attachedTo : Option Nat
  newlineBefore : Bool
  newlineAfter : Bool
  deriving Inhabited, Repr

/-! ## 1. Reading what a comment says -/

/-- The word occurs somewhere in the text. -/
def mentions (word : List Char) : List Char → Bool
  | [] => word.isEmpty
  | c :: r => word.isPrefixOf (c :: r) || mentions word r

/-- The name that follows the mark of an annotation, `@__` or `#__`. -/
def annotationName : List Char → Option (List Char)
  | '@' :: '_' :: '_' :: r => some r
  | '#' :: '_' :: '_' :: r => some r
  | _ => none

/-- What a comment says, from the text between its marks. -/
def contentOf (inner : List Char) : CommentContent :=
  let kept := mentions "@license".toList inner || mentions "@preserve".toList inner
  match annotationName (inner.dropWhile isBlank) with
  | some name =>
    if "PURE__".toList.isPrefixOf name then .harmlessCall
    else if "NO_SIDE_EFFECTS__".toList.isPrefixOf name then .harmlessFunction
    else if kept then .legal
    else .normal
  | none => if kept || inner.head? == some '!' then .legal else .normal

/-- What the whole comment says. -/
def commentContent (isLine : Bool) (text : List Char) : CommentContent :=
  let inner := text.drop 2
  contentOf (if isLine then inner else inner.take (inner.length - 2))

/-! ## 2. Settling the place of comments -/

/-- The comments read so far, the latest first, and how many of them still wait for their place. -/
structure CommentLog where
  comments : List Comment := []
  waiting : Nat := 0
  /-- A line break came after the last token. -/
  sawNewline : Bool := true
  /-- The last token is one after which a line comment leads what follows. -/
  afterOpener : Bool := false
  /-- A comment after the last token says that the next call has no effect. -/
  sawHarmless : Bool := false
  /-- A comment after the last token says that calls of the next function have no effect. -/
  sawHarmlessFunction : Bool := false
  deriving Inhabited, Repr

namespace CommentLog

/-- Changes the latest comments, as many as told. -/
def updateLatest (f : Comment → Comment) : Nat → List Comment → List Comment
  | n + 1, c :: cs => f c :: updateLatest f n cs
  | _, cs => cs

/-- A line break was read. -/
def newline (log : CommentLog) : CommentLog :=
  if log.waiting == 0 then { log with sawNewline := true }
  else
    let marked := updateLatest (fun c => { c with newlineAfter := true }) 1 log.comments
    { log with
      comments := marked
      waiting := if log.sawNewline then log.waiting else 0
      sawNewline := true }

/-- A token was read: the waiting comments lead it. -/
def token (log : CommentLog) (start : Nat) (opener : Bool) : CommentLog :=
  { log with
    comments := updateLatest (fun c => { c with attachedTo := some start }) log.waiting log.comments
    waiting := 0
    sawNewline := false
    afterOpener := opener
    sawHarmless := false
    sawHarmlessFunction := false }

/-- A comment was read. -/
def add (log : CommentLog) (isLine : Bool) (start stop : Nat) (text : List Char) : CommentLog :=
  let comment : Comment :=
    { isLine, start, stop, text, content := commentContent isLine text, attachedTo := none,
      newlineBefore := log.sawNewline, newlineAfter := isLine }
  let tells (content : CommentContent) : Bool := comment.content == content
  let log :=
    { log with
      sawHarmless := log.sawHarmless || tells .harmlessCall
      sawHarmlessFunction := log.sawHarmlessFunction || tells .harmlessFunction }
  if isLine then
    let trails := !log.sawNewline && !log.afterOpener
    { log with
      comments := comment :: log.comments
      waiting := if trails then 0 else log.waiting + 1
      sawNewline := true }
  else
    { log with comments := comment :: log.comments, waiting := log.waiting + 1 }

/-- All comments in reading order. -/
def toList (log : CommentLog) : List Comment := log.comments.reverse

end CommentLog

end PackageRefs.Script
