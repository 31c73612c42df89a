/-
# Writing text with the surroundings in view

What has to be written next often depends on what was written last: two names need a space between
them, `- -a` must not become `--a`, and an expression that starts a statement may need parentheses.
`Output` is the text so far together with the marks that such decisions need, and `Print` is a way
to write more.

In the compact style all blanks that the grammar does not need are left out, and a statement's
semicolon is written only when another statement follows.
-/
import PackageRefs.Script.Comment
import PackageRefs.Script.Dialect
import PackageRefs.Script.Tree

namespace PackageRefs.Script

open PackageRefs.Text

/-! ## 1. The state -/

/-- How a script is written. -/
inductive Style where
  /-- one statement a line, with comments -/
  | spacious
  /-- in as few characters as the grammar allows -/
  | compact
  deriving DecidableEq, Inhabited, Repr

/-- An operator that may run together with the one after it. -/
inductive Sign where
  | add | sub | plus | minus | increment | decrement | decrementAfter | logicalNot | greater | other
  deriving DecidableEq, Inhabited, Repr

/-- The text so far, and what is known about its end. -/
structure Output where
  style : Style
  /-- Markup may be written in the script. -/
  markup : Bool
  /-- The text, the last character first. -/
  text : List Char := []
  length : Nat := 0
  depth : Nat := 0
  /-- A statement's semicolon waits for another statement. -/
  owesSemicolon : Bool := false
  /-- The next line stays on this line, after a space. -/
  indentIsSpace : Bool := false
  /-- Where a statement starts, and likewise the body of an arrow function and a default export. -/
  statementStart : Option Nat := none
  arrowStart : Option Nat := none
  defaultStart : Option Nat := none
  /-- The last operator, and where it ends. -/
  lastSign : Option (Sign × Nat) := none
  /-- Where the last regular expression ends. -/
  regexEnd : Option Nat := none
  /-- Where the last number ends that a dot would become part of. -/
  numberEnd : Option Nat := none
  /-- The comments that have not been written. -/
  comments : List Comment := []
  deriving Inhabited

/-- A way to write something. -/
abbrev Print := StateM Output Unit

namespace Printer

/-- Writes nothing. -/
def nothing : Print := pure ()

/-- Changes a mark. -/
def mark (f : Output → Output) : Print := modify f

/-- Writes a character. -/
def char (c : Char) : Print := modify fun o => { o with text := c :: o.text, length := o.length + 1 }

/-- Writes characters. -/
def chars (cs : List Char) : Print :=
  modify fun o => { o with text := cs.reverse ++ o.text, length := o.length + cs.length }

/-- Writes a text as it stands. -/
def raw (s : String) : Print := chars s.toList

/-- Writes one of two things. -/
def choose (b : Bool) (p q : Print) : Print := if b then p else q

/-- Writes something if a condition holds. -/
def when (b : Bool) (p : Print) : Print := if b then p else nothing

/-! ## 2. Blanks and lines -/

/-- The style is compact. -/
def isCompact : StateM Output Bool := return (← get).style == .compact

/-- Writes a space that the compact style leaves out. -/
def space : Print := do unless ← isCompact do char ' '

/-- Ends the line, unless the style is compact. -/
def newline : Print := do unless ← isCompact do char '\n'

/-- Starts a line at the current depth. -/
def indent : Print := do
  unless ← isCompact do
    let o ← get
    if o.indentIsSpace then
      char ' '
      mark ({ · with indentIsSpace := false })
    else chars (List.replicate o.depth '\t')

/-- Goes one level deeper. -/
def deeper : Print := mark fun o => { o with depth := o.depth + 1 }

/-- Comes one level back. -/
def shallower : Print := mark fun o => { o with depth := o.depth - 1 }

/-- Ends a statement. -/
def endStatement : Print := do
  if ← isCompact then mark ({ · with owesSemicolon := true })
  else
    char ';'
    char '\n'

/-- Writes the semicolon that the last statement left open. -/
def settleSemicolon : Print := do
  if (← get).owesSemicolon then
    char ';'
    mark ({ · with owesSemicolon := false })

/-- Forgets the semicolon that the last statement left open. -/
def dropSemicolon : Print := mark ({ · with owesSemicolon := false })

/-- Writes a comma and a space. -/
def comma : Print := do
  char ','
  space

/-- Separates a name from the characters before it, if they would run together. -/
def beforeName : Print := do
  let o ← get
  match o.text with
  | c :: _ => if o.regexEnd == some o.length || isNamePart c then char ' '
  | [] => nothing

/-- Writes a word, apart from a word before it. -/
def word (s : String) : Print := do
  beforeName
  raw s

/-- Two operators written one after the other would be read as one. -/
def clash (last next : Sign) (beforeLast : Option Char) : Bool :=
  match last, next with
  | .add, .add | .add, .plus | .add, .increment => true
  | .plus, .add | .plus, .plus | .plus, .increment => true
  | .sub, .sub | .sub, .minus | .sub, .decrement => true
  | .minus, .sub | .minus, .minus | .minus, .decrement => true
  | .decrementAfter, .greater => true
  | .logicalNot, .decrement => beforeLast == some '<'
  | _, _ => false

/-- Separates an operator from the one before it, if they would run together. -/
def beforeSign (next : Sign) : Print := do
  let o ← get
  match o.lastSign with
  | some (last, stop) =>
    if stop == o.length && clash last next (o.text.drop 1).head? then char ' '
  | none => nothing

/-- Remembers the operator that was written last. -/
def afterSign (s : Sign) : Print := mark fun o => { o with lastSign := some (s, o.length) }

/-- Writes something in parentheses if a condition holds. -/
def wrapped (b : Bool) (p : Print) : Print := do
  if b then char '('
  p
  if b then char ')'

/-- Writes things with something between them. -/
def separated {α : Type} (between : Print) (p : α → Print) : List α → Print
  | [] => nothing
  | [a] => p a
  | a :: b :: rest => do
    p a
    between
    separated between p (b :: rest)

/-- Writes things one after the other. -/
def each {α : Type} (p : α → Print) : List α → Print
  | [] => nothing
  | a :: rest => do
    p a
    each p rest

/-- Writes what braces hold, on lines of its own unless it is empty. -/
def braces (empty : Bool) (inner : Print) : Print := do
  char '\x7b'
  unless empty do
    newline
    deeper
  inner
  unless empty do
    shallower
    indent
  char '\x7d'

/-! ## 3. Comments -/

/-- Splits a text into lines. -/
def linesOf : List Char → List (List Char)
  | [] => [[]]
  | '\r' :: '\n' :: r => [] :: linesOf r
  | c :: r =>
    if c == '\n' || c == '\r' || c == '\u2028' || c == '\u2029' then [] :: linesOf r
    else
      match linesOf r with
      | l :: ls => (c :: l) :: ls
      | [] => [[c]]

/-- The small letter of ASCII for a capital one. -/
def asciiLower (c : Char) : Char := if 'A' ≤ c && c ≤ 'Z' then Char.ofNat (c.toNat + 32) else c

/-- Breaks up the end of a script's element, which a page would see before it sees the script. -/
def escapeClosingTag : List Char → List Char
  | '<' :: '/' :: r =>
    if "script".toList.isPrefixOf ((r.take 6).map asciiLower) then
      '<' :: '\\' :: '/' :: escapeClosingTag r
    else '<' :: '/' :: escapeClosingTag r
  | c :: r => c :: escapeClosingTag r
  | [] => []

/-- Writes a comment; the lines of a block are indented anew. -/
def comment (c : Comment) : Print := do
  if c.isLine then chars (escapeClosingTag c.text)
  else
    each
      (fun line => do
        unless "/*".toList.isPrefixOf line do indent
        chars (escapeClosingTag (line.dropWhile isBlank))
        unless "/*".toList.isPrefixOf line.reverse do char '\n')
      (linesOf c.text)

/-- Takes the comments that lead the token at a position. -/
def takeComments (pos : Nat) : StateM Output (List Comment) := do
  let o ← get
  let (here, others) := o.comments.partition fun c => c.attachedTo == some pos
  set { o with comments := others }
  return here

/-- Comments lead the token at the position. -/
def hasComments (pos : Nat) : StateM Output Bool :=
  return (← get).comments.any fun c => c.attachedTo == some pos

/-- Writes comments before a statement or at the end of a list of statements. -/
def statementComments (cs : List Comment) : Print := do
  match cs with
  | [] => nothing
  | first :: rest =>
    if first.newlineBefore then
      match (← get).text with
      | '\n' :: _ => indent
      | '\t' :: _ => nothing
      | _ :: _ =>
        char '\n'
        indent
      | [] => nothing
    else indent
    comment first
    each
      (fun c => do
        if c.newlineBefore then
          char '\n'
          indent
        else if c.content == CommentContent.legal then char '\n'
        comment c)
      rest
    match cs.getLast? with
    | some last =>
      if last.isLine || last.newlineAfter then char '\n'
      else mark ({ · with indentIsSpace := true })
    | none => nothing

/-- Writes the comments that lead the token at a position. -/
def commentsAt (pos : Nat) : Print := do statementComments (← takeComments pos)

/-- Writes comments before a closing brace, which stays on the line of the last one. -/
def closingComments (cs : List Comment) : Print := do
  statementComments cs
  mark ({ · with indentIsSpace := false })

/-- Writes the comments that lead the token at a position, each on a line of its own; the answer
says whether there were any. -/
def ownLineComments (pos : Nat) : StateM Output Bool := do
  match ← takeComments pos with
  | [] => return false
  | cs =>
    each
      (fun c => do
        char '\n'
        indent
        comment c)
      cs
    char '\n'
    return true

end Printer

/-- Where an expression stands: how tightly its surroundings bind, and what they forbid. -/
structure Place where
  level : Precedence := .lowest
  /-- The operator `in` would be read as part of a loop. -/
  noIn : Bool := false
  /-- A call would be read as the arguments of `new`. -/
  noCall : Bool := false
  /-- The statement goes on the line of the one that it belongs to. -/
  sameLine : Bool := false
  deriving Inhabited

/-- A way to write any tree in any place; the rules for one kind of syntax reach the others through
it. -/
abbrev Writer := Tree → Place → Print

namespace Place

/-- Somewhere with no operators around. -/
def free : Place := {}

/-- A place between commas. -/
def item : Place := { level := .comma }

/-- A place next to an operator that binds with the given strength. -/
def under (level : Precedence) : Place := { level }

end Place

end PackageRefs.Script
