/-
# Writing statements

Every statement starts with the comments that lead it and stands on a line of its own.  The body of
a loop or a branch that is no block stays on the line of its head.
-/
import PackageRefs.Script.Printer.Type

namespace PackageRefs.Script.Printer

/-! ## 1. Blocks and bodies -/

/-- Writes statements in braces. -/
def block (pr : Writer) (t : Tree) : Print := do
  let list := t.part 0
  braces list.parts.isEmpty (statements pr list.parts)
  dropSemicolon

/-- The tree is a block. -/
def isBlock (t : Tree) : Bool := t.label == .block

/-- Writes the body of a loop or a branch. -/
def body (pr : Writer) (t : Tree) (apart : Bool) : Print := do
  match t.label with
  | .block =>
    space
    block pr t
    newline
  | .emptyStatement =>
    char ';'
    newline
  | _ =>
    when (apart && (← isCompact)) (char ' ')
    mark ({ · with indentIsSpace := true })
    pr t .free

/-- Writes an expression in parentheses. -/
def inParentheses (pr : Writer) (e : Tree) : Print := do
  char '('
  pr e .free
  char ')'

/-- An `else` after the statement would belong to it; the fuel bounds the nesting of bodies. -/
def endsWithOpenIf : Nat → Tree → Bool
  | 0, _ => false
  | fuel + 1, t =>
    match t with
    | .node .if _ [_, _, no] => no.isAbsent || endsWithOpenIf fuel no
    | .node .for _ [_, _, _, inner] => endsWithOpenIf fuel inner
    | .node .forIn _ [_, _, inner] => endsWithOpenIf fuel inner
    | .node (.forOf _) _ [_, _, inner] => endsWithOpenIf fuel inner
    | .node .while _ [_, inner] => endsWithOpenIf fuel inner
    | .node .with _ [_, inner] => endsWithOpenIf fuel inner
    | .node (.labeled _) _ [inner] => endsWithOpenIf fuel inner
    | _ => false

/-- Writes a conditional statement after the word before it. -/
def ifStatement (pr : Writer) (test yes no : Tree) : Print := do
  word "if"
  space
  inParentheses pr test
  let after : Print := if no.isAbsent then newline else space
  if isBlock yes then
    space
    block pr yes
    after
  else if endsWithOpenIf yes.height yes then
    space
    braces false do
      pr yes .free
      dropSemicolon
    after
  else
    body pr yes false
    unless no.isAbsent do indent
  unless no.isAbsent do
    settleSemicolon
    word "else"
    match no with
    | .node .block _ _ =>
      space
      block pr no
      newline
    | .node .if _ _ =>
      char ' '
      pr no { sameLine := true }
    | _ => body pr no true

/-! ## 2. Loops -/

/-- Writes a counting loop. -/
def forStatement (pr : Writer) (first test step inner : Tree) : Print := do
  word "for"
  space
  char '('
  unless first.isAbsent do pr first { noIn := true, level := .lowest }
  char ';'
  unless test.isAbsent do space; pr test .free
  char ';'
  unless step.isAbsent do space; pr step .free
  char ')'
  body pr inner false

/-- Writes the left side of a loop over the parts of a value.  The name `async` before `of` would be
read as an arrow function. -/
def loopTarget (pr : Writer) (left : Tree) : Print :=
  wrapped (left.identifierName? == some "async") (pr left { noIn := true })

/-- Writes a loop over the keys of an object. -/
def forInStatement (pr : Writer) (left right inner : Tree) : Print := do
  word "for"
  space
  char '('
  loopTarget pr left
  space
  word "in"
  space
  pr right .free
  char ')'
  body pr inner false

/-- Writes a loop over the elements of a sequence. -/
def forOfStatement (pr : Writer) (isAwait : Bool) (left right inner : Tree) : Print := do
  word "for"
  when isAwait (raw " await")
  space
  char '('
  loopTarget pr left
  space
  word "of"
  space
  pr right .item
  char ')'
  body pr inner false

/-- Writes a loop with its test last. -/
def doStatement (pr : Writer) (inner test : Tree) : Print := do
  word "do"
  if isBlock inner then
    space
    block pr inner
    space
  else
    newline
    deeper
    pr inner .free
    settleSemicolon
    shallower
    indent
  raw "while"
  space
  inParentheses pr test
  endStatement

/-! ## 3. Other statements -/

/-- Writes a case. -/
def switchCase (pr : Writer) (t : Tree) : Print := do
  settleSemicolon
  indent
  let test := t.part 0
  if test.isAbsent then raw "default"
  else
    raw "case"
    space
    pr test .free
  char ':'
  match (t.part 1).parts with
  | [only] => body pr only false
  | list =>
    newline
    deeper
    statements pr list
    shallower

/-- Writes a switch. -/
def switchStatement (pr : Writer) (subject : Tree) (cases : List Tree) : Print := do
  word "switch"
  space
  inParentheses pr subject
  space
  braces cases.isEmpty (each (switchCase pr) cases)
  newline
  dropSemicolon

/-- Writes a statement that tries another. -/
def tryStatement (pr : Writer) (inner handler finalizer : Tree) : Print := do
  word "try"
  space
  block pr inner
  match handler with
  | .node .catch _ [parameter, handling] =>
    space
    raw "catch"
    unless parameter.isAbsent do
      space
      inParentheses pr parameter
    space
    block pr handling
  | _ => nothing
  unless finalizer.isAbsent do
    space
    raw "finally"
    space
    block pr finalizer
  newline

/-- Writes a word with an optional value behind it, and ends the statement. -/
def jump (pr : Writer) (name : String) (value : Tree) : Print := do
  word name
  unless value.isAbsent do
    space
    pr value .free
  endStatement

/-- Writes a jump to a label. -/
def labelJump (name : String) (label : Option String) : Print := do
  word name
  match label with
  | some l => do space; word l
  | none => nothing
  endStatement

/-- Starts a line for an expression, unless it is already there. -/
def expressionIndent : Print := do
  let o ← get
  when (o.depth > 0 || o.indentIsSpace) indent

/-- Writes an expression as a statement. -/
def expressionStatement (pr : Writer) (e : Tree) : Print := do
  expressionIndent
  mark fun o => { o with statementStart := some o.length }
  pr e .free
  endStatement

/-! ## 4. Variables -/

/-- Writes the variables of a declaration, without its end. -/
def variableList (pr : Writer) (kind : VariableKind) (isDeclare : Bool) (ds : List Tree)
    (place : Place) : Print := do
  beforeName
  when isDeclare (raw "declare ")
  raw kind.text
  unless ds.isEmpty do space
  separated comma (pr · place) ds

/-- Writes a variable. -/
def declarator (pr : Writer) (definite : Bool) (pattern value : Tree) (place : Place) : Print := do
  match pattern with
  | .node (.typedPattern _) _ [inner, type] =>
    pr inner .free
    when definite (char '!')
    annotation pr type
  | _ =>
    pr pattern .free
    when definite (char '!')
  unless value.isAbsent do
    space
    char '='
    space
    pr value { level := .comma, noIn := place.noIn }

end PackageRefs.Script.Printer
