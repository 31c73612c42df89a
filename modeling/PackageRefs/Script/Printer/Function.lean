/-
# Writing functions and classes

Functions, methods and arrow functions share their parameter lists; classes hold methods.  A function
or a class that starts a statement is put in parentheses, as it would be read as a declaration
otherwise.
-/
import PackageRefs.Script.Printer.Literal

namespace PackageRefs.Script.Printer

/-! ## 1. Lists of statements -/

/-- The expression of a statement that is only a string, which would be read as a directive. -/
def stringStatement? : Tree → Option Tree
  | .node .expressionStatement _ [e] =>
    let inner := e.withoutParentheses
    match inner.label with
    | .string .. => some inner
    | _ => none
  | _ => none

/-- Writes a directive and the comments before it. -/
def directive (pos : Nat) (text : String) : Print := do
  commentsAt pos
  indent
  let quote := directiveQuote text.toList
  char quote
  raw text
  char quote
  char ';'
  newline

/-- Writes statements, each behind the semicolon of the one before. -/
def statements (pr : Writer) (ts : List Tree) : Print :=
  each (fun t => do settleSemicolon; pr t .free) ts

/-- Writes directives and statements.  A string that starts the statements is put in parentheses if
there are no directives. -/
def directivesAndStatements (pr : Writer) (directives statementList : Tree) : Print := do
  each
    (fun d =>
      match d.label with
      | .directive text => directive d.span.start text
      | _ => nothing)
    directives.parts
  match statementList.parts with
  | [] => nothing
  | first :: rest =>
    let compact ← isCompact
    match stringStatement? first, directives.parts.isEmpty && !compact with
    | some e, true =>
      char '('
      pr e .free
      char ')'
      endStatement
    | _, _ => pr first .free
    statements pr rest

/-- Writes the body of a function. -/
def functionBody (pr : Writer) (body : Tree) : Print := do
  let last ← takeComments (body.span.stop - 1)
  let directives := body.part 0
  let list := body.part 1
  let empty := directives.parts.isEmpty && list.parts.isEmpty
  let oneLine := empty && last.all fun c => !c.newlineBefore && !c.newlineAfter
  braces oneLine do
    directivesAndStatements pr directives list
    closingComments last
  dropSemicolon

/-! ## 2. Parameters -/

/-- Writes a type after a colon. -/
def annotation (pr : Writer) (type : Tree) : Print := do
  unless type.isAbsent do
    char ':'
    space
    pr type .free

/-- Writes a type after a colon and a blank, also in compact text. -/
def wideAnnotation (pr : Writer) (type : Tree) : Print := do
  unless type.isAbsent do
    raw ": "
    pr type .free

/-- Writes parameters and the parentheses around them. -/
def parameters (pr : Writer) (this list : Tree) : Print := do
  char '('
  unless this.isAbsent do
    pr this .free
    unless list.parts.isEmpty do comma
  separated comma (pr · .free) list.parts
  char ')'

/-- A decorator needs parentheses around its expression, unless that is a name or an access by name,
or a call of one. -/
def decoratorNeedsParentheses : Tree → Bool
  | .node (.identifier _) _ _ | .node (.member ..) _ _ | .node (.privateMember ..) _ _ => false
  | .node (.call ..) _ (callee :: _) => decoratorNeedsParentheses callee
  | _ => true

/-- Writes decorators, each with a space behind it. -/
def decorators (pr : Writer) (list : Tree) : Print :=
  each
    (fun d => do
      char '@'
      let e := d.part 0
      wrapped (decoratorNeedsParentheses e) (pr e .free)
      char ' ')
    list.parts

/-- Writes a word and the space behind it. -/
def wordThenSpace (s : String) : Print := do
  word s
  space

/-- Writes a parameter with its decorators and modifiers. -/
def parameter (pr : Writer) (m : Modifiers) (marks pattern : Tree) : Print := do
  decorators pr marks
  match m.access with
  | some access => wordThenSpace access
  | none => nothing
  when m.isOverride (wordThenSpace "override")
  when m.isReadonly (wordThenSpace "readonly")
  pr pattern .free

/-! ## 3. Functions -/

/-- Writes that calls of the function after it have no effect. -/
def harmlessNote (between : Char) : Print := do
  unless ← isCompact do
    raw "/* @__NO_SIDE_EFFECTS__ */"
    char between

/-- What comes after a function's name; the type that it gives back has a blank before it behind the
word `function`, also in compact text. -/
def functionTail (pr : Writer) (isMethod : Bool) (generics this list type body : Tree) : Print := do
  unless generics.isAbsent do pr generics .free
  parameters pr this list
  if isMethod then annotation pr type else wideAnnotation pr type
  if body.isAbsent then char ';'
  else
    space
    functionBody pr body

/-- A statement or a default export starts here. -/
def startsStatement : StateM Output Bool := do
  let o ← get
  return o.statementStart == some o.length || o.defaultStart == some o.length

/-- Writes a function. -/
def function (pr : Writer) (role : FunctionRole) (isAsync isGenerator isDeclare inParentheses : Bool)
    (parts : List Tree) : Print := do
  match parts with
  | [name, generics, this, list, type, body] =>
    let starts ← startsStatement
    wrapped (role == .expression && (starts || inParentheses)) do
      beforeName
      when isDeclare (raw "declare ")
      when isAsync (raw "async ")
      raw "function"
      when isGenerator (do char '*'; space)
      unless name.isAbsent do
        beforeName
        pr name .free
      functionTail pr false generics this list type body
  | _ => nothing

/-- The only parameter of an arrow function, if it can be written without parentheses. -/
def bareParameter : Tree → Tree → Tree → Bool
  | generics, .node .parameters _ [.node (.binding _) _ _], type => generics.isAbsent && type.isAbsent
  | _, _, _ => false

/-- The expression that is the body of an arrow function. -/
def bodyExpression? (body : Tree) : Option Tree :=
  match (body.part 1).parts with
  | .node .expressionStatement _ [e] :: _ => some e
  | _ => none

/-- Writes an arrow function. -/
def arrow (pr : Writer) (isAsync expressionBody inParentheses : Bool) (parts : List Tree)
    (place : Place) : Print := do
  match parts with
  | [generics, list, type, body] =>
    let compact ← isCompact
    wrapped (Precedence.assign.rank ≤ place.level.rank || inParentheses) do
      when isAsync (do beforeName; raw "async"; space)
      unless generics.isAbsent do pr generics .free
      if compact && bareParameter generics list type then separated comma (pr · .free) list.parts
      else parameters pr .absent list
      annotation pr type
      space
      raw "=>"
      space
      if expressionBody then
        match bodyExpression? body with
        | some e =>
          mark fun o => { o with arrowStart := some o.length }
          pr e { place with level := .comma, noCall := false }
        | none => nothing
      else functionBody pr body
  | _ => nothing

/-! ## 4. Members -/

/-- Writes a key, in brackets if it is computed.  A string as a key may not have back quotes. -/
def key (pr : Writer) (computed : Bool) (k : Tree) : Print := do
  wrappedIn computed do
    match k.label with
    | .string value lone => string value lone false
    | _ => pr k .item
where
  /-- Writes in brackets. -/
  wrappedIn (computed : Bool) (inner : Print) : Print := do
    when computed (char '[')
    inner
    when computed (char ']')

/-- Writes the words before a member of a class. -/
def memberWords (m : Modifiers) : Print := do
  when m.isDeclare (wordThenSpace "declare")
  match m.access with
  | some access => wordThenSpace access
  | none => nothing
  when m.isAbstract (do beforeName; raw "abstract ")
  when m.isStatic (wordThenSpace "static")
  when m.isReadonly (wordThenSpace "readonly")

/-- Writes the words before a field that is an accessor, of which `abstract` comes first. -/
def accessorWords (m : Modifiers) (computed : Bool) : Print := do
  when m.isAbstract (do beforeName; raw "abstract ")
  match m.access with
  | some access => wordThenSpace access
  | none => nothing
  when m.isStatic (wordThenSpace "static")
  beforeName
  raw "accessor"
  if computed then space else char ' '

/-- Writes the word before an accessor. -/
def accessorWord (kind : MethodKind) : Print :=
  match kind with
  | .get => wordThenSpace "get"
  | .set => wordThenSpace "set"
  | _ => nothing

/-- Writes a method after the words before it. -/
def method (pr : Writer) (kind : MethodKind) (computed optional : Bool) (k f : Tree) : Print := do
  accessorWord kind
  match f with
  | .node (.function _ isAsync isGenerator _ _ _) _ [_, generics, this, list, type, body] =>
    when isAsync (wordThenSpace "async")
    when isGenerator (char '*')
    key pr computed k
    when optional (char '?')
    functionTail pr true generics this list type body
  | _ => nothing

/-- Writes a field. -/
def field (pr : Writer) (computed accessor : Bool) (m : Modifiers) (parts : List Tree) : Print := do
  match parts with
  | [marks, k, type, value] =>
    decorators pr marks
    if accessor then accessorWords m computed else memberWords m
    key pr computed k
    when m.isOptional (char '?')
    annotation pr type
    unless value.isAbsent do
      space
      char '='
      space
      pr value .item
  | _ => nothing

/-- Writes a member of a class and ends it. -/
def classMember (pr : Writer) (t : Tree) : Print := do
  settleSemicolon
  commentsAt t.span.start
  indent
  match t with
  | .node .staticBlock _ [list] =>
    raw "static"
    space
    braces list.parts.isEmpty (statements pr list.parts)
    dropSemicolon
    newline
  | .node (.methodDefinition kind computed m) _ [marks, k, f] =>
    decorators pr marks
    memberWords m
    method pr kind computed m.isOptional k f
    newline
  | .node (.field computed accessor m) _ parts =>
    field pr computed accessor m parts
    endStatement
  | _ =>
    pr t .free
    endStatement

/-- Writes a class. -/
def «class» (pr : Writer) (isDeclaration isAbstract isDeclare : Bool) (parts : List Tree) :
    Print := do
  match parts with
  | [marks, name, generics, parent, parentArgs, implemented, body] =>
    let starts ← startsStatement
    wrapped (!isDeclaration && starts) do
      decorators pr marks
      beforeName
      when isDeclare (raw "declare ")
      when isAbstract (raw "abstract ")
      raw "class"
      unless name.isAbsent do
        char ' '
        pr name .free
      unless generics.isAbsent do pr generics .free
      unless parent.isAbsent do
        raw " extends "
        pr parent (.under .postfixed)
        unless parentArgs.isAbsent do pr parentArgs .free
      unless implemented.isAbsent do
        raw " implements "
        separated comma (pr · .free) implemented.parts
      space
      braces body.parts.isEmpty (each (classMember pr) body.parts)
      dropSemicolon
  | _ => nothing

end PackageRefs.Script.Printer
