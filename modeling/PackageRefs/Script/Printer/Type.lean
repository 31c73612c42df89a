/-
# Writing types

Types, their parameters and arguments, and the members of object types.
-/
import PackageRefs.Script.Printer.Expression

namespace PackageRefs.Script.Printer

/-! ## 1. Lists in angle brackets -/

/-- Writes a list in angle brackets, on lines of its own if it has two items or more. -/
def angled (pr : Writer) (alone : Print) (items : List Tree) : Print := do
  let manyLines := items.length ≥ 2
  let start : Print := when manyLines (do newline; indent)
  char '<'
  when manyLines deeper
  start
  separated (do char ','; if manyLines then start else space) (pr · .free) items
  if manyLines then
    newline
    shallower
    indent
  else alone
  char '>'

/-- Writes type parameters; where markup may be written, a single one needs a comma. -/
def typeParameters (pr : Writer) (items : List Tree) : Print := do
  let o ← get
  angled pr (when o.markup (char ',')) items

/-- Writes a type parameter. -/
def typeParameter (pr : Writer) (name : String) (isIn isOut isConst : Bool) (bound default : Tree) :
    Print := do
  when isConst (raw "const ")
  when isIn (raw "in ")
  when isOut (raw "out ")
  word name
  unless bound.isAbsent do
    raw " extends "
    pr bound .free
  unless default.isAbsent do
    space
    char '='
    space
    pr default .free

/-! ## 2. Function types -/

/-- Writes a signature with its return type after a colon. -/
def signature (pr : Writer) (generics this list type : Tree) : Print := do
  unless generics.isAbsent do pr generics .free
  parameters pr this list
  annotation pr type

/-- Writes a function type. -/
def functionType (pr : Writer) (generics this list type : Tree) : Print := do
  unless generics.isAbsent do pr generics .free
  parameters pr this list
  space
  raw "=>"
  space
  pr type .free

/-! ## 3. Object types -/

/-- Writes a property of an object type. -/
def propertySignature (pr : Writer) (computed optional isReadonly : Bool) (k type : Tree) : Print := do
  when isReadonly (raw "readonly ")
  key pr computed k
  when optional (char '?')
  annotation pr type

/-- Writes a method of an object type. -/
def methodSignature (pr : Writer) (kind : MethodKind) (computed optional : Bool)
    (k generics this list type : Tree) : Print := do
  match kind with
  | .get => raw "get "
  | .set => raw "set "
  | _ => nothing
  key pr computed k
  when optional (char '?')
  signature pr generics this list type

/-- Writes an index signature. -/
def indexSignature (pr : Writer) (name : String) (isReadonly : Bool) (keyType type : Tree) :
    Print := do
  when isReadonly (raw "readonly ")
  char '['
  raw name
  char ':'
  space
  pr keyType .free
  char ']'
  annotation pr type

/-- Writes members in braces on lines of their own. -/
def membersOnLines (pr : Writer) (items : List Tree) : Print :=
  braces items.isEmpty
    (each
      (fun t => do
        commentsAt t.span.start
        indent
        pr t .free
        char ';'
        newline)
      items)

/-- Writes a modifier of a mapped type. -/
def mappedModifier (m : MappedModifier) (text : String) : Print :=
  match m with
  | .none => nothing
  | .plain => raw text
  | .plus => do char '+'; raw text
  | .minus => do char '-'; raw text

/-- Writes a mapped type; a space stands on both sides of the colon. -/
def mappedType (pr : Writer) (name : String) (optional readonly : MappedModifier)
    (bound renamed type : Tree) : Print := do
  char '\x7b'
  space
  mappedModifier readonly "readonly "
  char '['
  raw name
  raw " in "
  pr bound .free
  unless renamed.isAbsent do
    raw " as "
    pr renamed .free
  char ']'
  mappedModifier optional "?"
  space
  annotation pr type
  space
  char '\x7d'

/-! ## 4. Other types -/

/-- Writes a type with a mark behind or before it. -/
def markedType (sign : Char) (postfixed : Bool) (type : Print) : Print := do
  unless postfixed do char sign
  type
  when postfixed (char sign)

/-- Writes types with a mark between them. -/
def joinedTypes (pr : Writer) (sign : Char) (items : List Tree) : Print :=
  separated (do space; char sign; space) (pr · .free) items

/-- Writes a conditional type. -/
def conditionalType (pr : Writer) (tested bound yes no : Tree) : Print := do
  pr tested .free
  raw " extends "
  pr bound .free
  raw " ? "
  pr yes .free
  raw " : "
  pr no .free

/-- Writes an imported type. -/
def importType (pr : Writer) (argument options qualifier args : Tree) : Print := do
  raw "import("
  pr argument .free
  unless options.isAbsent do
    comma
    pr options .free
  char ')'
  unless qualifier.isAbsent do
    char '.'
    pr qualifier .free
  unless args.isAbsent do pr args .free

/-- Writes a test of a type. -/
def typePredicate (pr : Writer) (asserts : Bool) (subject type : Tree) : Print := do
  when asserts (raw "asserts ")
  pr subject .free
  unless type.isAbsent do
    raw " is "
    pr type .free

/-! ## 5. Types on expressions -/

/-- Writes an expression with a type after a word. -/
def asType (pr : Writer) (e type : Tree) (place : Place) : Print := do
  wrapped (Precedence.shift.rank ≤ place.level.rank) do
    pr e { place with level := .exponentiation }
    raw " as "
    pr type .free

/-- The expression is a function that is written in parentheses anyway. -/
def isWrappedFunction (t : Tree) : Bool :=
  match t.withoutParentheses.label with
  | .function _ _ _ _ wrapped _ => wrapped
  | _ => false

/-- Writes an expression that a type has to fit; the expression stands in parentheses of its own. -/
def satisfies (pr : Writer) (e type : Tree) (place : Place) : Print := do
  char '('
  wrapped (!isWrappedFunction e) (pr e { place with level := place.level, noIn := false })
  raw " satisfies "
  pr type .free
  char ')'

/-- The type starts with an angle bracket. -/
def isFunctionType (t : Tree) : Bool :=
  match t.label with
  | .functionType => true
  | _ => false

/-- Writes a type before an expression. -/
def typeAssertion (pr : Writer) (type e : Tree) (place : Place) : Print := do
  raw "(<"
  when (isFunctionType type) (char ' ')
  pr type .free
  char '>'
  pr e { place with level := .member }
  char ')'

/-- Writes an expression that is not null. -/
def nonNull (pr : Writer) (e : Tree) (place : Place) : Print := do
  pr e place
  char '!'
  when (← isCompact) (char ' ')

end PackageRefs.Script.Printer
