/-
# Writing expressions and patterns

An expression is put in parentheses when its surroundings bind at least as tightly as it does itself.
The parentheses of the source leave no trace of their own.
-/
import PackageRefs.Script.Printer.Function

namespace PackageRefs.Script.Printer

/-! ## 1. Arrays and objects -/

/-- Writes elements in brackets, on lines of their own if there are more than two.  A hole at the end
needs a comma. -/
def array (pr : Writer) (elements : List Tree) : Print := do
  let manyLines := elements.length > 2
  let start : Print := when manyLines (do newline; indent)
  char '['
  when manyLines deeper
  start
  separated (do char ','; if manyLines then start else space) (pr · .item) elements
  when (elements.getLast?.any fun t => t.label == .elision) (char ',')
  when manyLines (do newline; shallower; indent)
  char ']'

/-- The key is the name that the value refers to. -/
def isShorthand (k value : Tree) (written : Bool) : Bool :=
  match k.label with
  | .propertyName "__proto__" => written
  | .propertyName name => value.withoutParentheses.identifierName? == some name
  | _ => false

/-- A number as a key that could not be read back without brackets. -/
def keyNeedsBrackets (k : Tree) : Bool :=
  match k.label with
  | .number x => x.isNegative || x.isInfinite
  | _ => false

/-- Writes a property of an object. -/
def property (pr : Writer) (computed shorthand : Bool) (k value : Tree) : Print := do
  unless isShorthand k value shorthand do
    key pr (computed || keyNeedsBrackets k) k
    char ':'
    space
  pr value .item

/-- Writes an object, on lines of its own if it has more than one property. -/
def object (pr : Writer) (properties : List Tree) : Print := do
  let o ← get
  let manyLines := properties.length > 1
  wrapped (o.statementStart == some o.length || o.arrowStart == some o.length) do
    char '\x7b'
    when manyLines deeper
    let item (t : Tree) : Print := do
      if manyLines then
        unless ← ownLineComments t.span.start do newline
        indent
      else space
      pr t .free
    separated (char ',') item properties
    if manyLines then
      newline
      shallower
      indent
    else unless properties.isEmpty do space
    char '\x7d'

/-! ## 2. Calls and accesses -/

/-- Writes arguments, on lines of their own if comments stand between them. -/
def arguments (pr : Writer) (span : Span) (args : List Tree) : Print := do
  char '('
  let atEnd ← hasComments (span.stop - 1)
  let before ← args.anyM fun t => hasComments t.span.start
  if atEnd || before then
    deeper
    let item (t : Tree) : Print := do
      unless ← ownLineComments t.span.start do newline
      indent
      pr t .item
    separated (char ',') item args
    let last ← if atEnd then ownLineComments (span.stop - 1) else pure false
    unless last do newline
    shallower
    indent
  else separated comma (pr · .item) args
  char ')'

/-- What says that a call has no effect. -/
def harmlessComment : String := "/* @__PURE__ */ "

/-- Writes a call. -/
def call (pr : Writer) (optional isPure : Bool) (span : Span) (parts : List Tree) (place : Place) :
    Print := do
  match parts with
  | callee :: generics :: args =>
    let o ← get
    let isStatement := o.statementStart == some o.length
    let isDefault := o.defaultStart == some o.length
    let isPure := isPure && o.style == .spacious
    let wrap := Precedence.new.rank ≤ place.level.rank || place.noCall ||
      (isPure && Precedence.postfixed.rank ≤ place.level.rank)
    wrapped wrap do
      when isPure (raw harmlessComment)
      if isDefault then mark fun o => { o with defaultStart := some o.length }
      else when isStatement (mark fun o => { o with statementStart := some o.length })
      pr callee (.under .postfixed)
      when optional (raw "?.")
      unless generics.isAbsent do pr generics .free
      arguments pr span args
  | _ => nothing

/-- Writes a construction. -/
def construction (pr : Writer) (isPure : Bool) (span : Span) (parts : List Tree) (place : Place) :
    Print := do
  match parts with
  | callee :: generics :: args =>
    let compact ← isCompact
    let isPure := isPure && !compact
    let wrap := Precedence.call.rank ≤ place.level.rank ||
      (isPure && Precedence.postfixed.rank ≤ place.level.rank)
    wrapped wrap do
      when isPure (raw harmlessComment)
      word "new"
      space
      pr callee { level := .new, noCall := true }
      unless generics.isAbsent do pr generics .free
      unless compact && args.isEmpty && place.level.rank < Precedence.postfixed.rank do
        arguments pr span args
  | _ => nothing

/-- The place of the object of an access. -/
def objectPlace (place : Place) : Place := { level := .postfixed, noCall := place.noCall }

/-- Writes an access by name. -/
def access (pr : Writer) (name : String) (optional : Bool) (object : Tree) (place : Place) :
    Print := do
  pr object (objectPlace place)
  let o ← get
  if optional then char '?'
  else when (o.numberEnd == some o.length) (char ' ')
  char '.'
  raw name

/-- Writes an access by index.  The name `let` before a bracket would be read as a declaration. -/
def indexAccess (pr : Writer) (optional : Bool) (object index : Tree) (place : Place) : Print := do
  wrapped (object.withoutParentheses.identifierName? == some "let") (pr object (objectPlace place))
  when optional (raw "?.")
  char '['
  pr index .free
  char ']'

/-- Writes a dynamic import. -/
def importCall (pr : Writer) (phase : Option String) (span : Span) (source options : Tree)
    (place : Place) : Print := do
  let atEnd ← hasComments (span.stop - 1)
  let before ← [source, options].anyM fun t => do
    if t.isAbsent then pure false else hasComments t.span.start
  let apart := atEnd || before
  wrapped (Precedence.new.rank ≤ place.level.rank || place.noCall) do
    word "import"
    match phase with
    | some p => do char '.'; raw p
    | none => nothing
    char '('
    when apart deeper
    if ← ownLineComments source.span.start then indent
    else when apart (do newline; indent)
    pr source .item
    unless options.isAbsent do
      char ','
      if apart then (do newline; indent) else space
      pr options .item
    if apart then
      let last ← if atEnd then ownLineComments (span.stop - 1) else pure false
      unless last do newline
      shallower
      indent
    char ')'

/-! ## 3. Templates -/

/-- Writes the pieces of a template with their parts between them. -/
def templatePieces (pr : Writer) : List Tree → Print
  | [] => nothing
  | t :: rest => do
    match t.label with
    | .quasi text _ => chars (escapeClosingTag text.toList)
    | _ =>
      raw "$\x7b"
      pr t .free
      char '\x7d'
    templatePieces pr rest

/-- Writes a template. -/
def template (pr : Writer) (parts : List Tree) : Print := do
  char '\x60'
  templatePieces pr parts
  char '\x60'

/-! ## 4. Operators -/

/-- The sign of an operator before an operand. -/
def UnaryOp.sign : UnaryOp → Sign
  | .plus => .plus
  | .minus => .minus
  | .logicalNot => .logicalNot
  | _ => .other

/-- The sign of an operator between operands. -/
def BinaryOp.sign : BinaryOp → Sign
  | .add => .add
  | .sub => .sub
  | .gt => .greater
  | _ => .other

/-- Writes an operator before its operand. -/
def unary (pr : Writer) (op : UnaryOp) (operand : Tree) (place : Place) : Print := do
  wrapped (Precedence.prefixed.rank ≤ place.level.rank) do
    if op.isWord then
      word op.text
      space
    else
      beforeSign (UnaryOp.sign op)
      raw op.text
      afterSign (UnaryOp.sign op)
    pr operand { place with level := .exponentiation }

/-- Writes a step of a variable. -/
def update (pr : Writer) (increment before : Bool) (target : Tree) (place : Place) : Print := do
  let text := if increment then "++" else "--"
  if before then
    let sign := if increment then Sign.increment else .decrement
    wrapped (Precedence.prefixed.rank ≤ place.level.rank) do
      beforeSign sign
      raw text
      afterSign sign
      pr target { place with level := .prefixed }
  else
    wrapped (Precedence.postfixed.rank ≤ place.level.rank) do
      pr target { place with level := .postfixed }
      raw text
      afterSign (if increment then .other else .decrementAfter)

/-- The expression is an operator before an operand, a power of which must be in parentheses. -/
def isPrefixed (t : Tree) : Bool :=
  match t.withoutParentheses.label with
  | .unary _ | .await => true
  | .number x => x.isNegative
  | _ => false

/-- Writes two operands with an operator between them. -/
def binary (pr : Writer) (op : BinaryOp) (left right : Tree) (place : Place) : Print := do
  let p := op.precedence
  let wrap := p.rank ≤ place.level.rank || (op == .inside && place.noIn)
  let noIn := place.noIn && !wrap
  let leftLevel := if op != .pow then p.looser else if isPrefixed left then .call else p
  let rightLevel := if op == .pow then p.looser else p
  wrapped wrap do
    pr left { place with level := leftLevel, noIn, noCall := false }
    space
    if op.isWord then word op.text
    else
      beforeSign (BinaryOp.sign op)
      raw op.text
      afterSign (BinaryOp.sign op)
    space
    pr right { place with level := rightLevel, noIn, noCall := false }

/-- An operand of `??` that mixes it with the other logical operators. -/
def mixed (t : Tree) : Bool :=
  match t.withoutParentheses.label with
  | .logical .or | .logical .and => true
  | _ => false

/-- Writes two operands with a logical operator between them.  The right operand may be an expression
with the same operator, as the order of evaluation stays the same. -/
def logical (pr : Writer) (op : LogicalOp) (left right : Tree) (place : Place) : Print := do
  let p := op.precedence
  let wrap := p.rank ≤ place.level.rank
  let noIn := place.noIn && !wrap
  let level (t : Tree) (usual : Precedence) : Precedence :=
    if op == .coalesce && mixed t then .prefixed else usual
  wrapped wrap do
    pr left { place with level := level left p.looser, noIn, noCall := false }
    space
    raw op.text
    space
    pr right { place with level := level right p.looser, noIn, noCall := false }

/-- Writes a conditional expression. -/
def conditional (pr : Writer) (test yes no : Tree) (place : Place) : Print := do
  let wrap := Precedence.conditional.rank ≤ place.level.rank
  let noIn := place.noIn && !wrap
  wrapped wrap do
    pr test { level := .conditional, noIn }
    space
    char '?'
    space
    pr yes (.under .yield)
    space
    char ':'
    space
    pr no { level := .yield, noIn }

/-- The target takes an object apart. -/
def isObjectTarget (t : Tree) : Bool :=
  match t.label with
  | .objectTarget => true
  | _ => false

/-- Writes an assignment; one that starts a statement with a brace is put in parentheses. -/
def assignment (pr : Writer) (op : AssignOp) (target value : Tree) (place : Place) : Print := do
  let o ← get
  let starts := o.statementStart == some o.length || o.arrowStart == some o.length
  let wrap := (starts && isObjectTarget target) || Precedence.assign.rank ≤ place.level.rank
  wrapped wrap do
    pr target { place with level := .comma }
    space
    raw op.text
    space
    pr value { place with level := .comma, noIn := place.noIn && !wrap }

/-- Writes expressions with commas between them.  Where the operator `in` is not allowed, none of them
may have it outside of parentheses of its own. -/
def sequence (pr : Writer) (items : List Tree) (place : Place) : Print := do
  wrapped (Precedence.comma.rank ≤ place.level.rank) do
    separated comma (pr · { level := .lowest, noIn := place.noIn }) items

/-- Writes an expression that yields a value. -/
def yieldExpression (pr : Writer) (delegate : Bool) (value : Tree) (place : Place) : Print := do
  wrapped (Precedence.assign.rank ≤ place.level.rank) do
    word "yield"
    when delegate (char '*')
    unless value.isAbsent do
      space
      pr value (.under .yield)

/-- Writes an expression that waits for a value. -/
def await (pr : Writer) (value : Tree) (place : Place) : Print := do
  wrapped (Precedence.prefixed.rank ≤ place.level.rank) do
    word "await"
    space
    pr value { place with level := .exponentiation }

/-! ## 5. Patterns and targets -/

/-- The name that a pattern binds, with or without a default. -/
def boundName? : Tree → Option String
  | .node (.binding name) _ _ => some name
  | .node .patternDefault _ (.node (.binding name) _ _ :: _) => some name
  | _ => none

/-- Writes a property of an object pattern. -/
def patternProperty (pr : Writer) (computed : Bool) (k value : Tree) : Print := do
  let short : Bool :=
    match k.label with
    | .propertyName name => boundName? value == some name
    | _ => false
  unless short do
    key pr computed k
    char ':'
    space
  pr value .item

/-- Writes an object pattern. -/
def objectPattern (pr : Writer) (properties : List Tree) : Print := do
  char '\x7b'
  unless properties.isEmpty do
    space
    separated comma (pr · .item) properties
    space
  char '\x7d'

/-- Writes the elements of a pattern or target in brackets.  A hole needs a comma behind it, also at
the end. -/
def elements (pr : Writer) (items : List Tree) : Print := do
  char '['
  separated comma (pr · .item) items
  when (items.getLast?.any fun t => t.label == .elision) (char ',')
  char ']'

/-- Writes a property of an object that is assigned to. -/
def targetProperty (pr : Writer) (computed shorthand : Bool) (k value : Tree) : Print := do
  let short : Bool :=
    match value with
    | .node (.identifier name) _ _ => shorthand || k.label == .propertyName name
    | _ => shorthand
  unless short do
    key pr computed k
    char ':'
    space
  pr value .item

/-- Writes a pattern or a target with its default. -/
def withDefault (pr : Writer) (pattern value : Tree) : Print := do
  pr pattern .item
  space
  char '='
  space
  pr value .item

end PackageRefs.Script.Printer
