/-
# Functions

Function declarations, function expressions, methods and arrow functions.

An arrow function cannot be told from an expression in parentheses by its first token.  A short look
ahead settles most cases; in the others the parameter list is tried, and given up when no arrow
follows it.  A place where the try was in vain is remembered, so that it is not made again.
-/
import PackageRefs.Script.Parser.Type

namespace PackageRefs.Script.Parser

/-! ## 1. Bodies -/

/-- The surroundings inside a function. -/
def functionContext (isAsync isGenerator : Bool) (c : Context) : Context :=
  { c with allowIn := true, isAwait := isAsync, isYield := isGenerator, isDecorator := false }

/-- The statement is a directive: a string literal without parentheses. -/
def directive? (raw : String) : Tree → Option Tree
  | .node .expressionStatement s [.node (.string ..) t _] =>
    if s.start == t.start then some (.node (.directive raw) s []) else none
  | _ => none

/-- The text of the string literal in hand. -/
def rawString : Parser String := read fun s =>
  match s.token.lexeme with
  | .string _ _ raw => raw
  | _ => ""

/-- Statements that may be directives; the fuel bounds their number. -/
def directiveList (grammar : Grammar) (close : Parser Bool) :
    Nat → List Tree → Parser (List Tree × List Tree)
  | 0, seen => result (seen.reverse, [])
  | fuel + 1, seen => do
    if ← close then return (seen.reverse, [])
    let raw ← rawString
    let first ← grammar .statement
    match directive? raw first with
    | some d => directiveList grammar close fuel (d :: seen)
    | none => return (seen.reverse, [first])

/-- The statements of a program or a function body, with the directives before them. -/
def statementsUntil (grammar : Grammar) (close : Parser Bool) : Parser (List Tree) := do
  let start ← here
  let (ds, first) ← directiveList grammar close (← fuel) []
  let directives ← node start .directives ds
  let others ← many do
    if ← close then return none
    return some (← grammar .statement)
  let statements ← node start .statements (first ++ others)
  return [directives, statements]

/-- A brace or the end of the text closes the list. -/
def atBlockEnd : Parser Bool := do
  return (← atMark "\x7d") || (← atEnd)

/-- The body of a function in braces. -/
def functionBody (grammar : Grammar) (isAsync isGenerator : Bool) : Parser Tree := do
  let start ← here
  expect "\x7b"
  let parts ← withContext (fun c => { functionContext isAsync isGenerator c with isReturn := true })
    (statementsUntil grammar atBlockEnd)
  expect "\x7d"
  node start .functionBody parts

/-! ## 2. Functions with a body in braces -/

/-- Whether `function` or `async function` is in hand. -/
def atFunction : Parser Bool := do
  if ← atWord "function" then return true
  if ← atWord "async" then
    return ← nextIs fun t => isWord "function" t && !t.onNewLine
  return false

/-- What comes after a function's name: parameters, return type and body. -/
def functionRest (grammar : Grammar) (isAsync isGenerator bodyOptional isConstructor : Bool) :
    Parser (List Tree) := do
  let (generics, this, list, type) ← withContext (functionContext isAsync isGenerator)
    (signatureRest grammar isConstructor)
  let body ← if ← atMark "\x7b" then grammar (.functionBody isAsync isGenerator) else pure .absent
  if body.isAbsent then
    unless bodyOptional do unexpected
    semicolon
  return [generics, this, list, type, body]

/-- A function after the word `async` or where it could stand. -/
def functionAfterWord (grammar : Grammar) (start : Nat) (role : FunctionRole)
    (nameOptional isAsync isDeclare : Bool) : Parser Tree := do
  expectWord "function"
  let isGenerator ← eat "*"
  let name ←
    if ← atName then
      if role == .expression then
        withContext (functionContext isAsync isGenerator) binding
      else binding
    else if nameOptional then pure .absent
    else if ← atMark "(" then
      complain (.other "Expected function name")
      pure .absent
    else if ← atAnyWord then missing "Identifier"
    else pure .absent
  let parts ← functionRest grammar isAsync isGenerator (← isTyped) false
  complainIf (isDeclare && parts.getLast?.any fun body => !body.isAbsent) .bodyOfDeclared
  node start (.function role isAsync isGenerator isDeclare false false) (name :: parts)

/-- A function declaration or expression; `async` or `function` is in hand. -/
def function (grammar : Grammar) (start : Nat) (role : FunctionRole) (isDeclare : Bool) :
    Parser Tree := do
  let isAsync ← eatWord "async"
  functionAfterWord grammar start role (role == .expression) isAsync isDeclare

/-- A method of an object or a class, from its parameters on. -/
def method (grammar : Grammar) (isAsync isGenerator bodyOptional isConstructor : Bool) :
    Parser Tree := do
  let start ← here
  let parts ← functionRest grammar isAsync isGenerator bodyOptional isConstructor
  node start (.function .method isAsync isGenerator false false false) (.absent :: parts)

/-- Complains about a wrong number of parameters of an accessor: one that reads has none, and one
that writes has one, which neither gathers the rest nor, with types, has a default. -/
def checkAccessor (kind : MethodKind) (f : Tree) : Parser Unit := do
  let items :=
    match f.parts with
    | [_, _, _, list, _, _] => list.parts
    | _ => []
  match kind, items with
  | .get, _ :: _ => complain .getterWithParameters
  | .set, [p] =>
    let hasDefault := (innerParameter p).label == .patternDefault
    complainIf (p.label == .rest) .setterRest
    complainIf (hasDefault && (← isTyped)) .setterDefault
  | .set, _ => complain .setterParameters
  | _, _ => return

/-! ## 3. Arrow functions -/

/-- What a look ahead says about an arrow function. -/
inductive Verdict where
  | yes | no | maybe
  deriving DecidableEq

/-- Whether the parenthesis in hand starts an arrow function. -/
def verdictAfterParenthesis : Parser Verdict := do
  bump
  if ← atMark ")" then
    bump
    if (← atMark "=>") || (← atMark ":") || (← atMark "\x7b") then return .yes
    return .no
  if (← atMark "[") || (← atMark "\x7b") then return .maybe
  if ← atMark "..." then return .yes
  match ← word? with
  | some w =>
    if modifierWords.contains w && w != "async" && (← nextIs isName) then
      bump
      if ← atWord "as" then return .no
      return .yes
    if isReserved w && w != "this" then return .no
    bump
    if ← atMark ":" then return .yes
    if ← atMark "?" then
      bump
      if (← atMark ":") || (← atMark ",") || (← atMark "=") || (← atMark ")") then return .yes
      return .no
    if (← atMark ",") || (← atMark "=") || (← atMark ")") then return .maybe
    return .no
  | none => return .no

/-- Whether the angle bracket in hand starts an arrow function. -/
def verdictAfterBracket : Parser Verdict := do
  unless ← isTyped do return .no
  bump
  unless (← atName) || (← atWord "const") do return .no
  if (← dialect).jsx then
    let _ ← eatWord "const"
    bump
    if ← atWord "extends" then
      bump
      if (← atMark "=") || (← atMark ">") || (← atMark "/") then return .no
      return .yes
    if (← atMark ",") || (← atMark "=") then return .yes
    return .no
  return .maybe

/-- Whether an arrow function with a parameter list starts here. -/
def arrowVerdict : Parser Verdict := fun s =>
  let p : Parser Verdict := do
    if ← atWord "async" then
      bump
      if ← onNewLine then return .no
      if ← atMark "(" then return ← verdictAfterParenthesis
      if ← atMark "<" then return ← verdictAfterBracket
      return .no
    if ← atMark "(" then return ← verdictAfterParenthesis
    if ← atMark "<" then return ← verdictAfterBracket
    return .no
  match p s with
  | .ok v _ => .ok v s
  | .fatal _ _ => .ok .no s

/-- The body of an arrow function and whether it is an expression. -/
def arrowBody (grammar : Grammar) (isAsync returnTypeAllowed : Bool) : Parser (Tree × Bool) := do
  if ← atMark "\x7b" then return (← grammar (.functionBody isAsync false), false)
  let start ← here
  let e ← withContext ({ · with isAwait := isAsync, isYield := false })
    (grammar (.assignment returnTypeAllowed))
  let statement ← node start .expressionStatement [e]
  let directives ← node start .directives []
  let statements ← node start .statements [statement]
  return (← node start .functionBody [directives, statements], true)

/-- The head of an arrow function up to its arrow. -/
structure ArrowHead where
  start : Nat
  isAsync : Bool
  parts : List Tree
  hasReturnType : Bool

/-- The head of an arrow function with a parameter list. -/
def arrowHead (grammar : Grammar) : Parser ArrowHead := do
  let start ← here
  let isAsync ← eatWord "async"
  let (generics, this, list) ← withContext (fun c => { c with isAwait := c.isAwait || isAsync }) do
    let generics ← typeParameters grammar
    let (this, list) ← parameters grammar false
    return (generics, this, list)
  complainIf (!this.isAbsent) .thisParameterOnArrow
  let hasReturnType := (← isTyped) && (← atMark ":")
  let type ← returnAnnotation grammar
  complainIf (← onNewLine) .newlineBeforeArrow
  expect "=>"
  return { start, isAsync, parts := [generics, list, type], hasReturnType }

/-- An arrow function after its head. -/
def arrowAfterHead (grammar : Grammar) (head : ArrowHead) (returnTypeAllowed : Bool) :
    Parser Tree := do
  let (body, isExpression) ← arrowBody grammar head.isAsync returnTypeAllowed
  node head.start (.arrow head.isAsync isExpression false false) (head.parts ++ [body])

/-- Tries an arrow function where the look ahead did not settle it.  Once the head with its arrow is
read, there is no way back but for a return type that turned out to be the rest of a conditional. -/
def tryArrow (grammar : Grammar) (returnTypeAllowed : Bool) : Parser (Option Tree) := fun s =>
  let start := s.token.start
  if s.notArrow.contains start then .ok none s
  else
    match arrowHead grammar s with
    | .fatal _ t => .ok none { s with notArrow := start :: t.notArrow }
    | .ok head t =>
      match arrowAfterHead grammar head returnTypeAllowed t with
      | .ok e u =>
        if !returnTypeAllowed && head.hasReturnType && u.token.lexeme != .mark ":" then
          .ok none { s with notArrow := start :: u.notArrow }
        else .ok (some e) u
      | .fatal d u => .fatal d u

/-- An arrow function with a parameter list, if one starts here. -/
def arrowWithList (grammar : Grammar) (returnTypeAllowed : Bool) : Parser (Option Tree) := do
  match ← arrowVerdict with
  | .no => return none
  | .yes =>
    let head ← arrowHead grammar
    return some (← arrowAfterHead grammar head returnTypeAllowed)
  | .maybe => tryArrow grammar returnTypeAllowed

/-- An arrow function whose only parameter is a bare name; the arrow is in hand. -/
def arrowWithName (grammar : Grammar) (start : Nat) (name : Tree) (isAsync returnTypeAllowed : Bool) :
    Parser Tree := do
  let list := Tree.node .parameters name.span [name]
  complainIf (← onNewLine) .newlineBeforeArrow
  expect "=>"
  let (body, isExpression) ← arrowBody grammar isAsync returnTypeAllowed
  node start (.arrow isAsync isExpression false false) [.absent, list, .absent, body]

/-- An asynchronous arrow function whose only parameter is a bare name, if one starts here. -/
def asyncArrowWithName (grammar : Grammar) (returnTypeAllowed : Bool) : Parser (Option Tree) := do
  let found ← lookahead do
    unless ← atWord "async" do return false
    bump
    if (← onNewLine) || !(← atName) then return false
    bump
    return (← atMark "=>") && !(← onNewLine)
  unless found do return none
  let start ← here
  bump
  let name ← withContext ({ · with isAwait := true }) binding
  return some (← arrowWithName grammar start name true returnTypeAllowed)

end PackageRefs.Script.Parser
