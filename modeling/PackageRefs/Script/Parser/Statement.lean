/-
# Statements

Blocks, branches, loops and variable declarations.  Declarations of modules and of types have files
of their own; `statement` decides by the first token, or the first few, which of them comes.
-/
import PackageRefs.Script.Parser.Expression

namespace PackageRefs.Script.Parser

/-! ## 1. Variables -/

/-- A variable with its type and value. -/
def declarator (grammar : Grammar) : Parser Tree := do
  let start ← here
  let inner ← grammar .pattern
  let typed ← isTyped
  let definite ←
    if typed && !(← onNewLine) && (match inner.label with | .binding _ => true | _ => false)
    then eat "!" else pure false
  let optional ← if typed then eat "?" else pure false
  let type ← typeAnnotation grammar
  let pattern ← withType start inner optional type
  let value ← if ← eat "=" then grammar (.assignment true) else pure .absent
  complainIf (definite && !value.isAbsent) .definiteWithValue
  complainIf (definite && type.isAbsent) .definiteWithoutType
  node start (.declarator definite) [pattern, value]

/-- Complains about a variable that must have a value and has none. -/
def checkValue (kind : VariableKind) (isDeclare : Bool) (d : Tree) : Parser Unit := do
  if isDeclare || (← context).isAmbient then return
  match d.parts with
  | [pattern, value] =>
    if value.isAbsent then
      let inner :=
        match pattern with
        | .node (.typedPattern _) _ (p :: _) => p
        | p => p
      match inner.label with
      | .binding _ =>
        complainIf (kind == .const) .constWithoutValue
        complainIf (kind == .using || kind == .awaitUsing) .usingWithoutValue
      | _ => complain .patternWithoutValue
  | _ => return

/-- Variables after the word that declares them. -/
def declarators (grammar : Grammar) : Parser (List Tree) := do
  let first ← declarator grammar
  let others ← many do
    if ← eat "," then return some (← declarator grammar)
    return none
  return first :: others

/-- Variables of a statement, each checked in its turn. -/
def checkedDeclarators (grammar : Grammar) (kind : VariableKind) (isDeclare : Bool) :
    Parser (List Tree) := do
  let one : Parser Tree := do
    let d ← declarator grammar
    checkValue kind isDeclare d
    return d
  let first ← one
  let others ← many do
    if ← eat "," then return some (← one)
    return none
  return first :: others

/-- The word or words that declare variables, if they are in hand as such. -/
def variableWord : Parser (Option VariableKind) := do
  match ← word? with
  | some "var" => return some .var
  | some "const" => return some .const
  | some "let" =>
    let follows ← nextIs fun t => isName t || isMark "[" t || isMark "\x7b" t
    return if follows then some .let else none
  | some "using" =>
    let follows ← nextIs fun t => isName t && !t.onNewLine
    return if follows then some .using else none
  | some "await" =>
    let follows ← lookahead do
      bump
      if !(← atWord "using") || (← onNewLine) then return false
      bump
      return (← atName) && !(← onNewLine)
    return if follows then some .awaitUsing else none
  | _ => return none

/-- Passes over the words of a declaration. -/
def bumpVariableWord (kind : VariableKind) : Parser Unit := do
  bump
  if kind == .awaitUsing then bump

/-- A statement that declares variables. -/
def variableStatement (grammar : Grammar) (start : Nat) (kind : VariableKind) (isDeclare : Bool) :
    Parser Tree := do
  bumpVariableWord kind
  let ds ← checkedDeclarators grammar kind isDeclare
  semicolon
  node start (.variableList kind isDeclare) ds

/-! ## 2. Blocks and branches -/

/-- Statements in braces. -/
def block (grammar : Grammar) : Parser Tree := do
  let start ← here
  expect "\x7b"
  let at_ ← here
  let items ← until_ "\x7d" (grammar .statement)
  let statements ← node at_ .statements items
  expect "\x7d"
  node start .block [statements]

/-- A condition in parentheses. -/
def condition (grammar : Grammar) : Parser Tree := do
  expect "("
  let e ← withContext ({ · with allowIn := true }) (grammar .expression)
  expect ")"
  return e

/-- A conditional statement. -/
def ifStatement (grammar : Grammar) : Parser Tree := do
  let start ← here
  bump
  let test ← condition grammar
  let yes ← grammar .body
  let no ← if ← eatWord "else" then grammar .body else pure .absent
  node start .if [test, yes, no]

/-- A case of a switch. -/
def switchCase (grammar : Grammar) : Parser Tree := do
  let start ← here
  let test ←
    if ← eatWord "default" then pure .absent
    else do
      expectWord "case"
      grammar .expression
  expect ":"
  let at_ ← here
  let items ← many do
    if (← atWord "case") || (← atWord "default") || (← atBlockEnd) then return none
    let t ← grammar .statement
    let isUsing : Bool :=
      match t.label with
      | .variableList .using _ | .variableList .awaitUsing _ => true
      | _ => false
    complainIf isUsing .usingInCase
    return some t
  let statements ← node at_ .statements items
  node start .case [test, statements]

/-- A switch. -/
def switchStatement (grammar : Grammar) : Parser Tree := do
  let start ← here
  bump
  let subject ← condition grammar
  expect "\x7b"
  let cases ← many do
    if ← atBlockEnd then return none
    if (← atWord "case") || (← atWord "default") then return some (← switchCase grammar)
    unexpected
  expect "\x7d"
  node start .switch (subject :: cases)

/-- A statement that tries another. -/
def tryStatement (grammar : Grammar) : Parser Tree := do
  let start ← here
  bump
  let body ← grammar .block
  let handler ←
    if ← atWord "catch" then do
      let at_ ← here
      bump
      let parameter ←
        if ← eat "(" then do
          let at_ ← here
          let inner ← grammar .pattern
          let p ← withType at_ inner false (← typeAnnotation grammar)
          expect ")"
          pure p
        else pure .absent
      let inner ← grammar .block
      node at_ .catch [parameter, inner]
    else pure .absent
  let finalizer ← if ← eatWord "finally" then grammar .block else pure .absent
  complainIf (handler.isAbsent && finalizer.isAbsent) .handlerExpected
  node start .try [body, handler, finalizer]

/-! ## 3. Loops -/

/-- A loop with its test first. -/
def whileStatement (grammar : Grammar) : Parser Tree := do
  let start ← here
  bump
  let test ← condition grammar
  let body ← grammar .body
  node start .while [test, body]

/-- A loop with its test last. -/
def doStatement (grammar : Grammar) : Parser Tree := do
  let start ← here
  bump
  let body ← grammar .body
  expectWord "while"
  let test ← condition grammar
  let _ ← eat ";"
  node start .doWhile [body, test]

/-- The rest of a counting loop after its first part. -/
def countingLoop (grammar : Grammar) (start : Nat) (first : Tree) (isAwait : Bool) :
    Parser Tree := do
  expect ";"
  match first with
  | .node (.variableList kind isDeclare) _ ds => for d in ds do checkValue kind isDeclare d
  | _ => pure ()
  let inside := withContext ({ · with allowIn := true }) (grammar .expression)
  let test ← if (← atMark ";") || (← atMark ")") then pure .absent else inside
  expect ";"
  let step ← if ← atMark ")" then pure .absent else inside
  expect ")"
  complainIf isAwait .awaitOutsideForOf
  let body ← grammar .body
  node start .for [first, test, step, body]

/-- The rest of a loop over the parts of a value after its left side; `in` or `of` is in hand. -/
def iterationLoop (grammar : Grammar) (start : Nat) (left : Tree) (isAwait : Bool) :
    Parser Tree := do
  let isIn ← atWord "in"
  bump
  let right ← withContext ({ · with allowIn := true })
    (if isIn then grammar .expression else grammar (.assignment true))
  expect ")"
  complainIf (isAwait && isIn) .awaitOutsideForOf
  let body ← grammar .body
  node start (if isIn then .forIn else .forOf isAwait) [left, right, body]

/-- A loop that starts with `for`. -/
def forStatement (grammar : Grammar) : Parser Tree := do
  let start ← here
  bump
  let isAwait ← eatWord "await"
  complainIf (isAwait && !(← context).isAwait) .awaitOutsideAsync
  expect "("
  if (← atMark ";") || (← atMark ")") then countingLoop grammar start .absent isAwait
  else
    let at_ ← here
    let usingOf ← lookahead do
      unless ← eatWord "using" do return false
      atWord "of"
    let word ← if usingOf then pure none else variableWord
    match word with
    | some kind =>
      bumpVariableWord kind
      let ds ← withContext ({ · with allowIn := false }) (declarators grammar)
      let first ← node at_ (.variableList kind false) ds
      if (← atWord "in") || (← atWord "of") then
        complainIf ((← atWord "in") && (kind == .using || kind == .awaitUsing))
          (.usingForIn (kind == .awaitUsing))
        iterationLoop grammar start first isAwait
      else countingLoop grammar start first isAwait
    | none =>
      let isLet ← atWord "let"
      let isAsync ← pure ((← atWord "async") && (← nextIs (isWord "of")))
      let e ← withContext ({ · with allowIn := false }) (grammar .expression)
      if (← atWord "in") || (← atWord "of") then
        let isOf ← atWord "of"
        complainIf (isOf && isLet) .letForOf
        complainIf (isOf && isAsync && !isAwait) .asyncForOf
        let left ← target e
        iterationLoop grammar start left isAwait
      else countingLoop grammar start e isAwait

/-! ## 4. Jumps -/

/-- A jump to a label or out of the innermost statement. -/
def jumpStatement (isBreak : Bool) : Parser Tree := do
  let start ← here
  bump
  let label ←
    if ← canEndStatement then pure none
    else do
      let w ← newName
      pure (some w)
  semicolon
  node start (if isBreak then .break label else .continue label) []

/-- A return. -/
def returnStatement (grammar : Grammar) : Parser Tree := do
  let start ← here
  bump
  complainIf (!(← context).isReturn) .returnOutsideFunction
  let value ←
    if ← canEndStatement then pure .absent
    else withContext ({ · with allowIn := true }) (grammar .expression)
  semicolon
  node start .return [value]

/-- A throw. -/
def throwStatement (grammar : Grammar) : Parser Tree := do
  let start ← here
  bump
  complainIf (← onNewLine) .newlineAfterThrow
  let value ← grammar .expression
  semicolon
  node start .throw [value]

/-- A statement that adds the names of an object to the scope. -/
def withStatement (grammar : Grammar) : Parser Tree := do
  let start ← here
  bump
  let object ← condition grammar
  let body ← grammar .body
  node start .with [object, body]

/-- A statement that is an expression, or has a label. -/
def expressionStatement (grammar : Grammar) : Parser Tree := do
  let start ← here
  let e ← withContext ({ · with allowIn := true }) (grammar .expression)
  match e with
  | .node (.identifier name) _ [] =>
    if ← eat ":" then
      let body ← grammar .body
      return ← node start (.labeled name) [body]
  | _ => pure ()
  semicolon
  node start .expressionStatement [e]

end PackageRefs.Script.Parser
