/-
# Expressions

Operands, accesses and calls, operators by their binding strength, and assignments.
-/
import PackageRefs.Script.Parser.Class
import PackageRefs.Script.Parser.Markup
import PackageRefs.Script.Parser.Target

namespace PackageRefs.Script.Parser

/-! ## 1. Arrays and objects -/

/-- A spread after its three dots. -/
def spread (grammar : Grammar) : Parser Tree := do
  let start ← here
  bump
  let e ← grammar (.assignment true)
  node start .spread [e]

/-- Remembers the comma behind a last item that is spread: a target may not have it. -/
def noteRestComma (start : Nat) (items : List Tree) (trailing : Bool) : Parser Unit := do
  if trailing && items.getLast?.any fun t => t.label == .spread then
    modify fun s => { s with restCommas := start :: s.restCommas }

/-- An element of an array. -/
def arrayElement (grammar : Grammar) : Parser Tree := do
  if ← atMark "," then
    let start ← here
    return .node .elision ⟨start, start⟩ []
  else if ← atMark "..." then spread grammar
  else grammar (.assignment true)

/-- An array; its bracket is in hand. -/
def array (grammar : Grammar) : Parser Tree := do
  let start ← here
  bump
  let (items, trailing) ← withContext ({ · with allowIn := true, isDecorator := false })
    (delimited "]" (arrayElement grammar))
  noteRestComma start items trailing
  expect "]"
  node start .array items

/-- A word before a property, unless it is the property's name. -/
def propertyWord (name : String) (star : Bool) : Parser Bool := do
  if (← atWord name) && (← nextIs fun t => startsKey t || (star && isMark "*" t)) then
    bump
    return true
  return false

/-- A property of an object. -/
def objectProperty (grammar : Grammar) : Parser Tree := do
  if ← atMark "..." then spread grammar
  else
    let start ← here
    let isAsync ← do
      if ← nextIs fun t => !t.onNewLine then propertyWord "async" true else pure false
    let accessor ← do
      if isAsync then pure none
      else if ← propertyWord "get" false then pure (some MethodKind.get)
      else if ← propertyWord "set" false then pure (some MethodKind.set)
      else pure none
    let isGenerator ← eat "*"
    let short ← atName
    let (k, computed) ← key grammar
    match accessor with
    | some kind =>
      let f ← method grammar false false false false
      checkAccessor kind f
      node start (.propertyMethod kind computed) [k, f]
    | none =>
      if isAsync || isGenerator || (← atMark "(") || (← atMark "<") then
        let f ← method grammar isAsync isGenerator false false
        node start (.propertyMethod .method computed) [k, f]
      else if short && !(← atMark ":") then
        match k with
        | .node (.propertyName name) span _ =>
          checkName name
          let value := Tree.node (.identifier name) span []
          if ← eat "=" then
            let d ← withContext ({ · with allowIn := true }) (grammar (.assignment true))
            modify fun s => { s with shortDefaults := (start, d) :: s.shortDefaults }
          node start (.property false true) [k, value]
        | _ => unexpected
      else
        expect ":"
        let value ← grammar (.assignment true)
        node start (.property computed false) [k, value]

/-- An object; its brace is in hand. -/
def object (grammar : Grammar) : Parser Tree := do
  let start ← here
  bump
  let (items, trailing) ← withContext ({ · with allowIn := true, isDecorator := false })
    (delimited "\x7d" (objectProperty grammar))
  noteRestComma start items trailing
  expect "\x7d"
  node start .object items

/-! ## 2. Operands -/

/-- Remembers that a function was written in parentheses. -/
def markWrapped : Tree → Tree
  | .node (.function role isAsync isGenerator isDeclare _ isPure) s ps =>
    .node (.function role isAsync isGenerator isDeclare true isPure) s ps
  | .node (.arrow isAsync isExpression _ isPure) s ps =>
    .node (.arrow isAsync isExpression true isPure) s ps
  | t => t

/-- An expression in parentheses. -/
def parenthesized (grammar : Grammar) : Parser Tree := do
  let start ← here
  expect "("
  let inner ← here
  let (items, trailing) ← withContext ({ · with allowIn := true, isDecorator := false })
    (delimited ")" (grammar (.assignment true)))
  if trailing then fatal .parenthesesTrailingComma
  match items with
  | [] =>
    expect ")"
    fatal .emptyParentheses
  | [e] =>
    expect ")"
    node start .parenthesized [markWrapped e]
  | _ =>
    let e ← node inner .sequence items
    expect ")"
    node start .parenthesized [e]

/-- A class with decorators before it, as an expression. -/
def decoratedClass (grammar : Grammar) : Parser Tree := do
  let start ← here
  let marks ← decorators grammar
  let isAbstract ← eatWord "abstract"
  if ← atWord "class" then grammar (.class start isAbstract false false marks.parts)
  else unexpected

/-- An operand without accesses, calls or operators. -/
def primary (grammar : Grammar) : Parser Tree := do
  let start ← here
  match ← lexeme with
  | .string .. | .number _ | .bigint _ => literal
  | .quasi .. =>
    template .template false (withContext ({ · with allowIn := true }) (grammar .expression))
  | .mark m =>
    if m == "(" then parenthesized grammar
    else if m == "[" then array grammar
    else if m == "\x7b" then object grammar
    else if m == "/" || m == "/=" then regexLiteral
    else if m == "@" then decoratedClass grammar
    else if m == "<" && (← dialect).jsx then markup grammar false
    else unexpected
  | .word w _ =>
    if w == "null" || w == "true" || w == "false" then literal
    else if w == "this" then
      bump
      node start .this []
    else if w == "class" then grammar (.class start false false false [])
    else if ← atFunction then function grammar start .expression false
    else identifier
  | _ => unexpected

/-! ## 3. Accesses and calls -/

/-- Arguments of a call in parentheses. -/
def arguments (grammar : Grammar) : Parser (List Tree) := do
  expect "("
  let (items, _) ← withContext ({ · with allowIn := true, isDecorator := false })
    (delimited ")" do if ← atMark "..." then spread grammar else grammar (.assignment true))
  expect ")"
  return items

/-- The access after a dot. -/
def accessAfterDot (start : Nat) (object : Tree) (optional : Bool) : Parser Tree := do
  match ← lexeme with
  | .privateName name => bump; node start (.privateMember name optional) [object]
  | .word name _ => bumpName; node start (.member name optional) [object]
  | _ => unexpected

/-- The access in brackets. -/
def accessInBrackets (grammar : Grammar) (start : Nat) (object : Tree) (optional : Bool) :
    Parser Tree := do
  expect "["
  let index ← withContext ({ · with allowIn := true, isDecorator := false }) (grammar .expression)
  expect "]"
  node start (.index optional) [object, index]

/-- A template after its tag. -/
def taggedTemplate (grammar : Grammar) (start : Nat) (tag : Tree) (inChain : Bool) : Parser Tree := do
  let quasi ← template .template true
    (withContext ({ · with allowIn := true, isDecorator := false }) (grammar .expression))
  complainIf inChain .optionalTemplate
  match tag with
  | .node .instantiation _ [inner, args] => node start .taggedTemplate [inner, args, quasi]
  | _ => node start .taggedTemplate [tag, .absent, quasi]

/-- A quasi is in hand. -/
def atQuasi : Parser Bool := read fun s =>
  match s.token.lexeme with
  | .quasi .. => true
  | _ => false

/-- Accesses after an operand; the second answer says whether one was optional.  The fuel bounds
their number. -/
def accesses (grammar : Grammar) (start : Nat) (optionalAllowed : Bool) :
    Nat → Tree → Bool → Parser (Tree × Bool)
  | 0, e, chain => result (e, chain)
  | fuel + 1, e, chain => do
    if ← eat "." then
      let e ← accessAfterDot start e false
      accesses grammar start optionalAllowed fuel e chain
    else if optionalAllowed && (← atMark "?.") then
      let follows ← nextIs fun t => isAnyWord t || isMark "[" t ||
        (match t.lexeme with | .privateName _ => true | _ => false)
      if follows then
        bump
        let e ←
          if ← atMark "[" then accessInBrackets grammar start e true
          else accessAfterDot start e true
        accesses grammar start optionalAllowed fuel e true
      else return (e, chain)
    else if (← atMark "[") && !(← context).isDecorator then
      let e ← accessInBrackets grammar start e false
      accesses grammar start optionalAllowed fuel e chain
    else if ← atQuasi then
      let e ← taggedTemplate grammar start e chain
      accesses grammar start optionalAllowed fuel e chain
    else if ← isTyped then
      if (← atMark "!") && !(← onNewLine) then
        bump
        let e ← node start .nonNull [e]
        accesses grammar start optionalAllowed fuel e chain
      else
        match ← expressionTypeArguments grammar with
        | some args =>
          let e ← node start .instantiation [e, args]
          accesses grammar start optionalAllowed fuel e chain
        | none => return (e, chain)
    else return (e, chain)

/-- The arguments of a call of the expression; type arguments move into the call. -/
def callAfter (grammar : Grammar) (start : Nat) (callee : Tree) (optional : Bool) (args : Tree) :
    Parser Tree := do
  let items ← arguments grammar
  match callee, optional with
  | .node .instantiation _ [inner, inside], false =>
    node start (.call false false) (inner :: inside :: items)
  | _, _ => node start (.call optional false) (callee :: args :: items)

/-- Accesses and calls after an operand; the fuel bounds their number. -/
def calls (grammar : Grammar) (start : Nat) : Nat → Tree → Bool → Parser (Tree × Bool)
  | 0, e, chain => result (e, chain)
  | fuel + 1, e, chain => do
    let (e, chain) ← accesses grammar start true (fuel + 1) e chain
    if ← atMark "?." then
      bump
      let args ← expressionTypeArguments grammar
      if ← atMark "(" then
        let e ← callAfter grammar start e true (.ofOption args)
        calls grammar start fuel e true
      else if ← atQuasi then
        let e ← taggedTemplate grammar start e true
        calls grammar start fuel e true
      else unexpected
    else if ← atMark "(" then
      let e ← callAfter grammar start e false .absent
      calls grammar start fuel e chain
    else return (e, chain)

/-- A dynamic import or a property of `import`; its word is in hand. -/
def importExpression (grammar : Grammar) : Parser Tree := do
  let start ← here
  expectWord "import"
  let call (phase : Option String) : Parser Tree := do
    expect "("
    if ← eat ")" then fatal .importNeedsArgument
    let (source, options) ← withContext ({ · with allowIn := true, isDecorator := false }) do
      let source ← grammar (.assignment true)
      let options ←
        if (← eat ",") && !(← atMark ")") then grammar (.assignment true) else pure .absent
      return (source, options)
    let _ ← eat ","
    unless ← eat ")" do fatal .importArguments
    node start (.importCall phase) [source, options]
  if ← eat "." then
    match ← word? with
    | some "meta" => bump; node start (.metaProperty "import" "meta") []
    | some "source" => bump; call (some "source")
    | some "defer" => bump; call (some "defer")
    | _ => fatal (.invalidMetaProperty "import" "meta")
  else if ← atMark "(" then call none
  else unexpected

/-- A reference to the parent class; its word is in hand. -/
def superExpression : Parser Tree := do
  let start ← here
  bump
  unless (← atMark "(") || (← atMark ".") || (← atMark "[") do complain .superNotAllowed
  node start .super []

/-- A construction; its word is in hand.  The fuel bounds how often `new` is repeated. -/
def construction (grammar : Grammar) : Nat → Parser Tree
  | 0 => unexpected
  | depth + 1 => do
    let start ← here
    expectWord "new"
    if ← eat "." then
      if ← eatWord "target" then node start (.metaProperty "new" "target") []
      else fatal .newTargetName
    else
      let inner ← here
      let operand ←
        if ← atWord "new" then construction grammar depth
        else if ← atWord "super" then superExpression
        else if ← atWord "import" then importExpression grammar
        else primary grammar
      let (callee, _) ← accesses grammar inner false (← fuel) operand false
      complainIf (← atMark "?.") .optionalNew
      complainIf (match callee.label with | .importCall _ => true | _ => false) .importInNew
      let items ← if ← atMark "(" then arguments grammar else pure []
      match callee with
      | .node .instantiation _ [e, args] => node start (.new false) (e :: args :: items)
      | _ => node start (.new false) (callee :: .absent :: items)

/-- An expression that can be called, with its accesses and calls. -/
def callable (grammar : Grammar) : Parser Tree := do
  let start ← here
  let operand ←
    if ← atWord "import" then importExpression grammar
    else if ← atWord "super" then superExpression
    else if ← atWord "new" then construction grammar (← fuel)
    else primary grammar
  let (e, chain) ← calls grammar start (← fuel) operand false
  if chain then node start .chain [e] else return e

/-! ## 4. Operators -/

/-- The mark for stepping a variable. -/
def stepMark : Parser (Option Bool) := do
  if ← atMark "++" then return some true
  if ← atMark "--" then return some false
  return none

/-- An expression with a step before or after it.  Markup is complete by itself: neither an access
nor a call follows it. -/
def stepped (grammar : Grammar) : Parser Tree := do
  let start ← here
  match ← stepMark with
  | some increment =>
    bump
    let e ← grammar .operand
    let t ← simpleTarget e
    node start (.update increment true) [t]
  | none =>
    if (← atMark "<") && (← dialect).jsx then return ← markup grammar false
    let e ← grammar .callable
    match ← stepMark with
    | some increment =>
      if ← onNewLine then return e
      bump
      let t ← simpleTarget e
      node start (.update increment false) [t]
    | none => return e

/-- An `await` in hand is an operator. -/
def atAwait : Parser Bool := do
  unless ← atWord "await" do return false
  if (← context).isAwait then return true
  nextIs isWordOrLiteralOnLine

/-- The unary operator in hand. -/
def unaryMark : Parser (Option UnaryOp) := do
  match ← lexeme with
  | .mark m => return UnaryOp.ofText? m
  | .word w _ => return UnaryOp.ofText? w
  | _ => return none

/-- An operand with its prefix operators. -/
def operand (grammar : Grammar) : Parser Tree := do
  let start ← here
  match ← unaryMark with
  | some op =>
    bump
    let e ← grammar .operand
    complainIf (← atMark "**") .unaryBeforePower
    node start (.unary op) [e]
  | none =>
    if ← atAwait then
      complainIf (!(← context).isAwait) .awaitOutsideAsync
      bump
      let e ← withContext ({ · with isAwait := true }) (grammar .operand)
      complainIf (← atMark "**") .unaryBeforePower
      node start .await [e]
    else if (← atMark "<") && !(← dialect).jsx then
      if ← isTyped then
        bump
        let type ← grammar .type
        expect ">"
        let e ← grammar .operand
        node start .typeAssertion [type, e]
      else unexpected
    else stepped grammar

/-- Marks the call that a comment declares to have no effect: the one that the expression starts
with. -/
def markHarmless : Tree → Tree
  | .node (.call optional _) s ps => .node (.call optional true) s ps
  | .node (.new _) s ps => .node (.new true) s ps
  | .node .chain s [.node (.call optional _) t ps] =>
    .node .chain s [.node (.call optional true) t ps]
  | .node .parenthesized s [e] => .node .parenthesized s [markHarmless e]
  | .node (.binary op) s [l, r] => .node (.binary op) s [markHarmless l, r]
  | .node (.logical op) s [l, r] => .node (.logical op) s [markHarmless l, r]
  | .node .conditional s [test, yes, no] => .node .conditional s [markHarmless test, yes, no]
  | t => t

/-- Marks the function whose calls a comment declares to have no effect. -/
def markHarmlessFunction : Tree → Tree
  | .node (.function role isAsync isGenerator isDeclare wrapped _) s ps =>
    .node (.function role isAsync isGenerator isDeclare wrapped true) s ps
  | .node (.arrow isAsync isExpression wrapped _) s ps =>
    .node (.arrow isAsync isExpression wrapped true) s ps
  | t => t

/-- The level of the operator in hand, and how to build its node. -/
inductive Infix where
  | binary (op : BinaryOp)
  | logical (op : LogicalOp)
  | asType
  | satisfies

/-- How tightly an operator between two operands binds. -/
def Infix.precedence : Infix → Precedence
  | binary op => op.precedence
  | logical op => op.precedence
  | asType | satisfies => .compare

/-- Reads the marks that start with `>` as one operator. -/
def joinRight : Parser Unit := do
  if ← atMark ">" then
    replaceToken fun text pos =>
      match Lexer.readRightMark text with
      | some mark => ⟨.mark mark, text.drop mark.length, pos + mark.length, []⟩
      | none => ⟨.mark ">", text.drop 1, pos + 1, []⟩

/-- The operator between two operands that is in hand. -/
def infixMark : Parser (Option Infix) := do
  joinRight
  match ← lexeme with
  | .mark m =>
    match BinaryOp.ofText? m, LogicalOp.ofText? m with
    | some op, _ => return some (.binary op)
    | none, some op => return some (.logical op)
    | none, none => return none
  | .word "in" _ => return if (← context).allowIn then some (.binary .inside) else none
  | .word "instanceof" _ => return some (.binary .instanceOf)
  | .word "as" _ => return if ← onNewLine then none else some .asType
  | .word "satisfies" _ => return if ← onNewLine then none else some .satisfies
  | _ => return none

/-- The expression mixes `??` with another logical operator. -/
def mixesCoalesce (op : LogicalOp) (left right : Tree) : Bool :=
  let other (t : Tree) : Bool :=
    match t.label with
    | .logical .or | .logical .and => true
    | _ => false
  op == .coalesce && (other left || other right)

/-- Operators after an operand that bind tighter than a level; the fuel bounds their number. -/
def operatorsAfter (grammar : Grammar) (start : Nat) (level : Precedence) :
    Nat → Tree → Parser Tree
  | 0, left => result left
  | fuel + 1, left => do
    match ← infixMark with
    | none => return left
    | some op =>
      let p := op.precedence
      let stop := if p == .exponentiation then p.rank < level.rank else p.rank ≤ level.rank
      if stop then return left
      bump
      let whole ←
        match op with
        | .asType =>
          let type ← grammar .type
          let e ← node start .asType [left, type]
          complainIf (!(← isTyped)) (.typeScriptOnly "Type assertion expressions")
          pure e
        | .satisfies =>
          let type ← grammar .type
          let e ← node start .satisfies [left, type]
          complainIf (!(← isTyped)) (.typeScriptOnly "Type satisfaction expressions")
          pure e
        | .logical op =>
          let right ← grammar (.operators p)
          complainIf (mixesCoalesce op left right) .mixedCoalesce
          node start (.logical op) [left, right]
        | .binary op =>
          let right ← grammar (.operators p)
          node start (.binary op) [left, right]
      operatorsAfter grammar start level fuel whole

/-- An operator expression that binds tighter than a level. -/
def operators (grammar : Grammar) (level : Precedence) : Parser Tree := do
  let start ← here
  let harmless := (← token).afterHarmless
  match ← lexeme with
  | .privateName name =>
    if !(← context).allowIn then unexpected
    bump
    expectWord "in"
    let right ← grammar (.operators .compare)
    if (match right.label with | .privateIn _ => true | _ => false) then fatal .privateInPrivate
    let left ← node start (.privateIn name) [right]
    operatorsAfter grammar start level (← fuel) left
  | _ =>
    let e ← grammar .operand
    operatorsAfter grammar start level (← fuel) (if harmless then markHarmless e else e)

/-! ## 5. Assignments -/

/-- A `yield` in hand is an operator. -/
def atYield : Parser Bool := do
  unless ← atWord "yield" do return false
  if (← context).isYield then return true
  nextIs isWordOrLiteralOnLine

/-- A yield expression; its word is in hand. -/
def yieldExpression (grammar : Grammar) : Parser Tree := do
  let start ← here
  bump
  complainIf (!(← context).isYield) .yieldOutsideGenerator
  if ← onNewLine then node start (.yield false) [.absent]
  else
    let delegate ← eat "*"
    let stops : Bool :=
      match ← lexeme with
      | .endOfText => true
      | .mark m => [";", "\x7d", ")", "]", ":", ","].contains m
      | .word w _ => w == "in"
      | _ => false
    if !stops || delegate then
      let e ← withContext ({ · with isYield := true }) (grammar (.assignment true))
      node start (.yield delegate) [e]
    else node start (.yield false) [.absent]

/-- The rest of a conditional expression after its test. -/
def conditionalRest (grammar : Grammar) (start : Nat) (test : Tree) (returnTypeAllowed : Bool) :
    Parser Tree := do
  if ← eat "?" then
    let yes ← withContext ({ · with allowIn := true }) (grammar (.assignment false))
    expect ":"
    let no ← grammar (.assignment returnTypeAllowed)
    node start .conditional [test, yes, no]
  else return test

/-- An expression without commas. -/
def assignment (grammar : Grammar) (returnTypeAllowed : Bool) : Parser Tree := do
  let harmless := (← token).afterHarmlessFunction
  let marked (e : Tree) : Tree := if harmless then markHarmlessFunction e else e
  if ← atYield then yieldExpression grammar
  else
    match ← arrowWithList grammar returnTypeAllowed with
    | some e => return marked e
    | none =>
      match ← asyncArrowWithName grammar returnTypeAllowed with
      | some e => return marked e
      | none =>
        let start ← here
        let left ← grammar (.operators .comma)
        match left with
        | .node (.identifier name) span [] =>
          if ← atMark "=>" then
            return marked (← arrowWithName grammar start (.node (.binding name) span []) false
              returnTypeAllowed)
        | _ => pure ()
        let op : Option AssignOp :=
          match ← lexeme with
          | .mark m => AssignOp.ofText? m
          | _ => none
        match op with
        | some op =>
          let place ← if op == .plain then target left else simpleTarget left
          bump
          let value ← grammar (.assignment returnTypeAllowed)
          node start (.assign op) [place, value]
        | none => return marked (← conditionalRest grammar start left returnTypeAllowed)

/-- An expression with commas. -/
def expression (grammar : Grammar) : Parser Tree := do
  let start ← here
  let first ← withContext ({ · with isDecorator := false }) (grammar (.assignment true))
  if ← atMark "," then
    let others ← many do
      if ← eat "," then return some (← grammar (.assignment true))
      return none
    node start .sequence (first :: others)
  else return first

end PackageRefs.Script.Parser
