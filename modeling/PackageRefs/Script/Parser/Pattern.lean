/-
# Patterns and parameters

Patterns take a value apart in a declaration or a parameter list.  A parameter is a pattern that may
have decorators and modifiers before it and a type and a default after it.
-/
import PackageRefs.Script.Parser.Name

namespace PackageRefs.Script.Parser

/-! ## 1. Types and defaults after a pattern -/

/-- A type after a colon, if types may be written and a colon is in hand. -/
def typeAnnotation (grammar : Grammar) : Parser Tree := do
  if (← isTyped) && (← atMark ":") then
    bump
    grammar .type
  else return .absent

/-- Wraps a pattern that has a type or a question mark. -/
def withType (start : Nat) (pattern : Tree) (optional : Bool) (type : Tree) : Parser Tree :=
  if optional || !type.isAbsent then node start (.typedPattern optional) [pattern, type]
  else return pattern

/-- A pattern with the default after it, if there is one. -/
def withDefault (grammar : Grammar) (start : Nat) (pattern : Tree) : Parser Tree := do
  if ← eat "=" then
    let value ← withContext ({ · with allowIn := true }) (grammar (.assignment true))
    node start .patternDefault [pattern, value]
  else return pattern

/-- A pattern with type and default. -/
def patternWithDefault (grammar : Grammar) : Parser Tree := do
  let start ← here
  let pattern ← grammar .typedPattern
  withDefault grammar start pattern

/-! ## 2. Patterns -/

/-- A rest element after its three dots. -/
def restElement (grammar : Grammar) : Parser Tree := do
  let start ← here
  bump
  let inner ← here
  let pattern ← grammar .pattern
  if (← isTyped) && (← eat "?") then complain .restOptional
  let type ← typeAnnotation grammar
  let pattern ← withType inner pattern false type
  let rest ← node start .rest [pattern]
  if ← atMark "=" then
    complain .restInitializer
    bump
    let _ ← grammar (.assignment true)
  return rest

/-- Complains about elements after a rest element, and about a comma behind it. -/
def checkRestLast (items : List Tree) (trailing : Bool) (notLast : Diagnostic) : Parser Unit := do
  complainIf ((items.dropLast).any fun t => t.label == .rest) notLast
  let closedByComma := trailing && items.getLast?.any fun t => t.label == .rest
  complainIf (closedByComma && !(← context).isAmbient) .restTrailingComma

/-- The rest element of an object pattern must be a name. -/
def checkRestName (items : List Tree) : Parser Unit := do
  match items.getLast? with
  | some (.node .rest _ [inner]) =>
    match inner.label with
    | .objectPattern | .arrayPattern => complain .restOfPattern
    | _ => return
  | _ => return

/-- A property of an object pattern. -/
def patternProperty (grammar : Grammar) : Parser Tree := do
  if ← atMark "..." then restElement grammar
  else
    let start ← here
    let short ← atName
    let (k, computed) ← key grammar
    if short && !(← atMark ":") then
      match k with
      | .node (.propertyName name) span _ =>
        checkName name
        let value ← withDefault grammar start (.node (.binding name) span [])
        node start (.patternProperty computed true) [k, value]
      | _ => unexpected
    else
      expect ":"
      let value ← patternWithDefault grammar
      node start (.patternProperty computed false) [k, value]

/-- An element of an array pattern. -/
def patternElement (grammar : Grammar) : Parser Tree := do
  if ← atMark "..." then restElement grammar
  else if ← atMark "," then
    let start ← here
    return .node .elision ⟨start, start⟩ []
  else patternWithDefault grammar

/-- A pattern without type or default. -/
def pattern (grammar : Grammar) : Parser Tree := do
  let start ← here
  if ← atMark "\x7b" then
    bump
    let (items, trailing) ← withContext ({ · with allowIn := true })
      (delimited "\x7d" (patternProperty grammar))
    checkRestLast items trailing .restLastInPattern
    checkRestName items
    expect "\x7d"
    node start .objectPattern items
  else if ← atMark "[" then
    bump
    let (items, trailing) ← withContext ({ · with allowIn := true })
      (delimited "]" (patternElement grammar))
    checkRestLast items trailing .restLastInPattern
    expect "]"
    node start .arrayPattern items
  else binding

/-- A pattern with a question mark and a type, where they may be written. -/
def typedPattern (grammar : Grammar) : Parser Tree := do
  let start ← here
  let inner ← grammar .pattern
  let optional ← if ← isTyped then eat "?" else pure false
  let type ← typeAnnotation grammar
  withType start inner optional type

/-! ## 3. Modifiers -/

/-- The words that are modifiers of some declaration. -/
def modifierWords : List String :=
  ["abstract", "accessor", "async", "const", "declare", "default", "export", "in", "out", "public",
    "private", "protected", "override", "readonly", "static"]

/-- The words that may stand before a constructor's parameter. -/
def parameterModifiers : List String :=
  ["public", "private", "protected", "override", "readonly"]

/-- Adds a modifier to those read before. -/
def addModifier (m : Modifiers) (word : String) : Modifiers :=
  match word with
  | "static" => { m with isStatic := true }
  | "abstract" => { m with isAbstract := true }
  | "override" => { m with isOverride := true }
  | "readonly" => { m with isReadonly := true }
  | "declare" => { m with isDeclare := true }
  | _ => { m with access := some word }

/-- Complains about a modifier that is repeated, or that one of those before it excludes: a declaration
has one kind of access. -/
def checkModifier (seen : List String) (word : String) : Parser Unit :=
  let isAccess (w : String) := w == "public" || w == "private" || w == "protected"
  complainIf (seen.contains word || (isAccess word && seen.any isAccess)) (.modifierRepeated word)

/-- The modifiers as words, in the order in which they stand before a name. -/
def modifierNames (m : Modifiers) : List String :=
  m.access.toList ++ (if m.isStatic then ["static"] else []) ++
    (if m.isAbstract then ["abstract"] else []) ++ (if m.isOverride then ["override"] else []) ++
    (if m.isReadonly then ["readonly"] else []) ++ (if m.isDeclare then ["declare"] else [])

/-- Reads the modifiers of a parameter. -/
def readParameterModifiers : Nat → Modifiers → Parser Modifiers
  | 0, m => result m
  | fuel + 1, m => do
    match ← word? with
    | some w =>
      let follows ← nextIs fun t =>
        !t.onNewLine && (isAnyWord t || isMark "\x7b" t || isMark "[" t || isMark "..." t)
      if parameterModifiers.contains w && follows then
        checkModifier (modifierNames m) w
        bump
        readParameterModifiers fuel (addModifier m w)
      else return m
    | none => return m

/-! ## 4. Parameters -/

/-- The expression is a name with accesses by a name behind it, of which the last may be called; an
expression of another form must stand in parentheses to decorate. -/
def mayDecorate : Tree → Bool
  | .node .parenthesized _ _ => true
  | .node .instantiation _ (e :: _) => mayDecorate e
  | .node .nonNull _ [e] => mayDecorate e
  | .node (.call ..) _ (callee :: _) => isPath callee
  | e => isPath e
where
  /-- A name with accesses by a name behind it. -/
  isPath : Tree → Bool
    | .node (.identifier _) _ _ => true
    | .node (.member _ false) _ [object] | .node (.privateMember _ false) _ [object] => isPath object
    | .node .instantiation _ (e :: _) => isPath e
    | .node .nonNull _ [e] => isPath e
    | _ => false

/-- A decorator after its mark. -/
def decorator (grammar : Grammar) : Parser Tree := do
  let start ← here
  bump
  let e ← withContext ({ · with isDecorator := true }) (grammar .callable)
  complainIf (!mayDecorate e) .decoratorExpression
  node start .decorator [e]

/-- All decorators in hand, as one node. -/
def decorators (grammar : Grammar) : Parser Tree := do
  let start ← here
  let items ← many do
    if ← atMark "@" then return some (← decorator grammar)
    return none
  if items.isEmpty then return .absent
  node start .group items

/-- A parameter; only that of a constructor may have modifiers. -/
def parameter (grammar : Grammar) (inConstructor : Bool) : Parser Tree := do
  let start ← here
  let marks ← decorators grammar
  if ← atMark "..." then
    let rest ← restElement grammar
    if marks.isAbsent then return rest
    node start (.parameter {}) [marks, rest]
  else
    let modifiers ← if ← isTyped then readParameterModifiers 6 {} else pure {}
    unless inConstructor do
      for w in modifierNames modifiers do complain (.modifierMisplaced w "appear on a parameter")
    let inner ← patternWithDefault grammar
    if marks.isAbsent && modifiers == {} then return inner
    node start (.parameter modifiers) [marks, inner]

/-- A parameter without the decorators and modifiers before it. -/
def innerParameter : Tree → Tree
  | .node (.parameter _) _ [_, inner] => inner
  | t => t

/-- The parameter that gives the type of `this`, if it is there. -/
def thisParameter (grammar : Grammar) : Parser Tree := do
  if (← isTyped) && (← atWord "this") then
    let start ← here
    bump
    let type ← typeAnnotation grammar
    let t ← node start .thisParameter [type]
    unless ← atMark ")" do expect ","
    return t
  else return .absent

/-- A parameter list in parentheses: the type of `this`, and the parameters. -/
def parameters (grammar : Grammar) (inConstructor : Bool) : Parser (Tree × Tree) := do
  let start ← here
  expect "("
  let this ← thisParameter grammar
  let (items, trailing) ← withContext ({ · with allowIn := true })
    (delimited ")" (parameter grammar inConstructor))
  checkRestLast items trailing .restLastInParameters
  expect ")"
  return (this, ← node start .parameters items)

end PackageRefs.Script.Parser
