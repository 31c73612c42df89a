/-
# Types

The grammar of types.  A function type is recognised by its parentheses, so the reader looks ahead
to tell `(a) => b` from a type in parentheses, and `a is b` from a type named `a`.
-/
import PackageRefs.Script.Parser.Pattern

namespace PackageRefs.Script.Parser

/-! ## 1. Lists in angle brackets -/

/-- The mark in hand is read again as a single `<`. -/
def splitLeft : Parser Unit := do
  if (← atMark "<<") || (← atMark "<=") || (← atMark "<<=") then
    replaceToken fun text pos => ⟨.mark "<", text.drop 1, pos + 1, []⟩

/-- Type arguments after their bracket. -/
def typeArgumentList (grammar : Grammar) : Parser Tree := do
  let start ← here
  expect "<"
  let (items, _) ← delimited ">" (grammar .type)
  expect ">"
  complainIf items.isEmpty .emptyTypeArguments
  node start .typeArguments items

/-- Type arguments after the name of a type, if they are there. -/
def typeArguments (grammar : Grammar) : Parser Tree := do
  if ← onNewLine then return .absent
  splitLeft
  if ← atMark "<" then typeArgumentList grammar else return .absent

/-- The words that stand before a type parameter; only those that say how it varies, and `const`, are
allowed. -/
def typeParameterModifiers : Nat → List String → Parser (List String)
  | 0, seen => result seen
  | fuel + 1, seen => do
    match ← word? with
    | some w =>
      let isAllowed := w == "const" || w == "in" || w == "out"
      if (isAllowed || modifierWords.contains w) &&
          (← nextIs fun t => !t.onNewLine && isAnyWord t) then
        complainIf (seen.contains w) (.modifierRepeated w)
        complainIf (!isAllowed) (.modifierMisplaced w "be used on a type parameter")
        bump
        typeParameterModifiers fuel (w :: seen)
      else return seen
    | none => return seen

/-- A type parameter. -/
def typeParameter (grammar : Grammar) : Parser Tree := do
  let start ← here
  let words ← typeParameterModifiers 8 []
  let name ← newName
  let bound ← if ← eatWord "extends" then grammar .type else pure .absent
  let default ← if ← eat "=" then grammar .type else pure .absent
  node start (.typeParameter name (words.contains "in") (words.contains "out")
    (words.contains "const")) [bound, default]

/-- Type parameters, if they are there. -/
def typeParameters (grammar : Grammar) : Parser Tree := do
  if (← isTyped) && (← atMark "<") then
    let start ← here
    bump
    let (items, _) ← delimited ">" (typeParameter grammar)
    expect ">"
    complainIf items.isEmpty .emptyTypeParameters
    node start .typeParameters items
  else return .absent

/-! ## 2. Names of types -/

/-- The names after the dots of a qualified name; the fuel bounds their number. -/
def qualifiedRest (start : Nat) : Nat → Tree → Parser Tree
  | 0, left => result left
  | fuel + 1, left => do
    if ← eat "." then
      let name ← anyName
      let t ← node start (.qualifiedName name) [left]
      qualifiedRest start fuel t
    else return left

/-- A name with dots. -/
def entityName : Parser Tree := do
  let start ← here
  if ← atWord "this" then
    bump
    let first ← node start .this []
    qualifiedRest start (← fuel) first
  else
    let name ← anyName
    let first ← node start (.identifier name) []
    qualifiedRest start (← fuel) first

/-! ## 3. Return types -/

/-- A type, or a test of a parameter's type. -/
def typeOrPredicate (grammar : Grammar) : Parser Tree := do
  let start ← here
  let tested ← lookahead do
    if !(← atName) && !(← atWord "this") then return false
    bump
    return (← atWord "is") && !(← onNewLine)
  if tested then
    let subject ← if ← atWord "this" then (do bump; node start .this []) else identifier
    expectWord "is"
    let type ← grammar .type
    node start (.typePredicate false) [subject, type]
  else grammar .type

/-- A type, or a test that a function asserts. -/
def returnType (grammar : Grammar) : Parser Tree := do
  let start ← here
  let asserted ← lookahead do
    unless ← atWord "asserts" do return false
    bump
    return ((← atName) || (← atWord "this")) && !(← onNewLine)
  if asserted then
    bump
    let at_ ← here
    let subject ← if ← atWord "this" then (do bump; node at_ .this []) else identifier
    let type ← if ← eatWord "is" then grammar .type else pure .absent
    node start (.typePredicate true) [subject, type]
  else typeOrPredicate grammar

/-- The type that a function returns, after a colon, if it is there. -/
def returnAnnotation (grammar : Grammar) : Parser Tree := do
  if (← isTyped) && (← atMark ":") then
    bump
    withContext ({ · with noConditionalType := false }) (returnType grammar)
  else return .absent

/-! ## 4. Function types -/

/-- Passes over words that are modifiers of a parameter. -/
def skipModifiers : Nat → Parser Unit
  | 0 => result ()
  | fuel + 1 => do
    match ← word? with
    | some w =>
      if parameterModifiers.contains w && (← nextIs fun t => isAnyWord t || isMark "\x7b" t ||
          isMark "[" t) then
        bump
        skipModifiers fuel
      else return
    | none => return

/-- Passes over the name or pattern that starts a parameter. -/
def skipParameterStart (grammar : Grammar) : Parser Bool := do
  skipModifiers 6
  if (← atName) || (← atWord "this") then
    bump
    return true
  else if (← atMark "[") || (← atMark "\x7b") then
    let before ← read fun s => s.complaints.length
    let _ ← grammar .pattern
    return (← read fun s => s.complaints.length) == before
  else return false

/-- The parenthesis in hand starts a parameter list. -/
def startsParameters (grammar : Grammar) : Parser Bool := lookahead do
  bump
  if (← atMark ")") || (← atMark "...") then return true
  if ← skipParameterStart grammar then
    if (← atMark ":") || (← atMark ",") || (← atMark "?") || (← atMark "=") then return true
    if ← atMark ")" then
      bump
      return ← atMark "=>"
  return false

/-- A function type or a constructor type starts here. -/
def startsFunctionType (grammar : Grammar) : Parser Bool := do
  if (← atMark "<") || (← atWord "new") then return true
  if ← atMark "(" then return ← startsParameters grammar
  if ← atWord "abstract" then return ← nextIs (isWord "new")
  return false

/-- A function type or a constructor type. -/
def functionType (grammar : Grammar) : Parser Tree := do
  let start ← here
  let isAbstract ← eatWord "abstract"
  let isNew ← eatWord "new"
  let generics ← typeParameters grammar
  let (this, list) ← parameters grammar false
  complainIf (isNew && !this.isAbsent) .thisParameterOfConstructor
  expect "=>"
  let type ← returnType grammar
  if isNew then node start (.constructorType isAbstract) [generics, list, type]
  else node start .functionType [generics, this, list, type]

/-! ## 5. Members of object types -/

/-- Passes over the mark that separates members of an object type, which may be left out. -/
def memberEnd : Parser Unit := do
  if ← eat "," then return
  let _ ← eat ";"

/-- An index signature starts at the bracket in hand. -/
def startsIndexSignature : Parser Bool := lookahead do
  bump
  if ← atName then
    bump
    return ← atMark ":"
  return false

/-- An index signature. -/
def indexSignature (grammar : Grammar) (start : Nat) (isReadonly : Bool) : Parser Tree := do
  expect "["
  let name ← anyName
  expect ":"
  let keyType ← grammar .type
  expect "]"
  let type ← typeAnnotation grammar
  if type.isAbsent then unexpected
  node start (.indexSignature name isReadonly) [keyType, type]

/-- A signature with parameters. -/
def signatureRest (grammar : Grammar) (isConstructor : Bool) :
    Parser (Tree × Tree × Tree × Tree) := do
  let generics ← typeParameters grammar
  let (this, list) ← parameters grammar isConstructor
  let type ← returnAnnotation grammar
  return (generics, this, list, type)

/-- A word before a member, unless it is the member's name. -/
def memberWord (name : String) : Parser Bool := do
  if (← atWord name) && (← nextIs fun t => !t.onNewLine && startsKey t) then
    bump
    return true
  return false

/-- Reads the modifiers before a member, of which only `readonly` is allowed; the fuel bounds their
number. -/
def typeMemberWords : Nat → Bool → Parser Bool
  | 0, isReadonly => result isReadonly
  | fuel + 1, isReadonly => do
    match ← word? with
    | some w =>
      unless modifierWords.contains w do return isReadonly
      unless ← memberWord w do return isReadonly
      complainIf (w != "readonly") (.modifierMisplaced w "appear on a type member")
      typeMemberWords fuel (isReadonly || w == "readonly")
    | none => return isReadonly

/-- A member of an object type or an interface. -/
def typeMember (grammar : Grammar) : Parser Tree := do
  let start ← here
  if (← atMark "(") || (← atMark "<") then
    let (generics, this, list, type) ← signatureRest grammar false
    let t ← node start .callSignature [generics, this, list, type]
    memberEnd
    return t
  else if (← atWord "new") && (← nextIs fun t => isMark "(" t || isMark "<" t) then
    bump
    let (generics, this, list, type) ← signatureRest grammar false
    complainIf (!this.isAbsent) .thisParameterOfConstructor
    let t ← node start .constructSignature [generics, list, type]
    memberEnd
    return t
  else
    let isReadonly ← typeMemberWords 4 false
    if (← atMark "[") && (← startsIndexSignature) then
      let t ← indexSignature grammar start isReadonly
      memberEnd
      return t
    else
      let kind := (← accessorWord).getD .method
      let (k, computed) ← key grammar
      let optional ← eat "?"
      if (← atMark "(") || (← atMark "<") || kind != .method then
        let (generics, this, list, type) ← signatureRest grammar false
        complainIf (kind == .set && !type.isAbsent) .returnTypeOfSetter
        complainIf (kind == .method && isReadonly) .readonlyMethod
        let t ← node start (.methodSignature kind computed optional) [k, generics, this, list, type]
        memberEnd
        return t
      else
        let type ← typeAnnotation grammar
        let t ← node start (.propertySignature computed optional isReadonly) [k, type]
        memberEnd
        return t

/-- Members in braces. -/
def typeMembers (grammar : Grammar) : Parser (List Tree) := do
  expect "\x7b"
  let members ← until_ "\x7d" (typeMember grammar)
  expect "\x7d"
  return members

/-! ## 6. Mapped types -/

/-- A mapped type starts at the brace in hand. -/
def startsMappedType : Parser Bool := lookahead do
  bump
  if (← atMark "+") || (← atMark "-") then
    bump
    return ← atWord "readonly"
  if ← atWord "readonly" then bump
  unless ← atMark "[" do return false
  bump
  unless ← atAnyWord do return false
  bump
  atWord "in"

/-- A word or mark with an optional sign before it. -/
def mappedModifier (marked : Parser Bool) (step : Parser Unit) : Parser MappedModifier := do
  if ← atMark "+" then bump; step; return .plus
  if ← atMark "-" then bump; step; return .minus
  if ← marked then step; return .plain
  return .none

/-- A mapped type. -/
def mappedType (grammar : Grammar) : Parser Tree := do
  let start ← here
  bump
  let readonlyMark ← mappedModifier (atWord "readonly") (expectWord "readonly")
  expect "["
  let name ← newName
  expectWord "in"
  let bound ← grammar .type
  let renamed ← if ← eatWord "as" then grammar .type else pure .absent
  expect "]"
  let optionalMark ← mappedModifier (atMark "?") (expect "?")
  let type ← typeAnnotation grammar
  let _ ← eat ";"
  expect "\x7d"
  node start (.mappedType name optionalMark readonlyMark) [bound, renamed, type]

/-! ## 7. Simple types -/

/-- The types that are words. -/
def typeWords : List String :=
  ["any", "unknown", "string", "number", "bigint", "symbol", "boolean", "undefined", "never",
    "object"]

/-- A member of a tuple type. -/
def tupleMember (grammar : Grammar) : Parser Tree := do
  let start ← here
  let named ← lookahead do
    let _ ← eat "..."
    unless ← atAnyWord do return false
    bump
    if ← atMark ":" then return true
    if ← eat "?" then return ← atMark ":"
    return false
  if named then
    let dots ← eat "..."
    let inner ← here
    let name ← anyName
    let optional ← eat "?"
    expect ":"
    let type ← grammar .type
    complainIf (dots && optional) .optionalRestMember
    complainIf (type.label == .nullableType true) .optionalTupleMember
    let t ← node inner (.namedTupleMember name optional) [type]
    if dots then node start .restType [t] else return t
  else if ← eat "..." then
    let type ← grammar .type
    node start .restType [type]
  else
    let type ← grammar .type
    match type with
    | .node (.nullableType true) span [inner] => return .node .optionalType span [inner]
    | _ => return type

/-- A type that is imported from a module. -/
def importType (grammar : Grammar) (start : Nat) : Parser Tree := do
  expectWord "import"
  expect "("
  let argument ← grammar .type
  let options ←
    if ← eat "," then
      if ← atMark "\x7b" then grammar .operand else missing "\x7b"
    else pure .absent
  expect ")"
  let qualifier ← if ← eat "." then entityName else pure .absent
  let args ← typeArguments grammar
  node start .importType [argument, options, qualifier, args]

/-- A reference to a type by its name. -/
def typeReference (grammar : Grammar) : Parser Tree := do
  let start ← here
  let name ← entityName
  let args ← typeArguments grammar
  node start .typeReference [name, args]

/-- A type that no operator or bracket follows. -/
def simpleType (grammar : Grammar) : Parser Tree := do
  let start ← here
  match ← lexeme with
  | .string .. | .number _ | .bigint _ =>
    let l ← literal
    node start .literalType [l]
  | .mark "?" =>
    bump
    let standsAlone : Bool :=
      match ← lexeme with
      | .mark m => [",", "\x7d", ")", ">", "=", "|"].contains m
      | _ => false
    if standsAlone then node start (.keywordType "unknown") []
    else
      let type ← grammar .type
      node start (.nullableType false) [type]
  | .mark "!" =>
    bump
    let type ← grammar .simpleType
    node start (.nonNullableType false) [type]
  | .mark "-" =>
    unless ← nextIs isNumber do unexpected
    bump
    let l ← literal
    let e ← node start (.unary .minus) [l]
    node start .literalType [e]
  | .quasi .. => template .templateType false (grammar .type)
  | .mark "\x7b" =>
    if ← startsMappedType then mappedType grammar
    else
      let members ← typeMembers grammar
      node start .typeLiteral members
  | .mark "[" =>
    bump
    let (items, _) ← delimited "]" (tupleMember grammar)
    expect "]"
    node start .tupleType items
  | .mark "(" =>
    bump
    let type ← withContext ({ · with noConditionalType := false }) (grammar .type)
    expect ")"
    node start .parenthesizedType [type]
  | .word w _ =>
    if w == "void" then bump; node start (.keywordType "void") []
    else if w == "null" then bump; node start (.keywordType "null") []
    else if w == "true" || w == "false" then
      let l ← literal
      node start .literalType [l]
    else if w == "this" then
      bump
      let this ← node start .thisType []
      if (← atWord "is") && !(← onNewLine) then
        bump
        let type ← grammar .type
        node start (.typePredicate false) [this, type]
      else return this
    else if w == "typeof" then
      if ← nextIs (isWord "import") then
        bump
        let at_ ← here
        let t ← importType grammar at_
        node start .typeQuery [t, .absent]
      else
        bump
        let name ← entityName
        let args ← typeArguments grammar
        node start .typeQuery [name, args]
    else if w == "import" then importType grammar start
    else if w == "asserts" && (← nextIs fun t => !t.onNewLine && (isName t || isWord "this" t)) then
      returnType grammar
    else if typeWords.contains w && !(← nextIs (isMark ".")) then
      bump
      node start (.keywordType w) []
    else typeReference grammar
  | _ => unexpected

/-- The token starts a type. -/
def startsType (t : Token) : Bool :=
  match t.lexeme with
  | .word w _ =>
    !isReserved w || ["void", "null", "this", "typeof", "true", "false", "new", "import",
      "function"].contains w
  | .number _ | .bigint _ | .string .. | .quasi .. => true
  | .mark m => ["(", "[", "\x7b", "<", "|", "&", "*", "?", "!", "..."].contains m
  | _ => false

/-- A type starts here; a minus only belongs to one before a number. -/
def atType : Parser Bool := do
  if ← atMark "-" then nextIs isNumber else read fun s => startsType s.token

/-- Brackets and marks after a type; the fuel bounds their number.  A question mark with a type after
it belongs to a conditional type. -/
def typeSuffix (grammar : Grammar) (start : Nat) : Nat → Tree → Parser Tree
  | 0, type => result type
  | fuel + 1, type => do
    if ← onNewLine then return type
    if ← eat "!" then
      let t ← node start (.nonNullableType true) [type]
      typeSuffix grammar start fuel t
    else if ← atMark "?" then
      if ← lookahead (do bump; atType) then return type
      bump
      let t ← node start (.nullableType true) [type]
      typeSuffix grammar start fuel t
    else if ← eat "[" then
      if ← atType then
        let index ← grammar .type
        expect "]"
        let t ← node start .indexedAccessType [type, index]
        typeSuffix grammar start fuel t
      else
        expect "]"
        let t ← node start .arrayType [type]
        typeSuffix grammar start fuel t
    else return type

/-! ## 8. Operators on types -/

/-- The bound of an inferred type parameter, unless a conditional type goes on here. -/
def inferBound (grammar : Grammar) : Parser Tree := do
  let disallowed := (← context).noConditionalType
  let bound ← attemptSome do
    unless ← eatWord "extends" do return none
    let bound ← withContext ({ · with noConditionalType := true }) (grammar .type)
    if disallowed || !(← atMark "?") then return some bound
    return none
  return .ofOption bound

/-- A type with the operators before it. -/
def unaryType (grammar : Grammar) : Parser Tree := do
  let start ← here
  match ← word? with
  | some w =>
    if w == "keyof" || w == "unique" || w == "readonly" then
      bump
      let type ← grammar .unaryType
      complainIf (w == "readonly" && type.label != .arrayType && type.label != .tupleType)
        .readonlyOfOther
      node start (.typeOperator w) [type]
    else if w == "infer" then
      bump
      let at_ ← here
      let name ← newName
      let bound ← inferBound grammar
      let parameter ← node at_ (.typeParameter name false false false) [bound, .absent]
      node start .inferType [parameter]
    else
      withContext ({ · with noConditionalType := false }) do
        let type ← simpleType grammar
        typeSuffix grammar start (← fuel) type
  | none =>
    withContext ({ · with noConditionalType := false }) do
      let type ← simpleType grammar
      typeSuffix grammar start (← fuel) type

/-- A member of a union or an intersection, which may be a function type. -/
def typeOperand (grammar : Grammar) : Parser Tree := do
  if ← startsFunctionType grammar then functionType grammar else grammar .unaryType

/-- Types joined by a mark, which may also stand before the first. -/
def joinedTypes (mark : String) (label : Label) (operand : Parser Tree) : Parser Tree := do
  let start ← here
  let leading ← eat mark
  let first ← operand
  if (← atMark mark) || leading then
    let others ← many do
      if ← eat mark then return some (← operand)
      return none
    node start label (first :: others)
  else return first

/-- A type that is not conditional. -/
def unionType (grammar : Grammar) : Parser Tree :=
  joinedTypes "|" .unionType (joinedTypes "&" .intersectionType (typeOperand grammar))

/-- A type. -/
def type (grammar : Grammar) : Parser Tree := do
  let start ← here
  if ← startsFunctionType grammar then functionType grammar
  else
    let tested ← unionType grammar
    if !(← context).noConditionalType && !(← onNewLine) && (← atWord "extends") then
      bump
      let bound ← withContext ({ · with noConditionalType := true }) (grammar .type)
      expect "?"
      let yes ← withContext ({ · with noConditionalType := false }) (grammar .type)
      expect ":"
      let no ← withContext ({ · with noConditionalType := false }) (grammar .type)
      node start .conditionalType [tested, bound, yes, no]
    else return tested

/-! ## 9. Type arguments inside expressions -/

/-- The token may start an expression. -/
def startsExpression (t : Token) : Bool :=
  match t.lexeme with
  | .word w _ =>
    !isReserved w || ["this", "super", "null", "true", "false", "function", "class", "new", "import",
      "delete", "typeof", "void", "in", "instanceof"].contains w
  | .number _ | .bigint _ | .string .. | .quasi .. | .privateName _ => true
  | .mark m => ["(", "[", "\x7b", "/", "/=", "+", "-", "~", "!", "++", "--", "<", "@"].contains m
  | _ => false

/-- The token is an operator with two operands. -/
def isBinaryToken (t : Token) : Bool :=
  match t.lexeme with
  | .word w _ => w == "in" || w == "instanceof" || w == "as" || w == "satisfies"
  | .mark m => (BinaryOp.ofText? m).isSome || (LogicalOp.ofText? m).isSome
  | _ => false

/-- Type arguments in the middle of an expression, if they are there and what follows cannot be the
right side of a comparison. -/
def expressionTypeArguments (grammar : Grammar) : Parser (Option Tree) := do
  unless ← isTyped do return none
  unless (← atMark "<") || (← atMark "<<") do return none
  attempt do
    splitLeft
    let start ← here
    expect "<"
    let (items, _) ← delimited ">" (grammar .type)
    if ← read fun s => (Lexer.readRightMark s.tokenText) == some ">=" then unexpected
    expect ">"
    complainIf items.isEmpty .emptyTypeArguments
    let args ← node start .typeArguments items
    let t ← token
    let fine : Bool :=
      match t.lexeme with
      | .mark "(" | .quasi .. => true
      | .mark "<" | .mark ">" | .mark "+" | .mark "-" => false
      | _ => t.onNewLine || isBinaryToken t || !startsExpression t
    unless fine do unexpected
    return args

end PackageRefs.Script.Parser
