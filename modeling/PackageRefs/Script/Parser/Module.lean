/-
# Imports and exports

The declarations that connect modules.
-/
import PackageRefs.Script.Parser.Statement

namespace PackageRefs.Script.Parser

/-! ## 1. Names across modules -/

/-- A name of another module: any word, or a string. -/
def moduleName : Parser Tree := do
  let start ← here
  match ← lexeme with
  | .string _ lone _ =>
    complainIf lone .loneSurrogateInName
    stringLiteral
  | _ =>
    let name ← anyName
    node start (.propertyName name) []

/-- Attributes of an import, if they are there. -/
def importAttributes : Parser Tree := do
  let start ← here
  let isWith ← atWord "with"
  let isAssert ← pure ((← atWord "assert") && !(← onNewLine))
  if isWith || isAssert then
    bump
    expect "\x7b"
    let (items, _) ← delimited "\x7d" do
      let at_ ← here
      let k ← if ← atString then stringLiteral else (do
        let name ← anyName
        node at_ (.propertyName name) [])
      expect ":"
      let v ← stringLiteral
      node at_ .importAttribute [k, v]
    expect "\x7d"
    node start (.importAttributes (if isWith then "with" else "assert")) items
  else return .absent

/-- A name between braces with the words before it: whether it is a type only, the name itself, and
the name after `as`. -/
structure ListedName where
  typeOnly : Bool
  first : Tree
  second : Option Tree

/-- A name between the braces of an import or an export.  The word `type` before it is a modifier
unless it is the name. -/
def listedName : Parser ListedName := do
  let start ← here
  let word (name : String) (stop : Nat) : Tree := .node (.propertyName name) ⟨start, stop⟩ []
  let plain : Parser ListedName := do
    let first ← moduleName
    if ← eatWord "as" then return ⟨false, first, some (← moduleName)⟩
    return ⟨false, first, none⟩
  if (← isTyped) && (← atWord "type") && (← nextIs fun t => isAnyWord t || isLiteralKey t) then
    let stop := (← token).stop
    bump
    if ← atWord "as" then
      let at_ ← here
      let asStop := (← token).stop
      bump
      if ← atWord "as" then
        let secondAt ← here
        let secondStop := (← token).stop
        bump
        if (← atAnyWord) || (← atString) then
          return ⟨true, .node (.propertyName "as") ⟨at_, asStop⟩ [], some (← moduleName)⟩
        return ⟨false, word "type" stop,
          some (.node (.propertyName "as") ⟨secondAt, secondStop⟩ [])⟩
      if (← atAnyWord) || (← atString) then
        return ⟨false, word "type" stop, some (← moduleName)⟩
      return ⟨true, .node (.propertyName "as") ⟨at_, asStop⟩ [], none⟩
    let listed ← plain
    return { listed with typeOnly := true }
  else plain

/-! ## 2. Imports -/

/-- A listed name as the binding it introduces. -/
def bindingOf (t : Tree) : Parser Tree := do
  match t with
  | .node (.propertyName name) span _ =>
    if isReserved name then fatal (.reservedName name)
    checkName name
    return .node (.binding name) span []
  | _ => fatal .unexpectedToken

/-- A name between the braces of an import. -/
def importSpecifier : Parser Tree := do
  let start ← here
  let listed ← listedName
  match listed.second with
  | some second =>
    let b ← bindingOf second
    node start (.importNamed listed.typeOnly) [listed.first, b]
  | none =>
    let b ← bindingOf listed.first
    node start (.importNamed listed.typeOnly) [listed.first, b]

/-- Names in braces; a declaration that imports types only does not say so again for a name. -/
def importList (typeOnly : Bool) : Parser (List Tree) := do
  expect "\x7b"
  let (items, _) ← delimited "\x7d" importSpecifier
  expect "\x7d"
  let isMarked (t : Tree) : Bool :=
    match t.label with
    | .importNamed marked => marked
    | _ => false
  complainIf (typeOnly && items.any isMarked) (.typeModifierTwice true)
  return items

/-- The name of a whole module after its star. -/
def importNamespace : Parser Tree := do
  let start ← here
  expect "*"
  expectWord "as"
  let b ← binding
  node start .importNamespace [b]

/-- The source of an import after its names. -/
def importSource (start : Nat) (typeOnly : Bool) (phase : Option String) (specifiers : Tree) :
    Parser Tree := do
  expectWord "from"
  let source ← stringLiteral
  let attributes ← importAttributes
  semicolon
  node start (.importDeclaration typeOnly phase) [specifiers, source, attributes]

/-- An import after its first name. -/
def importAfterName (start : Nat) (typeOnly : Bool) (phase : Option String) (name : Tree) :
    Parser Tree := do
  let at_ := name.span.start
  let first ← node at_ .importDefault [name]
  let others ←
    if ← eat "," then
      if ← atMark "*" then pure [← importNamespace]
      else if ← atMark "\x7b" then importList typeOnly
      else unexpected
    else pure []
  let specifiers ← node at_ .importSpecifiers (first :: others)
  importSource start typeOnly phase specifiers

/-- The right side of an import that is an alias. -/
def importAlias (start : Nat) (name : Tree) : Parser Tree := do
  expect "="
  let at_ ← here
  let isModule ← pure ((← atWord "require") && (← nextIs (isMark "(")))
  let reference ←
    if isModule then do
      bump
      expect "("
      let source ← stringLiteral
      expect ")"
      node at_ .externalModule [source]
    else entityName
  semicolon
  node start .importEquals [name, reference]

/-- An import declaration after its word. -/
def importDeclaration (start : Nat) : Parser Tree := do
  if ← atString then
    let source ← stringLiteral
    let attributes ← importAttributes
    semicolon
    node start (.importDeclaration false none) [.absent, source, attributes]
  else
    let at_ ← here
    let body (typeOnly : Bool) (phase : Option String) : Parser Tree := do
      let at_ ← here
      if ← atMark "*" then
        let item ← importNamespace
        let specifiers ← node at_ .importSpecifiers [item]
        importSource start typeOnly phase specifiers
      else if ← atMark "\x7b" then
        let items ← importList typeOnly
        let specifiers ← node at_ .importSpecifiers items
        importSource start typeOnly phase specifiers
      else if ← atName then
        let name ← binding
        if (← isTyped) && (← atMark "=") then importAlias start name
        else importAfterName start typeOnly phase name
      else missing "from"
    match ← word? with
    | some w =>
      let modifier ← lookahead do
        bump
        if w == "type" then
          if !(← isTyped) then return false
          if (← atMark "*") || (← atMark "\x7b") then return true
          unless ← atName do return false
          unless ← atWord "from" do return true
          bump
          return (← atWord "from") || (← atMark "=")
        else if w == "defer" then return ← atMark "*"
        else if w == "source" then
          unless ← atName do return false
          unless ← atWord "from" do return true
          bump
          return ← atWord "from"
        else return false
      if modifier then
        bump
        if w == "type" then body true none else body false (some w)
      else if isReserved w then unexpected
      else
        let name ← binding
        if (← isTyped) && (← atMark "=") then importAlias start name
        else importAfterName at_ false none name >>= fun t =>
          match t with
          | .node l s ps => return .node l ⟨start, s.stop⟩ ps
    | none => body false none

/-! ## 3. Exports -/

/-- A name between the braces of an export. -/
def exportSpecifier : Parser Tree := do
  let start ← here
  let listed ← listedName
  node start (.exportSpecifier listed.typeOnly) [listed.first, listed.second.getD listed.first]

/-- The local name of an export that has no source refers to a variable. -/
def localExport : Tree → Parser Tree
  | .node label s [first, second] => do
    match first with
    | .node (.propertyName name) span _ =>
      complainIf (isReserved name) .reservedLocalExport
      return .node label s [.node (.identifier name) span [], second]
    | t =>
      complain .exportedStringWithoutSource
      return .node label s [t, second]
  | t => return t

/-- Names in braces after `export`. -/
def exportList (start : Nat) (typeOnly : Bool) : Parser Tree := do
  let at_ ← here
  expect "\x7b"
  let (items, _) ← delimited "\x7d" exportSpecifier
  expect "\x7d"
  let isMarked (t : Tree) : Bool := t.label == .exportSpecifier true
  complainIf (typeOnly && items.any isMarked) (.typeModifierTwice false)
  let (source, attributes) ←
    if ← eatWord "from" then do
      let source ← stringLiteral
      pure (source, ← importAttributes)
    else pure (.absent, .absent)
  let items ←
    if source.isAbsent then items.foldrM (fun t rest => do return (← localExport t) :: rest) []
    else pure items
  semicolon
  let specifiers ← node at_ .group items
  node start (.exportNamed typeOnly) [.absent, specifiers, source, attributes]

/-- Everything of another module. -/
def exportAll (start : Nat) (typeOnly : Bool) : Parser Tree := do
  expect "*"
  let name ← if ← eatWord "as" then moduleName else pure .absent
  expectWord "from"
  let source ← stringLiteral
  let attributes ← importAttributes
  semicolon
  node start (.exportAll typeOnly) [name, source, attributes]

end PackageRefs.Script.Parser
