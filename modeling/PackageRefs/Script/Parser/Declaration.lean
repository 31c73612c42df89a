/-
# Declarations of types, and the choice between statements

Interfaces, aliases, enumerations and namespaces are declarations only where their words are
followed by a name on the same line; otherwise the words are names themselves.  `startsDeclaration`
holds that rule, and `statement` is the one place where the kinds of statement meet.
-/
import PackageRefs.Script.Parser.Module

namespace PackageRefs.Script.Parser

/-! ## 1. Which words start a declaration -/

/-- Words before a declaration that do not decide what it is. -/
def leadingWords : List String :=
  ["abstract", "accessor", "async", "declare", "private", "protected", "public", "readonly"]

/-- A declaration starts here; the fuel bounds the words before it. -/
def declarationAhead : Nat → Parser Bool
  | 0 => result false
  | fuel + 1 => do
    match ← word? with
    | some w =>
      if ["var", "let", "const", "function", "class", "enum"].contains w then return true
      bump
      if w == "interface" || w == "type" then
        return (← atName) && !(← onNewLine)
      else if w == "module" || w == "namespace" then
        return !(← onNewLine) && ((← atName) || (← atString))
      else if leadingWords.contains w then
        if ← onNewLine then return false
        declarationAhead fuel
      else if w == "global" then
        return (← atMark "\x7b") || (← atName) || (← atWord "export")
      else if w == "import" then
        return (← atString) || (← atMark "*") || (← atMark "\x7b") || (← atAnyWord)
      else if w == "export" then
        let _ ← eatWord "type"
        if (← atMark "=") || (← atMark "*") || (← atMark "\x7b") || (← atMark "@") ||
            (← atWord "default") || (← atWord "as") then return true
        declarationAhead fuel
      else if w == "static" then declarationAhead fuel
      else return false
    | none => return false

/-- A declaration that only typed scripts have starts here. -/
def startsDeclaration : Parser Bool := do
  unless ← isTyped do return false
  lookahead (declarationAhead 16)

/-- The word is a constant enumeration's first. -/
def atConstEnum : Parser Bool := do
  return (← isTyped) && (← atWord "const") && (← nextIs (isWord "enum"))

/-! ## 2. Declarations of types -/

/-- An interface; its word is in hand. -/
def interfaceDeclaration (grammar : Grammar) (start : Nat) : Parser Tree := do
  bump
  let name ← binding
  let generics ← typeParameters grammar
  let parents ← if ← eatWord "extends" then heritageList grammar else pure .absent
  if ← atWord "implements" then
    complain .interfaceImplements
    bump
    let _ ← heritageList grammar
  let at_ ← here
  let members ← typeMembers grammar
  let body ← node at_ .group members
  node start .interface [name, generics, parents, body]

/-- An alias of a type; its word is in hand. -/
def typeAlias (grammar : Grammar) (start : Nat) (isDeclare : Bool) : Parser Tree := do
  bump
  let name ← binding
  let generics ← typeParameters grammar
  expect "="
  let intrinsic ← pure ((← atWord "intrinsic") && !(← nextIs (isMark ".")))
  let type ←
    if intrinsic then do
      let at_ ← here
      bump
      node at_ (.keywordType "intrinsic") []
    else grammar .type
  semicolon
  node start (.typeAlias isDeclare) [name, generics, type]

/-- Gives up on a key that names no member of an enumeration: it is a word or a string, or in brackets
a string or a template without parts. -/
def checkMemberName (k : Tree) (computed : Bool) : Parser Unit :=
  match k.label with
  | .string .. => result ()
  | .template => if k.parts.length == 1 then result () else fatal .computedMember
  | .propertyName _ => if computed then fatal .computedMember else result ()
  | .number _ | .bigint _ => fatal (if computed then .computedMember else .numericMember)
  | _ => if computed then fatal .computedMember else unexpected

/-- A member of an enumeration. -/
def enumMember (grammar : Grammar) : Parser Tree := do
  let start ← here
  let (k, computed) ← key grammar
  checkMemberName k computed
  let value ← if ← eat "=" then grammar (.assignment true) else pure .absent
  node start (.enumMember computed) [k, value]

/-- An enumeration; its word is in hand. -/
def enumDeclaration (grammar : Grammar) (start : Nat) (isConst isDeclare : Bool) :
    Parser Tree := do
  bump
  let name ← binding
  expect "\x7b"
  let (members, _) ← delimited "\x7d" (enumMember grammar)
  expect "\x7d"
  node start (.enum isConst isDeclare) (name :: members)

/-- The statements of a namespace in braces. -/
def namespaceBody (grammar : Grammar) : Parser Tree := do
  let start ← here
  expect "\x7b"
  let parts ← statementsUntil grammar atBlockEnd
  expect "\x7d"
  node start .namespaceBody parts

/-- The rest of a namespace after its keyword: its name, with dots between parts, and its body.
The fuel bounds the number of parts. -/
def namespaceRest (grammar : Grammar) (start : Nat) (keyword : String) (isDeclare : Bool) :
    Nat → Parser Tree
  | 0 => unexpected
  | fuel + 1 => do
    let name ← binding
    let body ←
      if ← eat "." then do
        let inner ← here
        namespaceRest grammar inner keyword false fuel
      else namespaceBody grammar
    node start (.namespace keyword isDeclare) [name, body]

/-- The rest of the description of another module after its keyword: its name, and its body, which
may be left out. -/
def moduleRest (grammar : Grammar) (start : Nat) (keyword : String) (isDeclare : Bool) :
    Parser Tree := do
  let name ← stringLiteral
  let body ←
    if ← atMark "\x7b" then namespaceBody grammar
    else do
      semicolon
      pure .absent
  node start (.namespace keyword isDeclare) [name, body]

/-- A namespace; its word is in hand. -/
def namespaceDeclaration (grammar : Grammar) (start : Nat) (isDeclare : Bool) : Parser Tree := do
  let keyword ← anyName
  if keyword == "global" then
    let body ← namespaceBody grammar
    node start (.namespace keyword isDeclare) [.absent, body]
  else if keyword == "module" && (← atString) then moduleRest grammar start keyword isDeclare
  else namespaceRest grammar start keyword isDeclare (← fuel)

/-! ## 3. Declarations -/

/-- The words before a declaration. -/
structure DeclarationWords where
  isDeclare : Bool := false
  isAbstract : Bool := false
  /-- Words that no declaration may have before it. -/
  others : List String := []

/-- Adds a word to those read before. -/
def DeclarationWords.add (m : DeclarationWords) (word : String) : DeclarationWords :=
  match word with
  | "declare" => { m with isDeclare := true }
  | "abstract" => { m with isAbstract := true }
  | _ => { m with others := m.others ++ [word] }

/-- All words that were read before. -/
def DeclarationWords.all (m : DeclarationWords) : List String :=
  (if m.isDeclare then ["declare"] else []) ++ (if m.isAbstract then ["abstract"] else []) ++ m.others

/-- Reads the words before a declaration; the fuel bounds their number. -/
def declarationWords : Nat → DeclarationWords → Parser DeclarationWords
  | 0, m => result m
  | fuel + 1, m => do
    match ← word? with
    | some w =>
      if w != "async" && (leadingWords.contains w || w == "static") &&
          (← nextIs fun t => !t.onNewLine && isAnyWord t) then
        checkModifier m.all w
        bump
        declarationWords fuel (m.add w)
      else return m
    | none => return m

/-- Complains about words that the declaration may not have before it; only a class is abstract. -/
def DeclarationWords.check (m : DeclarationWords) (isClass : Bool) : Parser Unit := do
  complainIf (m.isAbstract && !isClass) (.modifierNotAllowed "abstract")
  for w in m.others do complain (.modifierNotAllowed w)

/-- A declaration, after the words before it. -/
def declaration (grammar : Grammar) (start : Nat) (words : DeclarationWords)
    (marks : List Tree) : Parser Tree := do
  let isDeclare := words.isDeclare
  let typed ← isTyped
  if ← atFunction then function grammar start .declaration isDeclare
  else if ← atConstEnum then
    bump
    enumDeclaration grammar start true isDeclare
  else
    match ← word? with
    | some "class" => grammar (.class start words.isAbstract isDeclare true marks)
    | some "var" => variableStatement grammar start .var isDeclare
    | some "let" => variableStatement grammar start .let isDeclare
    | some "const" => variableStatement grammar start .const isDeclare
    | some w =>
      if !typed then unexpected
      else if w == "interface" then interfaceDeclaration grammar start
      else if w == "type" then typeAlias grammar start isDeclare
      else if w == "enum" then enumDeclaration grammar start false isDeclare
      else if w == "namespace" || w == "module" || w == "global" then
        namespaceDeclaration grammar start isDeclare
      else if w == "import" then
        bump
        let t ← importDeclaration start
        if t.label != .importEquals then fatal (.expected "=" "from")
        return t
      else unexpected
    | none => unexpected

/-- A declaration with the words before it; what `declare` announces is ambient. -/
def declarationWithWords (grammar : Grammar) (start : Nat) (marks : List Tree) : Parser Tree := do
  let words ← if ← isTyped then declarationWords 8 {} else pure {}
  let isClass ← atWord "class"
  unless isClass || marks.isEmpty do complain .decoratorMisplaced
  let t ← withContext (fun c => { c with isAmbient := c.isAmbient || words.isDeclare })
    (declaration grammar start words marks)
  words.check isClass
  return t

/-! ## 4. Exports of declarations -/

/-- The decorators of an exported class, which stand either before or after the words of the export. -/
def decoratorsAfterExport (grammar : Grammar) (before : List Tree) : Parser (List Tree) := do
  let after ← decorators grammar
  complainIf (!before.isEmpty && !after.isAbsent) .decoratorsTwice
  return before ++ after.parts

/-- The default export, after its words. -/
def exportDefault (grammar : Grammar) (start : Nat) (marks : List Tree) : Parser Tree := do
  bump
  let at_ ← here
  let marks ← decoratorsAfterExport grammar marks
  let harmless := (← token).afterHarmlessFunction
  let isClass ← pure ((← atWord "class") || (← atWord "abstract"))
  unless isClass || marks.isEmpty do complain .decoratorMisplaced
  let inner ←
    if ← atWord "class" then grammar (.class at_ false false true marks)
    else if (← isTyped) && (← atWord "abstract") && (← nextIs (isWord "class")) then do
      bump
      grammar (.class at_ true false true marks)
    else if (← isTyped) && (← atWord "interface") && (← nextIs fun t => !t.onNewLine) then
      interfaceDeclaration grammar at_
    else if ← atFunction then do
      let isAsync ← eatWord "async"
      functionAfterWord grammar at_ .declaration true isAsync false
    else do
      let e ← grammar (.assignment true)
      semicolon
      pure e
  node start .exportDefault [if harmless then markHarmlessFunction inner else inner]

/-- An export; its word is in hand. -/
def exportDeclaration (grammar : Grammar) (start : Nat) (marks : List Tree) : Parser Tree := do
  bump
  let typed ← isTyped
  if typed && (← atMark "=") then
    bump
    let e ← grammar (.assignment true)
    semicolon
    node start .exportAssignment [e]
  else if typed && (← atWord "as") && (← nextIs (isWord "namespace")) then
    bump
    bump
    let name ← anyName
    semicolon
    node start (.exportAsNamespace name) []
  else if ← atWord "default" then exportDefault grammar start marks
  else if ← atMark "*" then
    unless marks.isEmpty do complain .decoratorMisplaced
    exportAll start false
  else if ← atMark "\x7b" then
    unless marks.isEmpty do complain .decoratorMisplaced
    exportList start false
  else if typed && (← atWord "type") && (← nextIs (isMark "\x7b")) then
    bump
    exportList start true
  else if typed && (← atWord "type") && (← nextIs (isMark "*")) then
    bump
    exportAll start true
  else
    let at_ ← here
    let marks ← decoratorsAfterExport grammar marks
    let inner ←
      match (← variableWord).filter fun kind => kind == .using || kind == .awaitUsing with
      | some kind => do
        let t ← variableStatement grammar at_ kind false
        complain .usingExported
        pure t
      | none => declarationWithWords grammar at_ marks
    let specifiers ← node at_ .group []
    node start (.exportNamed false) [inner, specifiers, .absent, .absent]

/-- A declaration with decorators before it. -/
def decoratedStatement (grammar : Grammar) : Parser Tree := do
  let start ← here
  let marks ← decorators grammar
  if ← atWord "export" then exportDeclaration grammar (← here) marks.parts
  else
    let words ← if ← isTyped then declarationWords 8 {} else pure {}
    if ← atWord "class" then grammar (.class start words.isAbstract words.isDeclare true marks.parts)
    else unexpected

/-! ## 5. Statements -/

/-- Marks the functions that a statement declares and that a comment before it declares to have no
effect: a function declaration, or the first value of a declaration of constants. -/
def markHarmlessStatement : Tree → Tree
  | .node (.variableList .const isDeclare) s (.node label t [pattern, value] :: ds) =>
    .node (.variableList .const isDeclare) s
      (.node label t [pattern, markHarmlessFunction value] :: ds)
  | .node (.exportNamed typeOnly) s (inner :: ps) =>
    .node (.exportNamed typeOnly) s (markHarmlessStatement inner :: ps)
  | .node .exportDefault s [inner] => .node .exportDefault s [markHarmlessFunction inner]
  | .node (.function .declaration isAsync isGenerator isDeclare wrapped _) s ps =>
    .node (.function .declaration isAsync isGenerator isDeclare wrapped true) s ps
  | t => t

/-- What the word `let` starts in the place of a statement. -/
inductive LetRole where
  | variables
  /-- an operand of an operator -/
  | operand
  /-- an object whose property is meant, or a function that is called -/
  | object
  /-- a statement of its own -/
  | alone

/-- What the word `let` in hand starts, by the token after it; as the whole body of another statement
it declares variables only before a bracket. -/
def letRole (single : Bool) : Parser LetRole := read fun s =>
  let t := (next s).token
  let usual : LetRole := if single then .alone else .variables
  match t.lexeme with
  | .mark m =>
    if (AssignOp.ofText? m).isSome || (BinaryOp.ofText? m).isSome then .operand
    else if m == "." || m == "(" then .object
    else if m == ";" then .alone
    else if m == "[" then .variables
    else usual
  | .word w _ => if w == "in" || w == "instanceof" then .operand else usual
  | _ => usual

/-- A statement that starts with `let`.  One that starts with an object or a call ends without a
semicolon, so that a semicolon behind it is a statement of its own. -/
def letStatement (grammar : Grammar) (single : Bool) : Parser Tree := do
  let start ← here
  let expressionOnly (e : Tree) : Parser Tree := do
    semicolon
    node start .expressionStatement [e]
  match ← letRole single with
  | .variables => variableStatement grammar start .let false
  | .operand => expressionOnly (← grammar (.assignment true))
  | .object =>
    let e ← grammar .expression
    node start .expressionStatement [e]
  | .alone => expressionOnly (← identifier)

/-- The variables of a statement; alone in the place of a body, only `var` may declare them. -/
def variablesIn (grammar : Grammar) (single : Bool) (kind : VariableKind) : Parser Tree := do
  let start ← here
  let t ← variableStatement grammar start kind false
  complainIf (single && kind != .var) .lexicalInSingleStatement
  return t

/-- A statement; `single` when it is the whole body of another. -/
def statementIn (grammar : Grammar) (single : Bool) : Parser Tree := do
  let start ← here
  let fallback : Parser Tree := do
    if ← startsDeclaration then declarationWithWords grammar start []
    else expressionStatement grammar
  match ← lexeme with
  | .mark "\x7b" => grammar .block
  | .mark ";" =>
    bump
    node start .emptyStatement []
  | .mark "@" => decoratedStatement grammar
  | .word w false =>
    match w with
    | "if" => ifStatement grammar
    | "do" => doStatement grammar
    | "while" => whileStatement grammar
    | "for" => forStatement grammar
    | "continue" => jumpStatement false
    | "break" => jumpStatement true
    | "with" => withStatement grammar
    | "switch" => switchStatement grammar
    | "throw" => throwStatement grammar
    | "try" => tryStatement grammar
    | "debugger" =>
      bump
      semicolon
      node start .debugger []
    | "class" =>
      let t ← grammar (.class start false false true [])
      complainIf single .classInSingleStatement
      return t
    | "export" => exportDeclaration grammar start []
    | "return" => returnStatement grammar
    | "var" => variablesIn grammar single .var
    | "const" =>
      if ← atConstEnum then declarationWithWords grammar start []
      else variablesIn grammar single .const
    | "let" =>
      let t ← letStatement grammar single
      let declares := match t.label with | .variableList .. => true | _ => false
      complainIf (single && declares) .lexicalInSingleStatement
      return t
    | "using" | "await" =>
      match ← variableWord with
      | some kind => variablesIn grammar single kind
      | none => expressionStatement grammar
    | "import" =>
      if ← nextIs fun t => isMark "(" t || isMark "." t then expressionStatement grammar
      else
        bump
        importDeclaration start
    | _ =>
      if ← atFunction then
        let t ← function grammar start .declaration false
        match t.label with
        | .function _ true .. => complainIf single .asyncInSingleStatement
        | .function _ false true .. => complainIf single .generatorInSingleStatement
        | _ => pure ()
        return t
      else fallback
  | _ => fallback

/-! ## 6. The grammar -/

/-- Reads a goal.  Rules reach each other only through goals, so the fuel bounds their nesting. -/
def goal : Nat → Grammar
  | 0, _ => unexpected
  | fuel + 1, g =>
    let grammar := goal fuel
    match g with
    | .expression => expression grammar
    | .assignment returnType => assignment grammar returnType
    | .operators level => operators grammar level
    | .operand => operand grammar
    | .callable => callable grammar
    | .statement => do
      let harmless := (← token).afterHarmlessFunction
      let t ← statementIn grammar false
      return if harmless then markHarmlessStatement t else t
    | .body => statementIn grammar true
    | .block => block grammar
    | .functionBody isAsync isGenerator => functionBody grammar isAsync isGenerator
    | .pattern => pattern grammar
    | .typedPattern => typedPattern grammar
    | .type => type grammar
    | .unaryType => unaryType grammar
    | .simpleType => simpleType grammar
    | .class start isAbstract isDeclare isDeclaration marks =>
      «class» grammar start isAbstract isDeclare isDeclaration marks
    | .element inMarkup => markup grammar inMarkup

end PackageRefs.Script.Parser
