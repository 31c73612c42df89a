/-
# Classes

A class has a name, a parent and members.  The words before a member are modifiers only if more of
the member follows on the line; otherwise they name it.
-/
import PackageRefs.Script.Parser.Function

namespace PackageRefs.Script.Parser

/-! ## 1. Modifiers of members -/

/-- The words before a member that have been read. -/
structure MemberWords where
  modifiers : Modifiers := {}
  /-- All words, the latest first. -/
  seen : List String := []

/-- The words that may stand before a member. -/
def memberModifiers : List String :=
  ["static", "async", "accessor", "public", "private", "protected", "abstract", "override",
    "readonly", "declare"]

/-- Words that are modifiers of other declarations, and that no member may have before it. -/
def strangeModifiers : List String := ["in", "out", "export", "default"]

/-- Adds a word to those read before. -/
def MemberWords.add (m : MemberWords) (word : String) : MemberWords :=
  let seen := word :: m.seen
  if word == "async" || word == "accessor" || strangeModifiers.contains word then { m with seen }
  else { modifiers := addModifier m.modifiers word, seen }

/-- The member is asynchronous. -/
def MemberWords.isAsync (m : MemberWords) : Bool := m.seen.contains "async"

/-- The member is a field that is read and written by accessors. -/
def MemberWords.isAccessor (m : MemberWords) : Bool := m.seen.contains "accessor"

/-- The word in hand is a modifier.  A second `static` names the member. -/
def atMemberModifier (m : MemberWords) (word : String) : Parser Bool := do
  if !(memberModifiers.contains word || strangeModifiers.contains word) then return false
  if word == "static" then
    if m.modifiers.isStatic then return false
    nextIs fun t => followsModifier t && !isMark "..." t && !isMark "\x7b" t
  else nextIs fun t => !t.onNewLine && followsModifier t && !isMark "\x7b" t

/-- Reads the words before a member; the fuel bounds their number. -/
def memberWords : Nat → MemberWords → Parser MemberWords
  | 0, m => result m
  | fuel + 1, m => do
    match ← word? with
    | none => return m
    | some w =>
      if ← atMemberModifier m w then
        checkModifier m.seen w
        bump
        memberWords fuel (m.add w)
      else return m

/-! ## 2. Members -/

/-- What is read of a member before its parameters or its type. -/
structure MemberHead where
  start : Nat
  decorators : Tree
  words : MemberWords
  isGenerator : Bool := false
  key : Tree
  computed : Bool
  modifiers : Modifiers

namespace MemberHead

/-- The name that the key spells, if it is not computed. -/
def name? (h : MemberHead) : Option String :=
  if h.computed then none
  else
    match h.key.label with
    | .propertyName name => some name
    | .string value false => some value
    | _ => none

/-- The key is that of the constructor. -/
def isConstructor (h : MemberHead) : Bool :=
  !h.modifiers.isStatic && h.name? == some "constructor"

/-- The key is a private name. -/
def isPrivate (h : MemberHead) : Bool :=
  match h.key.label with
  | .privateName _ => true
  | _ => false

/-- Complains about a key that no member may have. -/
def checkKey (h : MemberHead) : Parser Unit := do
  complainIf (h.key.label == .privateName "constructor") .privateConstructor
  complainIf (h.isPrivate && h.modifiers.access.isSome && (← isTyped)) .accessOfPrivate
  complainIf (h.modifiers.isStatic && h.name? == some "prototype" && !(← context).isAmbient)
    .staticPrototype

/-- Complains about words before the member that its kind may not have. -/
def checkWords (h : MemberHead) (misplaced : List String) : Parser Unit := do
  for w in h.words.seen.reverse do
    complainIf (misplaced.contains w || strangeModifiers.contains w)
      (.modifierMisplaced w "appear on class elements of this kind")

/-- Complains about a member that takes the place of the constructor and is not one. -/
def checkConstructor (h : MemberHead) (kind : MethodKind) (f : Tree) : Parser Unit := do
  if h.isConstructor then
    complainIf (kind == .get || kind == .set) .accessorAsConstructor
    complainIf h.words.isAsync .asyncConstructor
    complainIf h.isGenerator .generatorConstructor
    complainIf h.modifiers.isOptional .optionalConstructor
  if kind == .constructor then
    match f.parts with
    | _ :: generics :: this :: _ =>
      complainIf (!this.isAbsent) .thisParameterOfConstructor
      complainIf (!generics.isAbsent) .genericConstructor
    | _ => return

/-- Complains about what a method must not be: an abstract method has no body, and some modifiers are
for fields only. -/
def checkMethod (h : MemberHead) (kind : MethodKind) (f : Tree) : Parser Unit := do
  h.checkConstructor kind f
  let m := h.modifiers
  let isAccessor := kind == .get || kind == .set
  h.checkWords (if isAccessor then ["async", "declare"]
    else if kind == .method then ["declare"] else [])
  complainIf (kind == .method && m.isReadonly) .readonlyMethod
  let hasBody := f.parts.getLast?.any fun body => !body.isAbsent
  complainIf (m.isAbstract && hasBody)
    (if isAccessor then .abstractAccessorWithBody else .abstractMethodWithBody (h.name?.getD ""))

/-- Complains about what a field must not be. -/
def checkField (h : MemberHead) (value : Tree) : Parser Unit := do
  let m := h.modifiers
  complainIf (m.isOptional && m.isDefinite) .optionalDefiniteField
  complainIf (m.isOptional && h.words.isAccessor) .optionalAccessor
  complainIf (h.name? == some "constructor") .constructorField
  complainIf (m.isAbstract && !value.isAbsent) (.abstractFieldWithValue (h.name?.getD ""))
  h.checkWords ["async"]

end MemberHead

/-- Ends a field. -/
def fieldEnd : Parser Unit := do
  if ← eat ";" then return
  unless ← canEndStatement do fatal .missingSemicolon

/-- A method after its key. -/
def methodAfterKey (grammar : Grammar) (h : MemberHead) (kind : MethodKind) : Parser Tree := do
  let f ← method grammar h.words.isAsync h.isGenerator (← isTyped) (kind == .constructor)
  checkAccessor kind f
  h.checkMethod kind f
  node h.start (.methodDefinition kind h.computed h.modifiers) [h.decorators, h.key, f]

/-- A field after its key. -/
def fieldAfterKey (grammar : Grammar) (h : MemberHead) : Parser Tree := do
  let type ← typeAnnotation grammar
  let value ←
    if ← eat "=" then
      withContext (fun c => { functionContext false false c with isReturn := false })
        (grammar (.assignment true))
    else pure .absent
  h.checkField value
  let t ← node h.start (.field h.computed h.words.isAccessor h.modifiers)
    [h.decorators, h.key, type, value]
  fieldEnd
  return t

/-- A static block. -/
def staticBlock (grammar : Grammar) (start : Nat) : Parser Tree := do
  expectWord "static"
  expect "\x7b"
  let at_ ← here
  let items ← withContext (fun c => { functionContext true false c with isReturn := false })
    (until_ "\x7d" (grammar .statement))
  let statements ← node at_ .statements items
  expect "\x7d"
  node start .staticBlock [statements]

/-- A member of a class. -/
def classMember (grammar : Grammar) : Parser Tree := do
  let start ← here
  if (← atWord "static") && (← nextIs (isMark "\x7b")) then staticBlock grammar start
  else
    let decorators ← decorators grammar
    let words ← memberWords 12 {}
    let m := words.modifiers
    if (← isTyped) && (← atMark "[") && (← startsIndexSignature) then
      let misplaced := words.seen.reverse.filter fun w => w != "static" && w != "readonly"
      for w in misplaced do complain (.modifierMisplaced w "appear on an index signature")
      let t ← indexSignature grammar start m.isReadonly
      fieldEnd
      return t
    match ← accessorWord with
    | some kind =>
      let (key, computed) ← memberKey grammar
      let h : MemberHead := { start, decorators, words, key, computed, modifiers := m }
      h.checkKey
      methodAfterKey grammar h kind
    | none =>
      let isGenerator ← eat "*"
      let (key, computed) ← memberKey grammar
      let typed ← isTyped
      let isOptional ← if typed then eat "?" else pure false
      let h : MemberHead :=
        { start, decorators, words, isGenerator, key, computed, modifiers := { m with isOptional } }
      h.checkKey
      if isGenerator || (← atMark "(") || (← atMark "<") then
        let isPlain := !isGenerator && !isOptional
        methodAfterKey grammar h (if h.isConstructor && isPlain then .constructor else .method)
      else
        let isDefinite ← if typed && !(← onNewLine) then eat "!" else pure false
        fieldAfterKey grammar { h with modifiers := { h.modifiers with isDefinite } }

/-! ## 3. Classes -/

/-- The members of a class in braces. -/
def classBody (grammar : Grammar) : Parser Tree := do
  let start ← here
  expect "\x7b"
  let members ← many do
    let rec skip : Nat → Parser Unit
      | 0 => result ()
      | n + 1 => do if ← eat ";" then skip n
    skip (← fuel)
    if (← atMark "\x7d") || (← atEnd) then return none
    return some (← classMember grammar)
  expect "\x7d"
  node start .classBody members

/-- A parent or an implemented type with its type arguments. -/
def heritage (grammar : Grammar) : Parser Tree := do
  let start ← here
  let name ← entityName
  let args ← typeArguments grammar
  node start .heritage [name, args]

/-- A list of parents in the order they are written. -/
def heritageList (grammar : Grammar) : Parser Tree := do
  let start ← here
  let first ← heritage grammar
  let others ← many do
    if ← eat "," then return some (← heritage grammar)
    return none
  node start .group (first :: others)

/-- A parent of a class with its type arguments. -/
def parent (grammar : Grammar) : Parser (Tree × Tree) := do
  let e ← grammar .callable
  match e with
  | .node .instantiation _ [inner, args] => return (inner, args)
  | _ => return (e, ← if ← isTyped then typeArguments grammar else pure .absent)

/-- The parents of a class, of which only the first counts. -/
def parents (grammar : Grammar) : Parser (Tree × Tree) := do
  let first ← parent grammar
  let _ ← many do
    if ← eat "," then return some (← parent grammar)
    return none
  return first

/-- The parents of a class and the types that it implements, in this order and each once; the fuel
bounds the number of clauses. -/
def heritageClauses (grammar : Grammar) :
    Nat → Option (Tree × Tree) → Tree → Parser ((Tree × Tree) × Tree)
  | 0, parent?, implemented => result (parent?.getD (.absent, .absent), implemented)
  | fuel + 1, parent?, implemented => do
    if ← atWord "extends" then
      if parent?.isSome then complain (.clauseRepeated "extends")
      else complainIf (!implemented.isAbsent) .clauseOrder
      bump
      heritageClauses grammar fuel (some (← parents grammar)) implemented
    else if ← atWord "implements" then
      complainIf (!implemented.isAbsent) (.clauseRepeated "implements")
      bump
      heritageClauses grammar fuel parent? (← heritageList grammar)
    else return (parent?.getD (.absent, .absent), implemented)

/-- A class; its word is in hand. -/
def «class» (grammar : Grammar) (start : Nat) (isAbstract isDeclare isDeclaration : Bool)
    (marks : List Tree) : Parser Tree := do
  expectWord "class"
  let decorators : Tree :=
    match marks with
    | [] => .absent
    | first :: _ => .node .group first.span marks
  let name ← if (← atName) && !(← atWord "implements") then binding else pure .absent
  let generics ← typeParameters grammar
  let ((parent, parentArgs), implemented) ← heritageClauses grammar 4 none .absent
  let body ← withContext (fun c => { c with isDecorator := false }) (classBody grammar)
  node start (.class isDeclaration isAbstract isDeclare)
    [decorators, name, generics, parent, parentArgs, implemented, body]

end PackageRefs.Script.Parser
