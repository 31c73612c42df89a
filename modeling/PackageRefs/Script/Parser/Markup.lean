/-
# Markup

Elements and fragments inside expressions.  Between tags the text is read as it stands; inside a tag
names may hold hyphens and strings have no escapes.
-/
import PackageRefs.Script.Parser.Type

namespace PackageRefs.Script.Parser

open PackageRefs.Text

/-! ## 1. Tokens of markup -/

/-- Reads the text between tags. -/
def readMarkupChild (text : List Char) (pos : Nat) : Lexer.Lexed :=
  match text with
  | [] => ⟨.endOfText, [], pos, []⟩
  | '<' :: r => ⟨.mark "<", r, pos + 1, []⟩
  | '\x7b' :: r => ⟨.mark "\x7b", r, pos + 1, []⟩
  | _ =>
    let inner := text.takeWhile fun c => c != '<' && c != '\x7b'
    let stray := inner.filter fun c => c == '>' || c == '\x7d'
    ⟨.markupText (String.ofList inner), text.drop inner.length, pos + inner.length,
      stray.map .strayInMarkup⟩

/-- Passes over the token in hand and reads the text between tags after it. -/
def bumpToChild : Parser Unit := modify fun s =>
  { take s (readMarkupChild s.rest s.token.stop) s.token.stop s.rest false with
    previousStop := s.token.stop }

/-- The mark must be in hand; what follows is read as text between tags. -/
def expectThenChild (mark : String) : Parser Unit := do
  if ← atMark mark then bumpToChild else missing mark

/-- Ends a tag or a container, inside other markup or not. -/
def expectClosing (mark : String) (inMarkup : Bool) : Parser Unit :=
  if inMarkup then expectThenChild mark else expect mark

/-- Reads a string without escapes. -/
def readMarkupString (quote : Char) (text : List Char) (pos : Nat) : Lexer.Lexed :=
  let inner := text.takeWhile fun c => c != quote
  match text.drop inner.length with
  | _ :: r =>
    ⟨.string (String.ofList inner) false (String.ofList inner), r, pos + inner.length + 1, []⟩
  | [] => ⟨.broken, [], pos + text.length, [.unterminatedString]⟩

/-- Passes over the `=` in hand and reads a value after it, where strings have no escapes. -/
def bumpToValue : Parser Unit := fun s =>
  let trivia := Lexer.skipTrivia s.dialect.isModule .code s.rest s.token.stop s.log false
  match trivia.rest with
  | c :: r =>
    if c == '"' || c == '\'' then
      let lexed := readMarkupString c r (trivia.pos + 1)
      let s := { s with log := trivia.log, previousStop := s.token.stop }
      .ok () (take s lexed trivia.pos trivia.rest trivia.onNewLine)
    else .ok () (next s)
  | [] => .ok () (next s)

/-- The name in hand as it is written, its escapes unread; it goes on after a hyphen. -/
def extendName (length : Nat) (text : List Char) (pos : Nat) : Lexer.Lexed :=
  let rest := text.drop length
  let more :=
    match rest with
    | '-' :: _ => rest.takeWhile fun c => isNamePart c || c == '-'
    | _ => []
  ⟨.word (String.ofList (text.take length ++ more)) false, rest.drop more.length,
    pos + length + more.length, []⟩

/-- A name that may hold hyphens. -/
def markupWord : Parser String := do
  match ← word? with
  | some _ =>
    let t ← token
    replaceToken (extendName (t.stop - t.start))
    match ← word? with
    | some w => bumpName; return w
    | none => unexpected
  | none => unexpected

/-! ## 2. Names of elements -/

/-- A name with dots after it; the fuel bounds their number. -/
def tagMembers (start : Nat) : Nat → Tree → Parser Tree
  | 0, t => result t
  | fuel + 1, t => do
    if ← eat "." then
      let name ← markupWord
      let t ← node start (.tagMember name) [t]
      tagMembers start fuel t
    else return t

/-- The name stands for an element of the page, not for a component. -/
def isPlainTag (name : String) : Bool :=
  match name.toList with
  | c :: r => ('a' ≤ c && c ≤ 'z') || r.contains '-'
  | [] => true

/-- The name of an element. -/
def tagName : Parser Tree := do
  let start ← here
  let name ← markupWord
  if ← eat ":" then
    let inner ← markupWord
    node start (.namespacedName name inner) []
  else if ← atMark "." then
    let base ← node start (if name == "this" then .this else .identifier name) []
    tagMembers start (← fuel) base
  else if name == "this" then node start .this []
  else if isPlainTag name then node start (.tagName name) []
  else node start (.identifier name) []

/-- The name as it is written. -/
def tagText : Tree → String
  | .node (.tagName name) _ _ => name
  | .node (.identifier name) _ _ => name
  | .node .this _ _ => "this"
  | .node (.namespacedName space name) _ _ => space ++ ":" ++ name
  | .node (.tagMember name) _ [object] => tagText object ++ "." ++ name
  | _ => ""

/-! ## 3. Attributes -/

/-- An expression in braces; the opening brace is in hand. -/
def container (grammar : Grammar) (inMarkup : Bool) : Parser Tree := do
  let start ← here
  bump
  if ← atMark "\x7d" then
    expectClosing "\x7d" inMarkup
    node start .container [.absent]
  else
    let e ← withContext ({ · with allowIn := true }) (grammar .expression)
    expectClosing "\x7d" inMarkup
    node start .container [e]

/-- The value of an attribute after its `=`. -/
def attributeValue (grammar : Grammar) : Parser Tree := do
  let start ← here
  match ← lexeme with
  | .string value _ _ => bump; node start (.markupString value) []
  | .mark "\x7b" => container grammar false
  | .mark "<" => grammar (.element false)
  | _ => unexpected

/-- An attribute of an element. -/
def markupAttribute (grammar : Grammar) : Parser Tree := do
  let start ← here
  if ← eat "\x7b" then
    expect "..."
    let e ← grammar .expression
    expect "\x7d"
    node start .spreadAttribute [e]
  else
    let name ← markupWord
    let nameNode ←
      if ← eat ":" then
        let inner ← markupWord
        node start (.namespacedName name inner) []
      else node start (.tagName name) []
    if ← atMark "=" then
      bumpToValue
      let value ← attributeValue grammar
      node start .tagAttribute [nameNode, value]
    else node start .tagAttribute [nameNode, .absent]

/-! ## 4. Elements -/

/-- A child of an element that is no tag. -/
def markupContent (grammar : Grammar) : Parser Tree := do
  let start ← here
  match ← lexeme with
  | .markupText text =>
    bumpToChild
    node start (.markupText text) []
  | .mark "\x7b" =>
    if ← nextIs (isMark "...") then
      bump
      bump
      let e ← grammar .expression
      expectThenChild "\x7d"
      node start .spreadChild [e]
    else container grammar true
  | _ => unexpected

/-- A child of an element, unless its closing tag begins. -/
def markupChild (grammar : Grammar) : Parser (Option Tree) := do
  if ← atMark "<" then
    if ← nextIs (isMark "/") then return none
    return some (← grammar (.element true))
  else return some (← markupContent grammar)

/-- The children of an element or a fragment. -/
def markupChildren (grammar : Grammar) : Parser Tree := do
  let start ← here
  let children ← many (markupChild grammar)
  node start .group children

/-- A fragment after its first bracket. -/
def markupFragment (grammar : Grammar) (start : Nat) (inMarkup : Bool) : Parser Tree := do
  expectThenChild ">"
  let children ← markupChildren grammar
  expect "<"
  expect "/"
  unless ← atMark ">" do
    complain .mismatchedFragment
    let _ ← tagName
  expectClosing ">" inMarkup
  node start .fragment children.parts

/-- An element after its first bracket. -/
def markupElement (grammar : Grammar) (start : Nat) (inMarkup : Bool) : Parser Tree := do
  let name ← tagName
  let args ← if ← isTyped then typeArguments grammar else pure .absent
  let attributes ← many do
    if (← atMark "/") || (← atMark ">") || (← atEnd) then return none
    return some (← markupAttribute grammar)
  let list ← node start .group attributes
  if ← eat "/" then
    expectClosing ">" inMarkup
    node start .element [name, args, list, .absent, .absent]
  else
    expectThenChild ">"
    let children ← markupChildren grammar
    expect "<"
    expect "/"
    let closing ← if ← atMark ">" then unexpected else tagName
    complainIf (tagText closing != tagText name) (.mismatchedTag (tagText name))
    expectClosing ">" inMarkup
    node start .element [name, args, list, children, closing]

/-- An element or a fragment; its first bracket is in hand. -/
def markup (grammar : Grammar) (inMarkup : Bool) : Parser Tree := do
  let start ← here
  bump
  if ← atMark ">" then markupFragment grammar start inMarkup
  else if ← atAnyWord then markupElement grammar start inMarkup
  else unexpected

end PackageRefs.Script.Parser
