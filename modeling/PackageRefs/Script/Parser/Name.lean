/-
# Names, literals and keys

The smallest phrases of the grammar: references and bindings of names, literals, templates, the keys
of properties, and the tests on the next token that decide between longer phrases.
-/
import PackageRefs.Script.Parser.State

namespace PackageRefs.Script.Parser

/-! ## 1. Looking at the next token -/

/-- The token after the one in hand satisfies the test. -/
def nextIs (test : Token → Bool) : Parser Bool := read fun s => test (next s).token

/-- The token is the mark. -/
def isMark (text : String) (t : Token) : Bool := t.lexeme == .mark text

/-- The token is the word. -/
def isWord (name : String) (t : Token) : Bool :=
  match t.lexeme with
  | .word w _ => w == name
  | _ => false

/-- The token is a name or a keyword. -/
def isAnyWord (t : Token) : Bool :=
  match t.lexeme with
  | .word .. => true
  | _ => false

/-- The token may name a variable. -/
def isName (t : Token) : Bool :=
  match t.lexeme with
  | .word w _ => !isReserved w
  | _ => false

/-- The token is a literal that may be a key. -/
def isLiteralKey (t : Token) : Bool :=
  match t.lexeme with
  | .string .. | .number _ | .bigint _ => true
  | _ => false

/-- The token is a number. -/
def isNumber (t : Token) : Bool :=
  match t.lexeme with
  | .number _ | .bigint _ => true
  | _ => false

/-- The token is a name, a keyword or a literal, on the same line as the one before. -/
def isWordOrLiteralOnLine (t : Token) : Bool :=
  !t.onNewLine && (isAnyWord t || isLiteralKey t)

/-- The token may come after a modifier: it starts a key, or is `*`, `{` or `...`. -/
def followsModifier (t : Token) : Bool :=
  isMark "[" t || isMark "\x7b" t || isMark "*" t || isMark "..." t || isAnyWord t ||
    isLiteralKey t || (match t.lexeme with | .privateName _ => true | _ => false)

/-- The token starts a key. -/
def startsKey (t : Token) : Bool :=
  isMark "[" t || isAnyWord t || isLiteralKey t ||
    (match t.lexeme with | .privateName _ => true | _ => false)

/-! ## 2. Names -/

/-- Complains about `await` and `yield` as names where they are operators. -/
def checkName (name : String) : Parser Unit := do
  let c ← context
  complainIf (c.isAwait && name == "await") .awaitAsName
  complainIf (c.isYield && name == "yield") .yieldAsName

/-- A reference to a variable. -/
def identifier : Parser Tree := do
  let start ← here
  match ← word? with
  | some name =>
    if isReserved name then unexpected
    checkName name
    bumpName
    node start (.identifier name) []
  | none => unexpected

/-- The name that a declaration introduces. -/
def binding : Parser Tree := do
  let start ← here
  match ← word? with
  | some name =>
    if isReserved name then fatal (.reservedName name)
    checkName name
    bumpName
    node start (.binding name) []
  | none => unexpected

/-- A name in a place where keywords are names too. -/
def anyName : Parser String := do
  match ← word? with
  | some name => bumpName; return name
  | none => unexpected

/-- A name that a declaration introduces, as text. -/
def newName : Parser String := do
  if ← read fun s => !isName s.token then unexpected
  anyName

/-- A private name, without its mark. -/
def privateName : Parser String := do
  match ← lexeme with
  | .privateName name => bump; return name
  | _ => unexpected

/-! ## 3. Literals -/

/-- A string literal. -/
def stringLiteral : Parser Tree := do
  let start ← here
  match ← lexeme with
  | .string value lone _ => bump; node start (.string value lone) []
  | _ => unexpected

/-- A literal other than a template. -/
def literal : Parser Tree := do
  let start ← here
  match ← lexeme with
  | .string value lone _ => bump; node start (.string value lone) []
  | .number value => bump; node start (.number value) []
  | .bigint digits => bump; node start (.bigint digits) []
  | .word "null" _ => bump; node start .null []
  | .word "true" _ => bump; node start (.bool true) []
  | .word "false" _ => bump; node start (.bool false) []
  | _ => unexpected

/-- Characters of a pattern of a regular expression; the fuel bounds their number. -/
def readPattern : List Char → List Char → Bool → Bool → Option (List Char × List Char)
  | [], _, _, _ => none
  | c :: r, seen, escaped, inClass =>
    if Lexer.isLineBreak c then none
    else if escaped then readPattern r (c :: seen) false inClass
    else if c == '/' && !inClass then some (seen.reverse, r)
    else if c == '[' then readPattern r (c :: seen) false true
    else if c == '\\' then readPattern r (c :: seen) true inClass
    else if c == ']' then readPattern r (c :: seen) false false
    else readPattern r (c :: seen) false inClass

/-- The flags of regular expressions in alphabetical order. -/
def regexFlags : List Char := ['d', 'g', 'i', 'm', 's', 'u', 'v', 'y']

/-- Reads flags; unknown and repeated ones are complained about and left out. -/
def readFlags : List Char → List Char → List Diagnostic → List Char × List Char × List Diagnostic
  | c :: r, seen, complaints =>
    if PackageRefs.Text.isAsciiAlphanumeric c || c == '$' || c == '_' then
      if !regexFlags.contains c then readFlags r seen (complaints ++ [.unknownFlag c])
      else if seen.contains c then readFlags r seen (complaints ++ [.repeatedFlag c])
      else readFlags r (c :: seen) complaints
    else (c :: r, seen, complaints)
  | [], seen, complaints => ([], seen, complaints)

/-- Reads a regular expression from the slash that opens it. -/
def readRegex (text : List Char) (pos : Nat) : Lexer.Lexed :=
  match readPattern (text.drop 1) [] false false with
  | some (pattern, rest) =>
    let (rest, flags, complaints) := readFlags rest [] []
    let ordered := regexFlags.filter flags.contains
    let bothModes := flags.contains 'u' && flags.contains 'v'
    let complaints := complaints ++ (if bothModes then [.exclusiveFlags] else [])
    ⟨.regex (String.ofList pattern) (String.ofList ordered), rest,
      pos + (text.length - rest.length), complaints⟩
  | none =>
    let rest := text.dropWhile fun c => !Lexer.isLineBreak c
    ⟨.broken, rest, pos + (text.length - rest.length), [.unterminatedRegex]⟩

/-- A regular expression; the slash that opens it is in hand. -/
def regexLiteral : Parser Tree := do
  let start ← here
  replaceToken readRegex
  match ← lexeme with
  | .regex pattern flags => bump; node start (.regex pattern flags) []
  | _ => unexpected

/-- The quasi in hand as a node. -/
def quasiNode (tagged : Bool) : Parser (Tree × Bool) := do
  let start ← here
  match ← lexeme with
  | .quasi raw cooked isLast =>
    complainIf (!tagged && cooked.isNone) .escapeInTemplate
    bump
    return (← node start (.quasi raw cooked) [], isLast)
  | _ => unexpected

/-- The parts and pieces of a template after a piece; `seen` holds those before, reversed.  The fuel
bounds their number. -/
def templateRest (tagged : Bool) (part : Parser Tree) :
    Nat → List Tree → Bool → Parser (List Tree)
  | 0, seen, _ => result seen.reverse
  | _ + 1, seen, true => result seen.reverse
  | fuel + 1, seen, false => do
    let e ← part
    unless ← atMark "\x7d" do missing "\x7d"
    replaceToken fun text pos => Lexer.readQuasi (text.drop 1) (pos + 1)
    let (quasi, isLast) ← quasiNode tagged
    templateRest tagged part fuel (quasi :: e :: seen) isLast

/-- A template with parts read by the given parser; its first piece is in hand. -/
def template (label : Label) (tagged : Bool) (part : Parser Tree) : Parser Tree := do
  let start ← here
  let (first, isLast) ← quasiNode tagged
  let parts ← templateRest tagged part (← fuel) [first] isLast
  node start label parts

/-! ## 4. Keys -/

/-- The key of a property and whether it is computed. -/
def key (grammar : Grammar) : Parser (Tree × Bool) := do
  let start ← here
  match ← lexeme with
  | .string .. | .number _ | .bigint _ => return (← literal, false)
  | .mark "[" =>
    bump
    let e ← withContext ({ · with allowIn := true, isDecorator := false })
      (grammar (.assignment true))
    expect "]"
    return (e, true)
  | .word name _ => bumpName; return (← node start (.propertyName name) [], false)
  | _ => unexpected

/-- The word before an accessor, unless it is the name of the member. -/
def accessorWord : Parser (Option MethodKind) := do
  let kind : Option MethodKind :=
    match ← word? with
    | some "get" => some .get
    | some "set" => some .set
    | _ => none
  if kind.isSome && (← nextIs startsKey) then
    bump
    return kind
  return none

/-- The key of a class member, which may be private. -/
def memberKey (grammar : Grammar) : Parser (Tree × Bool) := do
  let start ← here
  match ← lexeme with
  | .privateName name => bump; return (← node start (.privateName name) [], false)
  | _ => key grammar

end PackageRefs.Script.Parser
