/-
# Reading with one token in hand

A `Parser` is a function on a `State`: the text not yet read, the token in hand, the complaints so
far.  It either succeeds or gives up with one complaint that ends the whole reading.  Lesser
complaints are recorded and the reading goes on.

**Looking ahead** costs nothing: a state is a value, so going back is using the old one.  What is
kept from a reading that was abandoned is only the list of places where an arrow function has been
tried in vain, which stops the same try from being made again and again inside nested parentheses.
-/
import PackageRefs.Script.Dialect
import PackageRefs.Script.Tree
import PackageRefs.Script.Lexer.Mark
import PackageRefs.Script.Lexer.Quoted

namespace PackageRefs.Script

open PackageRefs.Text

/-! ## 1. State -/

/-- What the surroundings of a place allow. -/
structure Context where
  /-- The operator `in` is allowed. -/
  allowIn : Bool := true
  /-- The place belongs to a generator. -/
  isYield : Bool := false
  /-- The place belongs to an asynchronous function or to a module. -/
  isAwait : Bool := false
  /-- The place belongs to a function. -/
  isReturn : Bool := false
  /-- The place belongs to a decorator, where an index may not follow. -/
  isDecorator : Bool := false
  /-- The place belongs to a declaration without a body. -/
  isAmbient : Bool := false
  /-- Conditional types are not allowed. -/
  noConditionalType : Bool := false
  deriving DecidableEq, Inhabited

/-- Everything that reading depends on. -/
structure State where
  dialect : Dialect
  context : Context
  /-- The token in hand. -/
  token : Token
  /-- The text from the start of the token in hand. -/
  tokenText : List Char
  /-- The text after the token in hand. -/
  rest : List Char
  /-- Where the token before the one in hand ended. -/
  previousStop : Nat := 0
  log : CommentLog := {}
  /-- Complaints about tokens, the latest first. -/
  lexical : List Diagnostic := []
  /-- Complaints about their arrangement, the latest first. -/
  complaints : List Diagnostic := []
  /-- Places where a parenthesis was tried as the start of an arrow function in vain. -/
  notArrow : List Nat := []
  /-- Values given to short properties, which only a pattern may have, under their places. -/
  shortDefaults : List (Nat × Tree) := []
  /-- Where arrays and objects start that have a comma behind a last item that is spread. -/
  restCommas : List Nat := []
  deriving Inhabited

/-- The result of reading. -/
inductive Step (α : Type) where
  | ok (value : α) (state : State)
  | fatal (complaint : Diagnostic) (state : State)

/-- A way to read something. -/
def Parser (α : Type) : Type := State → Step α

namespace Parser

/-- Reads nothing. -/
def result {α : Type} (a : α) : Parser α := fun s => .ok a s

/-- Reads one thing after another. -/
def andThen {α β : Type} (p : Parser α) (f : α → Parser β) : Parser β := fun s =>
  match p s with
  | .ok a s => f a s
  | .fatal d s => .fatal d s

instance : Monad Parser where
  pure := result
  bind := andThen

instance {α : Type} : Inhabited (Parser α) := ⟨fun s => .fatal .unexpectedToken s⟩

/-- Gives up. -/
def fatal {α : Type} (d : Diagnostic) : Parser α := fun s => .fatal d s

/-- Records a complaint and goes on. -/
def complain (d : Diagnostic) : Parser Unit := fun s =>
  .ok () { s with complaints := d :: s.complaints }

/-- Records a complaint if the condition holds. -/
def complainIf (b : Bool) (d : Diagnostic) : Parser Unit :=
  if b then complain d else result ()

/-- The whole state. -/
def get : Parser State := fun s => .ok s s

/-- A part of the state. -/
def read {α : Type} (f : State → α) : Parser α := fun s => .ok (f s) s

/-- Changes the state. -/
def modify (f : State → State) : Parser Unit := fun s => .ok () (f s)

/-- Reads in changed surroundings. -/
def withContext {α : Type} (f : Context → Context) (p : Parser α) : Parser α := fun s =>
  match p { s with context := f s.context } with
  | .ok a t => .ok a { t with context := s.context }
  | .fatal d t => .fatal d t

/-- Tests what follows without reading it. -/
def lookahead (p : Parser Bool) : Parser Bool := fun s =>
  match p s with
  | .ok b _ => .ok b s
  | .fatal _ _ => .ok false s

/-- Reads something if it is there, and nothing otherwise. -/
def attempt {α : Type} (p : Parser α) : Parser (Option α) := fun s =>
  match p s with
  | .ok a t => .ok (some a) t
  | .fatal _ t => .ok none { s with notArrow := t.notArrow }

/-- Reads what the first finds, and otherwise nothing; success with `none` goes back as well. -/
def attemptSome {α : Type} (p : Parser (Option α)) : Parser (Option α) := fun s =>
  match p s with
  | .ok (some a) t => .ok (some a) t
  | .ok none t => .ok none { s with notArrow := t.notArrow }
  | .fatal _ t => .ok none { s with notArrow := t.notArrow }

/-! ## 2. The next token -/

/-- Reads a token at the start of a text that holds no blanks or comments before it. -/
def lexToken (text : List Char) (pos : Nat) : Lexer.Lexed :=
  match text with
  | [] => ⟨.endOfText, [], pos, []⟩
  | c :: r =>
    if isNameStart c || c == '\\' then
      let name := Lexer.readName text pos
      ⟨.word name.name name.escaped, name.rest, name.stop, name.complaints⟩
    else if isAsciiDigit c then Lexer.readNumeral text pos
    else if c == '"' || c == '\'' then Lexer.readString c r (pos + 1)
    else if c == '\x60' then Lexer.readQuasi r (pos + 1)
    else if c == '#' then
      match r with
      | d :: _ =>
        if isNameStart d || d == '\\' then
          let name := Lexer.readName r (pos + 1)
          ⟨.privateName name.name, name.rest, name.stop, name.complaints⟩
        else ⟨.broken, r.drop 1, pos + 2, [.invalidCharacter d]⟩
      | [] => ⟨.broken, [], pos + 1, [.unexpectedEnd]⟩
    else if c == '.' && (match r with | d :: _ => isAsciiDigit d | [] => false) then
      Lexer.readFraction [] r (pos + 1) []
    else
      match Lexer.readMark text with
      | some mark => ⟨.mark mark, text.drop mark.length, pos + mark.length, []⟩
      | none => ⟨.broken, r, pos + 1, [.invalidCharacter c]⟩

/-- A line comment after the token leads what follows it. -/
def isOpener : Lexeme → Bool
  | .mark "=" => true
  | .mark "(" => true
  | _ => false

/-- A character that starts no token at all. -/
def isStray (text : List Char) : Bool :=
  match text with
  | [] => false
  | c :: _ =>
    !(isNameStart c || c == '\\' || isAsciiDigit c || c == '"' || c == '\'' || c == '\x60' ||
      c == '#') && (Lexer.readMark text).isNone

/-- Reads the next token of a text; characters that start none are complained about and passed
over.  The fuel bounds their number. -/
def scan (isModule : Bool) : Nat → List Char → Nat → CommentLog → Bool → List Diagnostic →
    Token × List Char × List Char × CommentLog × List Diagnostic
  | fuel, text, pos, log, fresh, complaints =>
    let trivia := Lexer.skipTrivia isModule .code text pos log fresh
    let here := trivia.pos
    let finish (lexed : Lexer.Lexed) (complaints : List Diagnostic) :=
      let token : Token :=
        { lexeme := lexed.lexeme, start := here, stop := lexed.stop,
          onNewLine := trivia.onNewLine, afterHarmless := trivia.log.sawHarmless,
          afterHarmlessFunction := trivia.log.sawHarmlessFunction }
      (token, trivia.rest, lexed.rest, trivia.log.token here (isOpener lexed.lexeme), complaints)
    if trivia.unterminated then
      finish ⟨.endOfText, [], here, []⟩ (.unterminatedComment :: complaints)
    else if isStray trivia.rest then
      match fuel with
      | 0 => finish ⟨.endOfText, [], here, []⟩ complaints
      | fuel + 1 =>
        let stray := (trivia.rest.head?.map Diagnostic.invalidCharacter).toList
        scan isModule fuel (trivia.rest.drop 1) (here + 1) trivia.log trivia.onNewLine
          (stray ++ complaints)
    else
      let lexed := lexToken trivia.rest here
      finish lexed (lexed.complaints.reverse ++ complaints)

/-- Puts a token in hand that has been read from the text after the one in hand. -/
def take (s : State) (lexed : Lexer.Lexed) (start : Nat) (text : List Char) (onNewLine : Bool) :
    State :=
  { s with
    token := { lexeme := lexed.lexeme, start, stop := lexed.stop, onNewLine }
    tokenText := text
    rest := lexed.rest
    log := s.log.token start (isOpener lexed.lexeme)
    lexical := lexed.complaints.reverse ++ s.lexical }

/-- The state after the token in hand; `fresh` at the start of a line. -/
def nextOn (fresh : Bool) (s : State) : State :=
  let (token, tokenText, rest, log, lexical) :=
    scan s.dialect.isModule (s.rest.length + 1) s.rest s.token.stop s.log fresh s.lexical
  { s with token, tokenText, rest, log, lexical, previousStop := s.token.stop }

/-- The state after the token in hand. -/
def next (s : State) : State := nextOn false s

/-- Passes over a word that is a name here, whatever else it may mean elsewhere. -/
def bumpName : Parser Unit := modify next

/-- The token in hand is a keyword that is not written plainly. -/
def isDisguisedKeyword (t : Token) : Bool :=
  match t.lexeme with
  | .word name escaped => escaped && keywords.contains name
  | _ => false

/-- Passes over the token in hand; a word that has a meaning of its own must be written without
escapes. -/
def bump : Parser Unit := do
  complainIf (← read fun s => isDisguisedKeyword s.token) .escapedKeyword
  bumpName

/-- Puts another token in hand, read again from the start of the one in hand. -/
def replaceToken (read : List Char → Nat → Lexer.Lexed) : Parser Unit := fun s =>
  let lexed := read s.tokenText s.token.start
  .ok () { s with
    token := { s.token with lexeme := lexed.lexeme, stop := lexed.stop }
    rest := lexed.rest
    lexical := lexed.complaints.reverse ++ s.lexical }

/-! ## 3. Tests and steps -/

/-- The token in hand. -/
def token : Parser Token := read State.token

/-- What the token in hand is. -/
def lexeme : Parser Lexeme := read fun s => s.token.lexeme

/-- The mark is in hand. -/
def atMark (text : String) : Parser Bool := read fun s => s.token.lexeme == .mark text

/-- The word is in hand, whether a name or a keyword. -/
def atWord (name : String) : Parser Bool := read fun s =>
  match s.token.lexeme with
  | .word w _ => w == name
  | _ => false

/-- The word in hand. -/
def word? : Parser (Option String) := read fun s =>
  match s.token.lexeme with
  | .word w _ => some w
  | _ => none

/-- Some word is in hand. -/
def atAnyWord : Parser Bool := read fun s =>
  match s.token.lexeme with
  | .word .. => true
  | _ => false

/-- A word is in hand that may name a variable. -/
def atName : Parser Bool := read fun s =>
  match s.token.lexeme with
  | .word w _ => !isReserved w
  | _ => false

/-- The end of the text is in hand. -/
def atEnd : Parser Bool := read fun s => s.token.lexeme == .endOfText

/-- A string literal is in hand. -/
def atString : Parser Bool := read fun s =>
  match s.token.lexeme with
  | .string .. => true
  | _ => false

/-- The token in hand stands on a new line. -/
def onNewLine : Parser Bool := read fun s => s.token.onNewLine

/-- Where the token in hand starts. -/
def here : Parser Nat := read fun s => s.token.start

/-- The dialect. -/
def dialect : Parser Dialect := read State.dialect

/-- Types may be written. -/
def isTyped : Parser Bool := read fun s => s.dialect.typescript

/-- The surroundings. -/
def context : Parser Context := read State.context

/-- Passes over the mark if it is in hand. -/
def eat (text : String) : Parser Bool := do
  if ← atMark text then bump; return true
  return false

/-- Passes over the word if it is in hand. -/
def eatWord (name : String) : Parser Bool := do
  if ← atWord name then bump; return true
  return false

/-- The lines that a merge leaves between two versions of a text begin with one of these. -/
def conflictMarks : List String := ["<<<<<<<", "=======", ">>>>>>>", "|||||||"]

/-- The token in hand begins a line that a merge has left. -/
def atConflictMark (s : State) : Bool :=
  (s.token.onNewLine || s.token.start == 0) &&
    conflictMarks.any fun mark => mark.toList.isPrefixOf s.tokenText

/-- Gives up on the token in hand; a broken token brings its own complaint. -/
def unexpected {α : Type} : Parser α := fun s =>
  match s.token.lexeme, s.lexical with
  | .broken, d :: ds => .fatal d { s with lexical := ds }
  | _, _ => .fatal (if atConflictMark s then .conflictMarker else .unexpectedToken) s

/-- Gives up because something else was wanted. -/
def missing {α : Type} (wanted : String) : Parser α := fun s =>
  .fatal (.expected wanted s.token.lexeme.describe) s

/-- The mark must be in hand; passes over it. -/
def expect (text : String) : Parser Unit := do
  if ← atMark text then bump else missing text

/-- The word must be in hand; passes over it. -/
def expectWord (name : String) : Parser Unit := do
  if ← atWord name then bump else missing name

/-- A semicolon can be left out here. -/
def canEndStatement : Parser Bool := read fun s =>
  s.token.lexeme == .mark ";" || s.token.lexeme == .mark "\x7d" || s.token.lexeme == .endOfText ||
    s.token.onNewLine

/-- Ends a statement, with a semicolon or where one can be left out. -/
def semicolon : Parser Unit := do
  if ← eat ";" then return
  unless ← canEndStatement do fatal .missingSemicolon

/-- A node from a place to the end of the token passed over last. -/
def node (start : Nat) (label : Label) (parts : List Tree) : Parser Tree := fun s =>
  .ok (.node label ⟨start, s.previousStop⟩ parts) s

/-! ## 4. Repetition -/

/-- Reads items as long as there are any; the fuel bounds their number. -/
def repeatWith {α : Type} (item : Parser (Option α)) : Nat → List α → Parser (List α)
  | 0, seen => result seen.reverse
  | fuel + 1, seen => do
    match ← item with
    | some a => repeatWith item fuel (a :: seen)
    | none => return seen.reverse

/-- An upper bound on the number of tokens that are left. -/
def fuel : Parser Nat := read fun s => s.rest.length + 2

/-- Reads items as long as there are any. -/
def many {α : Type} (item : Parser (Option α)) : Parser (List α) := do
  repeatWith item (← fuel) []

/-- Reads items with separators between them, up to the closing mark, which is left in hand, or to
the end of the text.  The second answer says whether a separator stands before the closing mark. -/
def delimitedWith {α : Type} (close separator : String) (item : Parser α) :
    Nat → List α → Parser (List α × Bool)
  | 0, seen => result (seen.reverse, false)
  | fuel + 1, seen => do
    let seen := (← item) :: seen
    if (← atMark close) || (← atEnd) then return (seen.reverse, false)
    unless ← atMark separator do
      fatal (.expectedEither separator close (← lexeme).describe)
    bump
    if ← atMark close then return (seen.reverse, true)
    delimitedWith close separator item fuel seen

/-- Reads a list up to its closing mark. -/
def delimited {α : Type} (close : String) (item : Parser α) : Parser (List α × Bool) := do
  if (← atMark close) || (← atEnd) then return ([], false)
  delimitedWith close "," item (← fuel) []

/-- Reads items until the closing mark or the end of the text is in hand. -/
def until_ {α : Type} (close : String) (item : Parser α) : Parser (List α) :=
  many do
    if (← atMark close) || (← atEnd) then return none
    return some (← item)

end Parser

/-- What the grammar describes by itself; the rules of one part of the grammar reach the others
through it. -/
inductive Goal where
  /-- an expression with commas -/
  | expression
  /-- an expression without commas; an arrow function may be told not to have a return type -/
  | assignment (returnType : Bool)
  /-- an operator expression that binds tighter than the level -/
  | operators (level : Precedence)
  /-- an operand with its prefix operators -/
  | operand
  /-- an expression that can be called, with its accesses and calls -/
  | callable
  /-- a statement in a list -/
  | statement
  /-- a statement that is the whole body of another -/
  | body
  /-- statements in braces -/
  | block
  /-- the body of a function -/
  | functionBody (isAsync isGenerator : Bool)
  /-- a pattern without type or default -/
  | pattern
  /-- a pattern with its type -/
  | typedPattern
  | type
  /-- a type that no union operator splits -/
  | unaryType
  /-- a type without operators or marks around it -/
  | simpleType
  | class (start : Nat) (isAbstract isDeclare isDeclaration : Bool) (decorators : List Tree)
  | element (inMarkup : Bool)
  deriving Inhabited

/-- A way to read each goal of the grammar. -/
abbrev Grammar := Goal → Parser Tree

end PackageRefs.Script
