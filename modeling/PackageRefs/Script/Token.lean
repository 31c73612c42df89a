/-
# Tokens

The pieces that a script is made of.  A word is a name or a keyword: which of the two it is depends
on the place where it stands, so the reader of the grammar decides.
-/
import PackageRefs.Number.Binary64

namespace PackageRefs.Script

open PackageRefs.Number (Binary64)

/-- What a token is. -/
inductive Lexeme where
  | endOfText
  /-- a broken token; its complaint has been recorded -/
  | broken
  /-- a name or a keyword, its escapes read; `escaped` when it had any -/
  | word (name : String) (escaped : Bool)
  | privateName (name : String)
  | mark (text : String)
  | number (value : Binary64)
  | bigint (digits : String)
  /-- When `lone`, U+FFFD and four hexadecimal digits stand for a lone surrogate. -/
  | string (value : String) (lone : Bool) (raw : String)
  /-- a piece of a template up to `${` or to its end -/
  | quasi (raw : String) (cooked : Option String) (isLast : Bool)
  | regex (pattern flags : String)
  | markupText (text : String)
  deriving DecidableEq, Inhabited, Repr

/-- A token and its place. -/
structure Token where
  lexeme : Lexeme
  start : Nat
  stop : Nat
  /-- A line break stands before the token. -/
  onNewLine : Bool := false
  /-- A comment before the token says that the call it starts has no effect. -/
  afterHarmless : Bool := false
  /-- A comment before the token says that calls of the function it starts have no effect. -/
  afterHarmlessFunction : Bool := false
  deriving Inhabited, Repr

/-- Words that have a meaning of their own in some place of the grammar; they are named by their
spelling in complaints, and other names by the word for a name. -/
def keywords : List String :=
  ["await", "break", "case", "catch", "class", "const", "continue", "debugger", "default", "delete",
    "do", "else", "enum", "export", "extends", "finally", "for", "function", "if", "import", "in",
    "instanceof", "new", "return", "super", "switch", "this", "throw", "try", "typeof", "var",
    "void", "while", "with", "async", "from", "get", "meta", "of", "set", "target", "accessor",
    "source", "defer", "abstract", "as", "asserts", "assert", "any", "boolean", "constructor",
    "declare", "infer", "intrinsic", "is", "keyof", "module", "namespace", "never", "out",
    "readonly", "require", "number", "object", "satisfies", "string", "symbol", "type",
    "undefined", "unique", "using", "unknown", "global", "bigint", "override", "implements",
    "interface", "let", "package", "private", "protected", "public", "static", "yield", "null",
    "true", "false"]

/-- Words that never name a variable. -/
def reservedWords : List String :=
  ["break", "case", "catch", "class", "const", "continue", "debugger", "default", "delete", "do",
    "else", "enum", "export", "extends", "finally", "for", "function", "if", "import", "in",
    "instanceof", "new", "return", "super", "switch", "this", "throw", "try", "typeof", "var",
    "void", "while", "with", "null", "true", "false"]

/-- The word never names a variable. -/
def isReserved (name : String) : Bool := reservedWords.contains name

namespace Lexeme

/-- How a complaint names the token. -/
def describe : Lexeme → String
  | endOfText => "EOF"
  | broken => "Unknown"
  | word name _ => if keywords.contains name then name else "Identifier"
  | privateName _ => "#identifier"
  | mark text => text
  | number _ => "number"
  | bigint _ => "bigint"
  | string .. => "string"
  | quasi _ _ isLast => if isLast then "template" else "$\x7b"
  | regex .. => "/regexp/"
  | markupText _ => "jsx"

end Lexeme

end PackageRefs.Script
