/-
# Marks

The punctuation of a script.  The longest mark wins, with three exceptions: `>` is always read
alone, because in a type it closes a list; `?.` before a digit is a question mark; and a slash is
read as a division, since only the grammar knows where a regular expression may start.
-/
import PackageRefs.Text.Character

namespace PackageRefs.Script.Lexer

open PackageRefs.Text

/-- All marks but the single `?.`, each before its own beginnings. -/
def marks : List String :=
  ["(", ")", "[", "]", ";", ",", ":", "~", "@", "\x7b", "\x7d",
    "...", ".",
    "===", "=>", "==", "=",
    "!==", "!=", "!",
    "+=", "++", "+",
    "-=", "--", "-",
    "**=", "**", "*=", "*",
    "/=", "/",
    "%=", "%",
    "<<=", "<<", "<=", "<",
    ">",
    "&&=", "&&", "&=", "&",
    "||=", "||", "|=", "|",
    "^=", "^",
    "??=", "??", "?"]

/-- The mark at the start of the text. -/
def readMark (text : List Char) : Option String :=
  match text with
  | '?' :: '.' :: c :: _ => if isAsciiDigit c then some "?" else some "?."
  | ['?', '.'] => some "?."
  | _ => marks.find? fun mark => mark.toList.isPrefixOf text

/-- The marks that start with `>`, read where the grammar wants an operator. -/
def readRightMark (text : List Char) : Option String :=
  [">>>=", ">>>", ">>=", ">>", ">=", ">"].find? fun mark => mark.toList.isPrefixOf text

end PackageRefs.Script.Lexer
