/-
# Plain scripts

A class of scripts that can be followed through reading, editing and printing, and through the searches
that put statements into comments.  It is small, and still has what makes the difference there:

* calls of `require` as statements, as initialisers, as arguments, and as bodies of arrow functions, nested
  as deeply as one likes;
* imports for their effect alone;
* line comments, strings and templates, which may hold any text that looks like a statement;
* block comments, which may hold prose, or an import or a variable that somebody has put there.

A script is a list of lines (`Line`), each of them a statement or a comment, and `scriptText` is its text.
Which characters a name, a request, a literal or a comment may have is said by `Line.isPlain`, which can be
computed.

**What is left out.**  Other statements and operators, other layouts, escapes, strings in single quotes, and
characters beyond ASCII.  Nothing is assumed about how a plain script is read or printed: `Proofs/Plain/Script`
and `Proofs/Plain/Printing` prove it, for every dialect.
-/
import PackageRefs.Script.Comment
import PackageRefs.Script.Token

namespace PackageRefs.Plain

open PackageRefs.Script PackageRefs.Text

/-! ## 1. Characters -/

/-- A character that a name may start with. -/
def isNameHead (c : Char) : Bool := isAsciiLetter c || c == '_'

/-- A character of a name. -/
def isNameTail (c : Char) : Bool := isAsciiAlphanumeric c || c == '_'

/-- A character of a request or of a package's name. -/
def isRequestChar (c : Char) : Bool :=
  isAsciiAlphanumeric c || c == '@' || c == '/' || c == '.' || c == '-' || c == '_'

/-- A character of ASCII that can be seen, or a space.  The two that start an escape or a tag of a page are
not among them. -/
def isOrdinary (c : Char) : Bool := ' ' ≤ c && c ≤ '~' && c != '\\' && c != '<'

/-- A word that consists of the characters of names. -/
def isWord (s : String) : Bool :=
  match s.toList with
  | c :: r => isNameHead c && r.all isNameTail
  | [] => false

/-- A word without a meaning of its own. -/
def isName (s : String) : Bool := isWord s && !keywords.contains s

/-- The text that a request, or the name of a package, consists of. -/
def isRequest (s : String) : Bool := s.toList.all isRequestChar

/-! ## 2. Expressions -/

/-- An expression. -/
inductive Expr where
  | name (name : String)
  /-- a call of `require` -/
  | required (request : String)
  /-- a call with one argument -/
  | call (callee : String) (argument : Expr)
  /-- an arrow function without parameters whose body is an expression -/
  | arrow (body : Expr)
  /-- an arrow function that lacks its expression -/
  | hollow
  /-- `void 0` -/
  | nothing
  /-- a string in double quotes -/
  | quoted (text : String)
  /-- a template without parts -/
  | template (text : String)
  deriving DecidableEq, Repr

namespace Expr

/-- The text in double quotes. -/
def inQuotes (text : List Char) : List Char := '"' :: (text ++ ['"'])

/-- What stands before the request in a call of `require`. -/
def requireText : List Char := "require(".toList

/-- What stands before the body of an arrow function. -/
def arrowText : List Char := "() => ".toList

/-- What a call of `require` leaves. -/
def voidText : List Char := "void 0".toList

/-- The text of an expression. -/
def text : Expr → List Char
  | name n => n.toList
  | required request => requireText ++ (inQuotes request.toList ++ [')'])
  | call callee argument => callee.toList ++ '(' :: (argument.text ++ [')'])
  | arrow body => arrowText ++ body.text
  | hollow => arrowText
  | nothing => voidText
  | quoted t => inQuotes t.toList
  | template t => '\x60' :: (t.toList ++ ['\x60'])

/-- No literal is part of the expression, and its names and requests are plain. -/
def isCode : Expr → Bool
  | name n => isName n
  | required request => isRequest request
  | call callee argument => isName callee && argument.isCode
  | arrow body => body.isCode
  | hollow | nothing => true
  | quoted _ | template _ => false

/-- The expression is a string or a template, and its text is plain. -/
def isLiteral : Expr → Bool
  | quoted t => t.toList.all fun c => isOrdinary c && c != '"'
  | template t => t.toList.all fun c => isOrdinary c && c != '\x60' && c != '$'
  | _ => false

/-- An arrow function in the expression lacks its own. -/
def isHollow : Expr → Bool
  | call _ argument => argument.isHollow
  | arrow body => body.isHollow
  | hollow => true
  | _ => false

/-- The requests that are made in an expression. -/
def requests : Expr → List String
  | required request => [request]
  | call _ argument => argument.requests
  | arrow body => body.requests
  | _ => []

end Expr

/-! ## 3. Lines -/

/-- A line: a statement or a comment. -/
inductive Line where
  /-- an import of a module for its effect alone -/
  | imported (request : String)
  /-- a constant and its value -/
  | bound (name : String) (value : Expr)
  /-- an expression as a statement -/
  | run (e : Expr)
  /-- a line comment -/
  | note (text : String)
  /-- a block comment without quotes -/
  | block (text : String)
  /-- a block comment with a text in double quotes -/
  | shelved (front request back : String)
  deriving DecidableEq, Repr

namespace Line

/-- What stands before the request of an import. -/
def importText : List Char := "import ".toList

/-- What stands before the name of a constant. -/
def constText : List Char := "const ".toList

/-- What stands between the name of a constant and its value. -/
def equalsText : List Char := " = ".toList

/-- The text of a line, without its line break. -/
def text : Line → List Char
  | imported request => importText ++ (Expr.inQuotes request.toList ++ [';'])
  | bound name value => constText ++ (name.toList ++ (equalsText ++ (value.text ++ [';'])))
  | run e => e.text ++ [';']
  | note t => '/' :: '/' :: t.toList
  | block t => '/' :: '*' :: (t.toList ++ ['*', '/'])
  | shelved front request back =>
    '/' :: '*' :: (front.toList ++ (Expr.inQuotes request.toList ++ (back.toList ++ ['*', '/'])))

/-- The line is a comment. -/
def isComment : Line → Bool
  | note _ | block _ | shelved .. => true
  | _ => false

/-- The comment starts with no note for a printer. -/
def isUnannotated (text : List Char) : Bool := (annotationName (text.dropWhile isBlank)).isNone

/-- What may stand behind the quotes in a block comment: the end of a statement, and spaces. -/
def isClosing (text : List Char) : Bool :=
  match text.dropWhile (· == ' ') with
  | ';' :: r => r.all (· == ' ')
  | r => r.isEmpty

/-- What may stand around the quotes in a block comment: parentheses, or text that opens none. -/
def isAround (front back : List Char) : Bool :=
  match back with
  | ')' :: r => front.getLast? == some '(' && isClosing r
  | r => !front.contains '(' && isClosing r

/-- The parts of the line are plain. -/
def isPlain : Line → Bool
  | imported request => isRequest request
  | bound name value => isName name && (value.isCode || value.isLiteral)
  | run e => e.isCode
  | note t => t.toList.all isOrdinary && isUnannotated t.toList
  | block t =>
    (t.toList.all fun c => isOrdinary c && c != '*' && c != '"' && c != '\'') &&
      isUnannotated t.toList
  | shelved front request back =>
    (front.toList.all fun c => isOrdinary c && c != '*' && c != '"' && c != '\'') &&
      isUnannotated front.toList && isRequest request && isAround front.toList back.toList

/-- An arrow function in the line lacks its expression. -/
def isHollow : Line → Bool
  | bound _ value => value.isHollow
  | run e => e.isHollow
  | _ => false

/-- The requests that are made in a line. -/
def requests : Line → List String
  | imported request => [request]
  | bound _ value => value.requests
  | run e => e.requests
  | _ => []

end Line

/-- The text of a script. -/
def scriptText (lines : List Line) : List Char := lines.flatMap fun l => l.text ++ ['\n']

end PackageRefs.Plain
