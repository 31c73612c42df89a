/-
# Which texts name a package or a file

A scan over text finds more than references.  `isReference` keeps what can be one: at least two
bytes, none of the characters of code, and, if it starts with a dot, a path made of steps.
-/
import PackageRefs.Text.Character

namespace PackageRefs

open PackageRefs.Text

/-- A character that no reference holds. -/
def isCodeChar (c : Char) : Bool :=
  c == '(' || c == ')' || c == '\x7b' || c == '\x7d' || c == '+' || isBlank c

/-- What is left of a path after all its leading steps `./` and `../`. -/
def afterSteps : List Char → List Char
  | '.' :: '/' :: r => afterSteps r
  | '.' :: '.' :: '/' :: r => afterSteps r
  | text => text

/-- The path starts with a step. -/
def startsWithStep : List Char → Bool
  | '.' :: '/' :: _ => true
  | '.' :: '.' :: '/' :: _ => true
  | _ => false

/-- The path has steps, and behind them something that does not start with a dot. -/
def isRelativePath (text : List Char) : Bool :=
  startsWithStep text &&
    (match afterSteps text with
     | [] => false
     | c :: _ => c != '.')

/-- Three dots stand somewhere in a row. -/
def hasEllipsis : List Char → Bool
  | '.' :: '.' :: '.' :: _ => true
  | _ :: r => hasEllipsis r
  | [] => false

/-- The number of bytes of a text. -/
def byteCount (text : List Char) : Nat := text.foldl (fun n c => n + c.utf8Size) 0

/-- The text can be a reference. -/
def isReferenceText (text : List Char) : Bool :=
  2 ≤ byteCount text && !text.any isCodeChar &&
    !(text.head? == some '.' && !isRelativePath text) &&
    !(text.getLast? == some '/') && !hasEllipsis text

/-- The text can be a reference. -/
def isReference (text : String) : Bool := isReferenceText text.toList

end PackageRefs
