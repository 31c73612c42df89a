/-
# White space around a text, and its lines
-/
import PackageRefs.Text.Character

namespace PackageRefs.Text

/-- The text without the white space at its start and at its end. -/
def trimmed (text : List Char) : List Char :=
  ((text.dropWhile isBlank).reverse.dropWhile isBlank).reverse

/-- The text is nothing but white space. -/
def isBlankText (text : String) : Bool := text.toList.all isBlank

/-- The first line; a carriage return right before its line feed belongs to the line's end. -/
def firstLine (text : List Char) : List Char :=
  let line := text.takeWhile (· != '\n')
  if line.length < text.length && line.getLast? == some '\r' then line.dropLast else line

end PackageRefs.Text
