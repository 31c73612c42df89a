/-
# Coloured text

A terminal shows text in another colour or weight between two escape sequences.  Where colours are
off, text stays as it is.
-/

namespace PackageRefs.Report

/-- A colour or a weight of text. -/
inductive Ink where
  | bold | dimmed | red | green | yellow | blue | cyan | brightBlue
  | boldRed | boldGreen | boldYellow
  deriving DecidableEq, Inhabited, Repr

namespace Ink

/-- What an escape sequence says to turn the ink on. -/
def code : Ink → String
  | bold => "1"
  | dimmed => "2"
  | red => "31"
  | green => "32"
  | yellow => "33"
  | blue => "34"
  | cyan => "36"
  | brightBlue => "94"
  | boldRed => "1;31"
  | boldGreen => "1;32"
  | boldYellow => "1;33"

/-- The sequence that turns the ink on. -/
def opening (ink : Ink) : List Char := "\x1b[".toList ++ ink.code.toList ++ ['m']

/-- The sequence that turns every ink off. -/
def closing : List Char := "\x1b[0m".toList

/-- A text with the ink turned on again wherever the text turns it off.  The number counts the
characters that belong to such a place and are passed over. -/
def reopen (ink : Ink) : Nat → List Char → List Char
  | _, [] => []
  | n + 1, c :: r => c :: (if n == 0 then ink.opening else []) ++ ink.reopen n r
  | 0, c :: r =>
    if closing.isPrefixOf (c :: r) then c :: ink.reopen (closing.length - 1) r
    else c :: ink.reopen 0 r

/-- A text in the ink, if colours are on. -/
def paint (ink : Ink) (colour : Bool) (text : String) : String :=
  if colour then String.ofList (ink.opening ++ ink.reopen 0 text.toList ++ closing) else text

end Ink

end PackageRefs.Report
