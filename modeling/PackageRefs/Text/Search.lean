/-
# Searching a text from left to right

A `Finder` says whether something it looks for starts at a place, and how long it is.  `segments`
walks over a text once: where the finder finds something, that stretch becomes one piece and the
walk goes on behind it; every other character is a piece of its own.

So the pieces put together are the text, no two finds overlap, and of two finds that would overlap
the one that starts first is taken.
-/
import PackageRefs.Text.Character

namespace PackageRefs.Text

/-! ## 1. Pieces of a text -/

/-- What starts at a place, given the character before it and the text from there on: a value, and
the number of characters. -/
abbrev Finder (α : Type) := Option Char → List Char → Option (α × Nat)

/-- A piece of a text that has been searched. -/
inductive Segment (α : Type) where
  | kept (c : Char)
  | found (value : α) (text : List Char)
  deriving Repr

namespace Segment

/-- The text that the piece covers. -/
def text {α : Type} : Segment α → List Char
  | kept c => [c]
  | found _ t => t

/-- The value that was found. -/
def value? {α : Type} : Segment α → Option α
  | kept _ => none
  | found a _ => some a

/-- The piece is a find. -/
def isFound {α : Type} (s : Segment α) : Bool := s.value?.isSome

end Segment

/-- The pieces of a text.  The number counts the characters that belong to the last find and are
passed over; an empty find counts only if the whole text is empty. -/
def segmentsFrom {α : Type} (find : Finder α) : Option Char → Nat → List Char → List (Segment α)
  | none, _, [] => ((find none []).map fun (a, _) => Segment.found a []).toList
  | some _, _, [] => []
  | _, skip + 1, c :: r => segmentsFrom find (some c) skip r
  | before, 0, c :: r =>
    match find before (c :: r) with
    | some (a, n) => .found a ((c :: r).take n) :: segmentsFrom find (some c) (n - 1) r
    | none => .kept c :: segmentsFrom find (some c) 0 r

/-- The pieces of a whole text. -/
def segments {α : Type} (find : Finder α) (text : List Char) : List (Segment α) :=
  segmentsFrom find none 0 text

/-- Everything that the finder finds, from left to right. -/
def findAll {α : Type} (find : Finder α) (text : List Char) : List α :=
  (segments find text).filterMap Segment.value?

/-- The number of finds. -/
def countFound {α : Type} (pieces : List (Segment α)) : Nat := pieces.countP Segment.isFound

/-! ## 2. Phrases to look for -/

/-- The text after a phrase that it starts with. -/
def after? (phrase : String) (text : List Char) : Option (List Char) :=
  if phrase.toList.isPrefixOf text then some (text.drop phrase.toList.length) else none

/-- The text after the white space that it starts with. -/
def afterBlanks (text : List Char) : List Char := text.dropWhile isBlank

/-- The text after spaces and tabs. -/
def afterSpaces (text : List Char) : List Char := text.dropWhile fun c => c == ' ' || c == '\t'

/-- A word that starts here is not the end of a longer one. -/
def startsWord (before : Option Char) : Bool := !before.any isWordChar

/-- The place is the start of a line. -/
def startsLine (before : Option Char) : Bool := before.all (· == '\n')

/-- A find from the text after it. -/
def upTo {α : Type} (value : α) (text rest : List Char) : α × Nat :=
  (value, text.length - rest.length)

/-- A single or a double quote. -/
def isQuote (c : Char) : Bool := c == '"' || c == '\''

/-- A character that may stand between quotes. -/
def isUnquoted (c : Char) : Bool := !isQuote c && c != '\n'

/-- Looks for a phrase behind some of the characters that satisfy a condition, behind as many as
possible; then passes over all further such characters, and over one that closes.  The number is
that of the characters still to be tried. -/
def enclosing? (inside close : Char → Bool) (phrase text : List Char) : Nat → Option (List Char)
  | 0 => closing? text
  | n + 1 =>
    match closing? (text.drop (n + 1)) with
    | some rest => some rest
    | none => enclosing? inside close phrase text n
where
  /-- The phrase stands here and is closed behind it. -/
  closing? (here : List Char) : Option (List Char) :=
    if phrase.isPrefixOf here then
      match (here.drop phrase.length).dropWhile inside with
      | c :: rest => if close c then some rest else none
      | [] => none
    else none

/-- Looks for a phrase up to a closing character, with only characters of one kind around it. -/
def around? (inside close : Char → Bool) (phrase text : List Char) : Option (List Char) :=
  enclosing? inside close phrase text (text.takeWhile inside).length

/-- The text after a string in quotes that holds the phrase. -/
def quoted? (phrase : List Char) : List Char → Option (List Char)
  | c :: r => if isQuote c then around? isUnquoted isQuote phrase r else none
  | [] => none

end PackageRefs.Text
