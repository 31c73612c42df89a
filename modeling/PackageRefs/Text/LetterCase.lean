/-
# Texts in capital and in small letters

`lowered` and `raised` change the case of every letter of a text.  A letter may become several: the
capital of `ß` is `SS`.  The small letter of a sigma depends on its place: it has another form at the end
of a word.
-/
import PackageRefs.Text.CaseTable

namespace PackageRefs.Text

/-- What a run of letters that are mapped alike maps a code point to. -/
def CaseTable.Run.target? (run : CaseTable.Run) (n : Nat) : Option Char :=
  let (first, last, step, distance) := run
  if first ≤ n && n ≤ last && (n - first) % step == 0 then
    some (Char.ofNat (n + distance : Int).toNat)
  else none

/-- What a table of runs maps a character to; itself if it is in none. -/
def mappedBy (runs : Array CaseTable.Run) (c : Char) : Char :=
  (runs.findSome? (CaseTable.Run.target? · c.toNat)).getD c

/-- The small letter of a letter by itself. -/
def lowerChars (c : Char) : List Char :=
  if c.toNat < 128 then [c.toLower]
  else if c == '\u0130' then ['i', '\u0307']
  else [mappedBy CaseTable.capitals c]

/-- The capital letter of a letter. -/
def upperChars (c : Char) : List Char :=
  if c.toNat < 128 then [c.toUpper]
  else
    match CaseTable.longCapitals.find? (·.1 == c.toNat) with
    | some (_, more) => more.map Char.ofNat
    | none => [mappedBy CaseTable.smalls c]

/-- The character is a letter that has a case. -/
def isCased (c : Char) : Bool := lowerChars c != [c] || upperChars c != [c]

/-- The character neither ends a word nor is a letter of one: an apostrophe, a dot or an accent. -/
def isBetweenLetters (c : Char) : Bool :=
  let n := c.toNat
  c == '\'' || c == '.' || c == ':' || c == '^' || c == '\x60' || n == 0xa8 || n == 0xad || n == 0xaf ||
    n == 0xb4 || n == 0xb7 || n == 0xb8 || (0x2b0 ≤ n && n ≤ 0x36f) || n == 0x2019

/-- The next character that is no mere mark is a letter. -/
def meetsLetter (chars : List Char) : Bool :=
  match chars.dropWhile isBetweenLetters with
  | c :: _ => isCased c
  | [] => false

/-- Small letters for characters, given those before them with the nearest first. -/
def lowerAll (before : List Char) : List Char → List Char
  | [] => []
  | c :: r =>
    let small :=
      if c == '\u03a3' && meetsLetter before && !meetsLetter r then ['\u03c2'] else lowerChars c
    small ++ lowerAll (c :: before) r

/-- The text in small letters. -/
def lowered (s : String) : String := String.ofList (lowerAll [] s.toList)

/-- The text in capital letters. -/
def raised (s : String) : String := String.ofList (s.toList.flatMap upperChars)

end PackageRefs.Text
