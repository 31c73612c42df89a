/-
# Classes of characters

Which characters count as white space, which belong to a word, and which may start or continue a
name in source text.  Each class has a quick test for ASCII and a table or a short list beyond it.

The classes differ on purpose:

* `isBlank` is the Unicode property `White_Space`; it holds of U+0085 and not of U+FEFF;
* `isWordChar` is a letter, mark, decimal digit, connecting punctuation or joiner of any script;
* `isNameStart` and `isNamePart` are `ID_Start` and `ID_Continue`, with `$`, `_` and the joiners.

They almost agree beyond ASCII, so `isWordChar` is stated through `isNamePart` and the few code
points on which the two differ.
-/
import PackageRefs.Text.NameTable

namespace PackageRefs.Text

/-! ## 1. Looking up a range -/

/-- Some range of the table, both ends included, holds the number. -/
def inRanges (table : Array (Nat × Nat)) (n : Nat) : Bool :=
  table.any fun range => range.1 ≤ n && n ≤ range.2

/-! ## 2. ASCII -/

/-- A small or capital letter of ASCII. -/
def isAsciiLetter (c : Char) : Bool :=
  ('a' ≤ c && c ≤ 'z') || ('A' ≤ c && c ≤ 'Z')

/-- One of the ten digits of ASCII. -/
def isAsciiDigit (c : Char) : Bool :=
  '0' ≤ c && c ≤ '9'

/-- A letter or a digit of ASCII. -/
def isAsciiAlphanumeric (c : Char) : Bool :=
  isAsciiLetter c || isAsciiDigit c

/-- The value of a hexadecimal digit. -/
def hexValue (c : Char) : Option Nat :=
  if '0' ≤ c && c ≤ '9' then some (c.toNat - '0'.toNat)
  else if 'a' ≤ c && c ≤ 'f' then some (c.toNat - 'a'.toNat + 10)
  else if 'A' ≤ c && c ≤ 'F' then some (c.toNat - 'A'.toNat + 10)
  else none

/-! ## 3. Unicode -/

/-- White space in the sense of the Unicode property `White_Space`. -/
def isBlank (c : Char) : Bool :=
  let n := c.toNat
  (9 ≤ n && n ≤ 13) || n == 32 || n == 133 || n == 160 || n == 5760 ||
    (8192 ≤ n && n ≤ 8202) || n == 8232 || n == 8233 || n == 8239 || n == 8287 || n == 12288

/-- A character that may start a name, apart from `$` and `_`. -/
def isLetter (c : Char) : Bool :=
  if c.toNat < 128 then isAsciiLetter c else inRanges NameTable.starting c.toNat

/-- A character that may start a name. -/
def isNameStart (c : Char) : Bool :=
  isLetter c || c == '$' || c == '_'

/-- A character that may stand in a name after its first. -/
def isNamePart (c : Char) : Bool :=
  if c.toNat < 128 then isAsciiAlphanumeric c || c == '$' || c == '_'
  else isLetter c || inRanges NameTable.continuing c.toNat || c.toNat == 8204 || c.toNat == 8205

/-- Word characters that may not stand in a name: enclosing marks and letters in circles. -/
def wordOnly : Array (Nat × Nat) := #[
  (1160, 1161), (6846, 6846), (8413, 8416), (8418, 8420), (9398, 9449), (11823, 11823),
  (42608, 42610), (127280, 127305), (127312, 127337), (127344, 127369)]

/-- Name characters beyond ASCII that are no word characters: dots, signs and old digits. -/
def nameOnly : Array (Nat × Nat) := #[
  (183, 183), (903, 903), (4969, 4977), (6618, 6618), (8472, 8472), (8494, 8494), (12443, 12444),
  (12539, 12539), (65381, 65381)]

/-- A word character: letter, mark, decimal digit, connecting punctuation or joiner, as Unicode 16
knows them. -/
def isWordChar (c : Char) : Bool :=
  if c.toNat < 128 then isAsciiAlphanumeric c || c == '_'
  else if inRanges nameOnly c.toNat || inRanges NameTable.recent c.toNat then false
  else isNamePart c || inRanges wordOnly c.toNat

/-- The small form of a character, as far as small ASCII letters can come of it: beside the capital
letters of ASCII that is the Kelvin sign. -/
def lowerChar (c : Char) : Char :=
  if 'A' ≤ c && c ≤ 'Z' then Char.ofNat (c.toNat + 32)
  else if c == '\u212a' then 'k'
  else c

end PackageRefs.Text
