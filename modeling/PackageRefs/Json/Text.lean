/-
# Strings and numbers of JSON

The small parts of a JSON document.  Each reader takes the text at its start and gives what it read
with the text behind it, or nothing if no such part stands there.

A string may name code points that are no characters: halves of pairs.  It is read to its end all
the same, and has no content then.  A number may be too large for a double.
-/
import PackageRefs.Number.Binary64
import PackageRefs.Text.Character

namespace PackageRefs.Json

open PackageRefs.Text PackageRefs.Number

/-! ## 1. White space -/

/-- Space, tab, line feed or carriage return. -/
def isSpace (c : Char) : Bool := c == ' ' || c == '\n' || c == '\t' || c == '\r'

/-- The text after white space. -/
def skipSpace (text : List Char) : List Char := text.dropWhile isSpace

/-! ## 2. Strings -/

/-- The character that an escape of one letter stands for. -/
def shortEscape (c : Char) : Option Char :=
  match c with
  | '"' => some '"'
  | '\\' => some '\\'
  | '/' => some '/'
  | 'b' => some '\x08'
  | 'f' => some '\x0c'
  | 'n' => some '\n'
  | 'r' => some '\r'
  | 't' => some '\t'
  | _ => none

/-- Four hexadecimal digits. -/
def readHex : List Char → Option (Nat × List Char)
  | a :: b :: c :: d :: r =>
    match hexValue a, hexValue b, hexValue c, hexValue d with
    | some a, some b, some c, some d => some (a * 4096 + b * 256 + c * 16 + d, r)
    | _, _, _, _ => none
  | _ => none

/-- A unit of a string: a code point, or the first or second half of a pair. -/
abbrev Unit16 := Nat

/-- The units between the quotes, and the text after the closing quote.  The fuel is the length of
the text. -/
def readUnits : Nat → List Char → Option (List Unit16 × List Char)
  | 0, _ => none
  | _ + 1, [] => none
  | fuel + 1, c :: r =>
    if c == '"' then some ([], r)
    else if c == '\\' then
      match r with
      | 'u' :: digits =>
        match readHex digits with
        | some (n, rest) => (readUnits fuel rest).map fun (units, rest) => (n :: units, rest)
        | none => none
      | e :: rest =>
        match shortEscape e with
        | some x => (readUnits fuel rest).map fun (units, rest) => (x.toNat :: units, rest)
        | none => none
      | [] => none
    else if c.toNat < 32 then none
    else (readUnits fuel r).map fun (units, rest) => (c.toNat :: units, rest)

/-- The number is the first half of a pair. -/
def isHighHalf (n : Nat) : Bool := 0xD800 ≤ n && n ≤ 0xDBFF

/-- The number is the second half of a pair. -/
def isLowHalf (n : Nat) : Bool := 0xDC00 ≤ n && n ≤ 0xDFFF

/-- The characters of units; halves have to come in pairs. -/
def charsOfUnits : List Unit16 → Option (List Char)
  | [] => some []
  | n :: r =>
    if isLowHalf n then none
    else if isHighHalf n then
      match r with
      | m :: rest =>
        if isLowHalf m then
          (charsOfUnits rest).map
            (Char.ofNat (0x10000 + (n - 0xD800) * 1024 + (m - 0xDC00)) :: ·)
        else none
      | [] => none
    else (charsOfUnits r).map (Char.ofNat n :: ·)

/-- A string with its quotes: its characters, if it has a proper content, and the text behind it. -/
def readString : List Char → Option (Option (List Char) × List Char)
  | '"' :: r => (readUnits (r.length + 1) r).map fun (units, rest) => (charsOfUnits units, rest)
  | _ => none

/-! ## 3. Numbers -/

/-- A number as it is written. -/
structure Numeral where
  whole : List Char
  fraction : List Char := []
  exponent : Int := 0
  deriving Inhabited

/-- The digits at the start of a text, and the rest; there has to be one. -/
def readDigits (text : List Char) : Option (List Char × List Char) :=
  match text.takeWhile isAsciiDigit with
  | [] => none
  | digits => some (digits, text.dropWhile isAsciiDigit)

/-- Digits as a whole number. -/
def decimalValue (digits : List Char) : Nat :=
  digits.foldl (fun n c => n * 10 + (c.toNat - '0'.toNat)) 0

/-- The whole part: a zero alone, or digits that do not start with one. -/
def readWhole (text : List Char) : Option (List Char × List Char) :=
  match readDigits text with
  | some (digits, rest) =>
    if digits.head? == some '0' && digits.length != 1 then none else some (digits, rest)
  | none => none

/-- A point and digits, or nothing. -/
def readFraction : List Char → Option (List Char × List Char)
  | '.' :: r => readDigits r
  | text => some ([], text)

/-- The sign at the start of an exponent. -/
def exponentSign : List Char → Bool × List Char
  | '-' :: r => (true, r)
  | '+' :: r => (false, r)
  | text => (false, text)

/-- An exponent, or nothing. -/
def readExponent : List Char → Option (Int × List Char)
  | [] => some (0, [])
  | c :: r =>
    if c == 'e' || c == 'E' then
      let (negative, digits) := exponentSign r
      (readDigits digits).map fun (digits, rest) =>
        let size : Int := decimalValue digits
        (if negative then -size else size, rest)
    else some (0, c :: r)

/-- A number; its sign is passed over. -/
def readNumber (text : List Char) : Option (Numeral × List Char) :=
  match readWhole (if text.head? == some '-' then text.drop 1 else text) with
  | none => none
  | some (whole, text) =>
    match readFraction text with
    | none => none
    | some (fraction, text) =>
      (readExponent text).map fun (exponent, rest) => (⟨whole, fraction, exponent⟩, rest)

/-- The largest number of 64 bits. -/
def largestWord : Nat := 18446744073709551615

/-- The leading digits as far as they fit into 64 bits, and how many are left over. -/
def leadingDigits : Nat → List Char → Nat × Nat
  | n, [] => (n, 0)
  | n, c :: r =>
    let next := n * 10 + (c.toNat - '0'.toNat)
    if next ≤ largestWord then leadingDigits next r else (n, (c :: r).length)

/-- The number is within the range of doubles.  Digits that do not fit into 64 bits count as zeros;
what is left is one multiplication by a power of ten. -/
def Numeral.inRange (x : Numeral) : Bool :=
  let (leading, left) := leadingDigits 0 (x.whole ++ x.fraction)
  let power := x.exponent - x.fraction.length + left
  leading == 0 || power < 0 ||
    (power ≤ 308 &&
      !((Binary64.ofNat leading).mul (Binary64.ofDecimal 1 power)).isInfinite)

end PackageRefs.Json
