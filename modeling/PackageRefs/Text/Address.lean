/-
# Characters in addresses

In an address a character that must not stand for itself is written as its bytes, each with a percent
sign and two hexadecimal digits.  The signs that divide an address into parts are written so only within
a part.
-/
import PackageRefs.Text.Character

namespace PackageRefs.Text.Address

/-- The character stands for itself in any part of an address. -/
def isFree (c : Char) : Bool := isAsciiAlphanumeric c || "-_.!~*'()".contains c

/-- The character divides an address into parts. -/
def isDivider (c : Char) : Bool := ";/?:@&=+$,#".contains c

/-- A byte as it is written in an address. -/
def writtenByte (b : UInt8) : List Char :=
  let digit (n : Nat) := (Nat.digitChar n).toUpper
  ['%', digit (b.toNat / 16), digit (b.toNat % 16)]

/-- The text as an address, or as a part of one. -/
def encoded (isPart : Bool) (text : String) : String :=
  String.ofList (text.toList.flatMap fun c =>
    if isFree c || (!isPart && isDivider c) then [c]
    else c.toString.toUTF8.toList.flatMap writtenByte)

/-- A byte at the start of a text, and what follows it. -/
def readByte? : List Char → Option (UInt8 × List Char)
  | '%' :: a :: b :: r =>
    match hexValue a, hexValue b with
    | some m, some n => some (UInt8.ofNat (16 * m + n), r)
    | _, _ => none
  | _ => none

/-- How many bytes more a character has that begins with this one. -/
def bytesAfter? (b : UInt8) : Option Nat :=
  let n := b.toNat
  if n < 0x80 then some 0
  else if 0xc0 ≤ n && n < 0xe0 then some 1
  else if 0xe0 ≤ n && n < 0xf0 then some 2
  else if 0xf0 ≤ n && n < 0xf8 then some 3
  else none

/-- A number of bytes at the start of a text, and what follows them. -/
def readBytes? : Nat → List Char → Option (List UInt8 × List Char)
  | 0, text => some ([], text)
  | n + 1, text =>
    match readByte? text with
    | some (b, rest) => (readBytes? n rest).map fun (bs, rest) => (b :: bs, rest)
    | none => none

/-- The characters of an address, with the written bytes decoded; the fuel is the length of the text. -/
def decodedChars? (isPart : Bool) : Nat → List Char → Option (List Char)
  | 0, _ => some []
  | _, [] => some []
  | fuel + 1, '%' :: text =>
    match readByte? ('%' :: text) with
    | none => none
    | some (b, rest) =>
      match (bytesAfter? b).bind (readBytes? · rest) with
      | none => none
      | some (bs, rest) =>
        match String.fromUTF8? (ByteArray.mk (b :: bs).toArray) with
        | none => none
        | some s =>
          let chars :=
            if !isPart && s.toList.all isDivider then '%' :: text.take 2 else s.toList
          (decodedChars? isPart fuel rest).map (chars ++ ·)
  | fuel + 1, c :: text => (decodedChars? isPart fuel text).map (c :: ·)

/-- The text of an address, or of a part of one; none if it is no address. -/
def decoded? (isPart : Bool) (text : String) : Option String :=
  (decodedChars? isPart text.length text.toList).map String.ofList

end PackageRefs.Text.Address
