/-
# Bytes and characters

Files hold bytes and scripts hold characters.  `encode` writes characters as UTF-8; `decode?` reads
them back and refuses bytes that are no UTF-8; `decodeLossy` puts U+FFFD in the place of each longest
stretch that cannot start a character.

All three go character by character over lists, so that `decode? (encode s) = some s` is an
induction.
-/

namespace PackageRefs.Text

/-- What a file holds. -/
abbrev Bytes := List UInt8

/-- The bytes of a character. -/
def encodeChar (c : Char) : Bytes := String.utf8EncodeChar c

/-- The bytes of a text. -/
def encode (s : String) : Bytes := s.toList.flatMap encodeChar

/-! ## 1. One character -/

/-- The number of continuation bytes that a first byte asks for, the bounds of the first of them, and
the value of the first byte's own bits. -/
def leadByte (b : UInt8) : Option (Nat × UInt8 × UInt8 × Nat) :=
  let n := b.toNat
  if 0xC2 ≤ n && n ≤ 0xDF then some (1, 0x80, 0xBF, n - 0xC0)
  else if n == 0xE0 then some (2, 0xA0, 0xBF, 0)
  else if n == 0xED then some (2, 0x80, 0x9F, 13)
  else if 0xE1 ≤ n && n ≤ 0xEF then some (2, 0x80, 0xBF, n - 0xE0)
  else if n == 0xF0 then some (3, 0x90, 0xBF, 0)
  else if n == 0xF4 then some (3, 0x80, 0x8F, 4)
  else if 0xF1 ≤ n && n ≤ 0xF3 then some (3, 0x80, 0xBF, n - 0xF0)
  else none

/-- Reads continuation bytes; the answer is the value if they are all there, and how many were
read. -/
def readContinuation : Nat → UInt8 → UInt8 → Nat → Nat → Bytes → Option Nat × Nat
  | 0, _, _, value, count, _ => (some value, count)
  | _ + 1, _, _, _, count, [] => (none, count)
  | n + 1, low, high, value, count, b :: r =>
    if low ≤ b && b ≤ high then
      readContinuation n 0x80 0xBF (value * 64 + (b.toNat - 0x80)) (count + 1) r
    else (none, count)

/-- Reads the character that starts with a byte: the character, if there is one, and the number of
bytes after the first that belong to it or to its broken start. -/
def readChar (b : UInt8) (r : Bytes) : Option Char × Nat :=
  if b < 0x80 then (some (Char.ofNat b.toNat), 0)
  else
    match leadByte b with
    | none => (none, 0)
    | some (n, low, high, value) =>
      match readContinuation n low high value 0 r with
      | (some v, count) => (some (Char.ofNat v), count)
      | (none, count) => (none, count)

/-! ## 2. Whole texts -/

/-- Reads characters, passing over bytes that belong to the one before; the bytes that start no
character are given as `none`. -/
def decodeFrom : Nat → Bytes → List (Option Char)
  | _, [] => []
  | skip + 1, _ :: r => decodeFrom skip r
  | 0, b :: r =>
    let (c, count) := readChar b r
    c :: decodeFrom count r

/-- The text that the bytes hold, if they are UTF-8. -/
def decode? (bytes : Bytes) : Option String :=
  ((decodeFrom 0 bytes).mapM id).map String.ofList

/-- The text that the bytes hold, with U+FFFD for what is no UTF-8. -/
def decodeLossy (bytes : Bytes) : String :=
  String.ofList ((decodeFrom 0 bytes).map (·.getD '\ufffd'))

end PackageRefs.Text
