/-
# Strings, templates and names with escapes

A string literal is read as a list of code points, so that a surrogate written by an escape can
wait for its partner; only then is it turned into text.  A surrogate without a partner is kept as
U+FFFD followed by its four hexadecimal digits, and then U+FFFD itself is written the same way.
-/
import PackageRefs.Script.Lexer.Numeral
import PackageRefs.Script.Lexer.Trivia

namespace PackageRefs.Script.Lexer

open PackageRefs.Text

/-! ## 1. Code points and text -/

/-- The code point is half of a surrogate pair. -/
def isSurrogate (n : Nat) : Bool := 0xD800 ≤ n && n ≤ 0xDFFF

/-- Joins each pair of surrogates that stand next to each other. -/
def joinSurrogates : List Nat → List Nat
  | a :: b :: r =>
    if 0xD800 ≤ a && a ≤ 0xDBFF && 0xDC00 ≤ b && b ≤ 0xDFFF then
      (0x10000 + (a - 0xD800) * 0x400 + (b - 0xDC00)) :: joinSurrogates r
    else a :: joinSurrogates (b :: r)
  | r => r

/-- Four hexadecimal digits in small letters. -/
def fourHex (n : Nat) : List Char :=
  let digits := Nat.toDigits 16 n
  List.replicate (4 - digits.length) '0' ++ digits

/-- The text of code points, and whether a lone surrogate is among them. -/
def textOfPoints (points : List Nat) : String × Bool :=
  let joined := joinSurrogates points
  if joined.any isSurrogate then
    (String.ofList (joined.flatMap fun n =>
      if isSurrogate n || n == 0xFFFD then '\ufffd' :: fourHex n else [Char.ofNat n]), true)
  else (String.ofList (joined.map Char.ofNat), false)

/-! ## 2. Escapes -/

/-- Reads hexadecimal digits, at most as many as told, and all of them must be there. -/
def readHex : Nat → List Char → Nat → Option (Nat × List Char)
  | 0, r, value => some (value, r)
  | n + 1, c :: r, value =>
    match hexValue c with
    | some v => readHex n r (value * 16 + v)
    | none => none
  | _ + 1, [], _ => none

/-- Reads hexadecimal digits up to a closing brace; the value must be a code point. -/
def readBraced : List Char → Nat → Bool → Option (Nat × List Char)
  | '}' :: r, value, some_ => if some_ && value ≤ 0x10FFFF then some (value, r) else none
  | c :: r, value, _ =>
    match hexValue c with
    | some v => if value * 16 + v ≤ 0x10FFFF then readBraced r (value * 16 + v) true else none
    | none => none
  | [], _, _ => none

/-- A code point after `\u`. -/
def readUnicodeEscape : List Char → Option (Nat × List Char)
  | '{' :: r => readBraced r 0 false
  | r => readHex 4 r 0

/-- Passes over the digits of a broken escape in braces. -/
def skipBroken : List Char → List Char
  | '{' :: r => (match r.dropWhile (fun c => (hexValue c).isSome) with | '}' :: s => s | s => s)
  | c :: r => if (hexValue c).isSome then skipBroken r else c :: r
  | [] => []

/-- What an escape after the backslash stands for; `none` when it is broken. -/
structure Escape where
  points : Option (List Nat)
  rest : List Char

/-- An octal escape of up to three digits and at most 255. -/
def readOctal (first : Nat) (r : List Char) : Nat × List Char :=
  match r with
  | a :: r₁ =>
    match digitValue 8 a with
    | none => (first, r)
    | some x =>
      let two := first * 8 + x
      match r₁ with
      | b :: r₂ =>
        match digitValue 8 b with
        | some y => if first ≤ 3 then (two * 8 + y, r₂) else (two, r₁)
        | none => (two, r₁)
      | [] => (two, r₁)
  | [] => (first, r)

/-- Reads an escape after its backslash; in a template octal escapes are broken. -/
def readEscape (inTemplate : Bool) : List Char → Escape
  | [] => ⟨none, []⟩
  | '\r' :: '\n' :: r => ⟨some [], r⟩
  | c :: r =>
    if isLineBreak c then ⟨some [], r⟩
    else if c == 'n' then ⟨some [10], r⟩
    else if c == 't' then ⟨some [9], r⟩
    else if c == 'r' then ⟨some [13], r⟩
    else if c == 'b' then ⟨some [8], r⟩
    else if c == 'v' then ⟨some [11], r⟩
    else if c == 'f' then ⟨some [12], r⟩
    else if c == 'x' then
      match readHex 2 r 0 with
      | some (n, r) => ⟨some [n], r⟩
      | none => ⟨none, match r with | d :: s => if (hexValue d).isSome then s else r | [] => r⟩
    else if c == 'u' then
      match readUnicodeEscape r with
      | some (n, r) => ⟨some [n], r⟩
      | none => ⟨none, skipBroken r⟩
    else if c == '0' && !(match r with | d :: _ => isAsciiDigit d | [] => false) then ⟨some [0], r⟩
    else if isAsciiDigit c then
      if inTemplate then ⟨none, r⟩
      else if c == '8' || c == '9' then ⟨some [c.toNat], r⟩
      else
        let (n, r) := readOctal (c.toNat - '0'.toNat) r
        ⟨some [n], r⟩
    else ⟨some [c.toNat], r⟩

/-! ## 3. Strings -/

/-- Reads a string after its opening quote; the fuel bounds the number of steps, `seen` holds the
code points read, reversed. -/
def readStringBody (quote : Char) : Nat → List Char → List Nat → List Diagnostic →
    Option (List Nat × List Char × List Diagnostic)
  | 0, _, _, _ => none
  | _ + 1, [], _, _ => none
  | fuel + 1, c :: r, seen, complaints =>
    if c == quote then some (seen.reverse, r, complaints)
    else if c == '\n' || c == '\r' then none
    else if c == '\\' then
      match r with
      | [] => none
      | _ =>
        let escape := readEscape false r
        match escape.points with
        | some points =>
          readStringBody quote fuel escape.rest (points.reverse ++ seen) complaints
        | none => readStringBody quote fuel escape.rest seen (complaints ++ [.invalidEscape])
    else readStringBody quote fuel r (c.toNat :: seen) complaints

/-- The text up to a line break, for a string that is never closed. -/
def dropLine : List Char → List Char := List.dropWhile fun c => !(c == '\n' || c == '\r')

/-- Reads a string literal after its opening quote. -/
def readString (quote : Char) (text : List Char) (pos : Nat) : Lexed :=
  match readStringBody quote (text.length + 1) text [] [] with
  | some (points, rest, complaints) =>
    let used := text.length - rest.length
    let (value, lone) := textOfPoints points
    ⟨.string value lone (String.ofList (text.take (used - 1))), rest, pos + used, complaints⟩
  | none =>
    let rest := dropLine text
    ⟨.broken, rest, pos + (text.length - rest.length), [.unterminatedString]⟩

/-! ## 4. Templates -/

/-- Reads a piece of a template: its raw text reversed, its cooked code points reversed unless an
escape is broken, the rest, and whether the template ends here. -/
def readQuasiBody : Nat → List Char → List Char → Option (List Nat) →
    Option (List Char × Option (List Nat) × List Char × Bool)
  | 0, _, _, _ => none
  | _ + 1, [], _, _ => none
  | _ + 1, '\x60' :: r, raw, cooked => some (raw, cooked, r, true)
  | _ + 1, '$' :: '{' :: r, raw, cooked => some (raw, cooked, r, false)
  | fuel + 1, '\r' :: '\n' :: r, raw, cooked =>
    readQuasiBody fuel r ('\n' :: raw) (cooked.map (10 :: ·))
  | fuel + 1, '\r' :: r, raw, cooked =>
    readQuasiBody fuel r ('\n' :: raw) (cooked.map (10 :: ·))
  | fuel + 1, '\\' :: r, raw, cooked =>
    match r with
    | [] => none
    | _ =>
      let escape := readEscape true r
      let written := (r.take (r.length - escape.rest.length)).filter (· != '\r')
      let raw := written.reverse ++ '\\' :: raw
      match escape.points, cooked with
      | some points, some seen => readQuasiBody fuel escape.rest raw (some (points.reverse ++ seen))
      | _, _ => readQuasiBody fuel escape.rest raw none
  | fuel + 1, c :: r, raw, cooked => readQuasiBody fuel r (c :: raw) (cooked.map (c.toNat :: ·))

/-- Reads a piece of a template after the mark that opens it. -/
def readQuasi (text : List Char) (pos : Nat) : Lexed :=
  match readQuasiBody (text.length + 1) text [] (some []) with
  | some (raw, cooked, rest, isLast) =>
    ⟨.quasi (String.ofList raw.reverse) (cooked.map fun points => (textOfPoints points.reverse).1)
      isLast, rest, pos + (text.length - rest.length), []⟩
  | none => ⟨.broken, [], pos + text.length, [.unterminatedString]⟩

/-! ## 5. Names -/

/-- Reads a name: its characters reversed, the rest, whether it has escapes, and complaints. -/
def readNameBody : Nat → Bool → List Char → List Char → Bool → List Diagnostic →
    List Char × List Char × Bool × List Diagnostic
  | 0, _, r, seen, escaped, complaints => (seen, r, escaped, complaints)
  | _ + 1, _, [], seen, escaped, complaints => (seen, [], escaped, complaints)
  | fuel + 1, first, '\\' :: r, seen, _, complaints =>
    match r with
    | 'u' :: s =>
      match readUnicodeEscape s with
      | some (n, rest) =>
        let c := Char.ofNat n
        if !isSurrogate n && (if first then isNameStart c else isNamePart c) then
          readNameBody fuel false rest (c :: seen) true complaints
        else (seen, rest, true, complaints ++ [.invalidUnicodeEscape])
      | none => (seen, skipBroken s, true, complaints ++ [.invalidUnicodeEscape])
    | _ => (seen, r.drop 1, true, complaints ++ [.invalidUnicodeEscape])
  | fuel + 1, first, c :: r, seen, escaped, complaints =>
    if (if first then isNameStart c else isNamePart c) then
      readNameBody fuel false r (c :: seen) escaped complaints
    else (seen, c :: r, escaped, complaints)

/-- A name that has been read: its spelling without escapes. -/
structure NameRead where
  name : String
  escaped : Bool
  rest : List Char
  stop : Nat
  complaints : List Diagnostic

/-- Reads a name. -/
def readName (text : List Char) (pos : Nat) : NameRead :=
  let (seen, rest, escaped, complaints) := readNameBody (text.length + 1) true text [] false []
  ⟨String.ofList seen.reverse, escaped, rest, pos + (text.length - rest.length), complaints⟩

end PackageRefs.Script.Lexer
