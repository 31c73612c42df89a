/-
# Numerals

A numeral is decimal, or binary, octal or hexadecimal after `0b`, `0o`, `0x`; a leading zero before
digits makes it octal unless an eight or a nine follows.  Single underscores may separate digits,
and the letter `n` makes a whole number a big integer.
-/
import PackageRefs.Number.Binary64
import PackageRefs.Script.Diagnostic
import PackageRefs.Script.Token
import PackageRefs.Text.Character

namespace PackageRefs.Script.Lexer

open PackageRefs.Text PackageRefs.Number

/-- A token that has been read, with the text after it and the complaints about it. -/
structure Lexed where
  lexeme : Lexeme
  rest : List Char
  stop : Nat
  complaints : List Diagnostic := []
  deriving Inhabited

/-- Digits of a base, separators left out, and the text after them.  The digits are in order. -/
structure DigitRun where
  digits : List Nat
  rest : List Char
  stop : Nat
  complaints : List Diagnostic := []
  deriving Inhabited

/-- The value of a digit in a base. -/
def digitValue (base : Nat) (c : Char) : Option Nat :=
  match hexValue c with
  | some v => if v < base then some v else none
  | none => none

/-- The complaint about a character that cannot continue a numeral. -/
def unexpectedIn : List Char → Diagnostic
  | c :: _ => .invalidCharacter c
  | [] => .unexpectedEnd

/-- Reads digits; `seen` holds those read before, reversed.  An underscore must be followed by a
digit. -/
def readDigits (base : Nat) : List Char → Nat → List Nat → DigitRun
  | '_' :: r, pos, seen =>
    match r with
    | d :: _ =>
      if (digitValue base d).isSome then readDigits base r (pos + 1) seen
      else ⟨seen.reverse, r, pos + 1, [unexpectedIn r]⟩
    | [] => ⟨seen.reverse, r, pos + 1, [unexpectedIn r]⟩
  | c :: r, pos, seen =>
    match digitValue base c with
    | some v => readDigits base r (pos + 1) (v :: seen)
    | none => ⟨seen.reverse, c :: r, pos, []⟩
  | [], pos, seen => ⟨seen.reverse, [], pos, []⟩

/-- The number that digits in a base stand for. -/
def digitsValue (base : Nat) (digits : List Nat) : Nat :=
  digits.foldl (fun n d => n * base + d) 0

/-- Passes over letters that may not follow a numeral. -/
def skipLetters : List Char → Nat → List Char × Nat
  | c :: r, pos => if isNameStart c then skipLetters r (pos + 1) else (c :: r, pos)
  | [], pos => ([], pos)

/-- A numeral must not run into a name or a further digit. -/
def closeNumeral (lexeme : Lexeme) (rest : List Char) (pos : Nat) (complaints : List Diagnostic) :
    Lexed :=
  match rest with
  | c :: r =>
    if isNameStart c || isAsciiDigit c then
      let (rest, pos) := skipLetters r (pos + 1)
      ⟨.broken, rest, pos, complaints ++ [.charactersAfterNumber]⟩
    else ⟨lexeme, rest, pos, complaints⟩
  | [] => ⟨lexeme, rest, pos, complaints⟩

/-- A numeral after `0b`, `0o` or `0x`. -/
def readBased (base : Nat) (rest : List Char) (pos : Nat) : Lexed :=
  match rest with
  | c :: _ =>
    if (digitValue base c).isNone then ⟨.broken, rest, pos, [.invalidCharacter c]⟩
    else
      let run := readDigits base rest pos []
      let value := digitsValue base run.digits
      match run.rest with
      | 'n' :: r => closeNumeral (.bigint (toString value)) r (run.stop + 1) run.complaints
      | _ => closeNumeral (.number (Binary64.ofNat value)) run.rest run.stop run.complaints
  | [] => ⟨.broken, [], pos, [.unexpectedEnd]⟩

/-- The exponent after the letter `e`, and what follows it. -/
def readExponent (rest : List Char) (pos : Nat) :
    Except (List Char × Nat × Diagnostic) (Int × DigitRun) :=
  let (negative, rest, pos) : Bool × List Char × Nat :=
    match rest with
    | '+' :: r => (false, r, pos + 1)
    | '-' :: r => (true, r, pos + 1)
    | _ => (false, rest, pos)
  match rest with
  | c :: _ =>
    if isAsciiDigit c then
      let run := readDigits 10 rest pos []
      let size : Int := digitsValue 10 run.digits
      .ok (if negative then -size else size, run)
    else .error (rest, pos, unexpectedIn rest)
  | [] => .error (rest, pos, unexpectedIn rest)

/-- Ends a decimal numeral from its whole and fractional digits. -/
def finishDecimal (whole fraction : List Nat) (rest : List Char) (pos : Nat)
    (complaints : List Diagnostic) : Lexed :=
  let digits := digitsValue 10 (whole ++ fraction)
  let shift : Int := -(fraction.length : Int)
  match rest with
  | c :: r =>
    if c == 'e' || c == 'E' then
      match readExponent r (pos + 1) with
      | .ok (exponent, run) =>
        closeNumeral (.number (Binary64.ofDecimal digits (shift + exponent))) run.rest run.stop
          (complaints ++ run.complaints)
      | .error (rest, pos, complaint) => ⟨.broken, rest, pos, complaints ++ [complaint]⟩
    else closeNumeral (.number (Binary64.ofDecimal digits shift)) rest pos complaints
  | [] => closeNumeral (.number (Binary64.ofDecimal digits shift)) rest pos complaints

/-- The part of a decimal numeral from its point on. -/
def readFraction (whole : List Nat) (rest : List Char) (pos : Nat) (complaints : List Diagnostic) :
    Lexed :=
  match rest with
  | c :: _ =>
    if isAsciiDigit c then
      let run := readDigits 10 rest pos []
      finishDecimal whole run.digits run.rest run.stop (complaints ++ run.complaints)
    else finishDecimal whole [] rest pos complaints
  | [] => finishDecimal whole [] rest pos complaints

/-- Plain digits without separators. -/
def plainDigits : List Char → List Char × List Char
  | c :: r => if isAsciiDigit c then let (ds, rest) := plainDigits r; (c :: ds, rest) else ([], c :: r)
  | [] => ([], [])

/-- A numeral that begins with a zero before another digit; the zero has been read. -/
def readLegacy (rest : List Char) (pos : Nat) : Lexed :=
  let (digits, rest) := plainDigits rest
  let pos := pos + digits.length
  let values := digits.map fun d => d.toNat - '0'.toNat
  if values.all (· < 8) then
    closeNumeral (.number (Binary64.ofNat (digitsValue 8 values))) rest pos []
  else
    match rest with
    | '.' :: r => readFraction values r (pos + 1) []
    | _ => finishDecimal values [] rest pos []

/-- A numeral; the text begins with a digit. -/
def readNumeral (text : List Char) (pos : Nat) : Lexed :=
  match text with
  | '0' :: 'x' :: r | '0' :: 'X' :: r => readBased 16 r (pos + 2)
  | '0' :: 'o' :: r | '0' :: 'O' :: r => readBased 8 r (pos + 2)
  | '0' :: 'b' :: r | '0' :: 'B' :: r => readBased 2 r (pos + 2)
  | '0' :: 'n' :: r => closeNumeral (.bigint "0") r (pos + 2) []
  | '0' :: '.' :: r => readFraction [0] r (pos + 2) []
  | '0' :: c :: r =>
    if isAsciiDigit c then readLegacy (c :: r) (pos + 1)
    else finishDecimal [0] [] (c :: r) (pos + 1) []
  | _ =>
    let run := readDigits 10 text pos []
    match run.rest with
    | '.' :: r => readFraction run.digits r (run.stop + 1) run.complaints
    | 'n' :: r => closeNumeral (.bigint (toString (digitsValue 10 run.digits))) r (run.stop + 1)
        run.complaints
    | _ => finishDecimal run.digits [] run.rest run.stop run.complaints

end PackageRefs.Script.Lexer
