/-
# Writing literals

Numbers are written in the shortest of several forms, and strings with the quotes that need the
fewest escapes, where there is a choice.
-/
import PackageRefs.Number.Decimal
import PackageRefs.Script.Printer.Output

namespace PackageRefs.Script.Printer

open PackageRefs.Number PackageRefs.Text

/-! ## 1. Numbers -/

/-- The decimal digits of a whole number. -/
def decimalDigits (n : Nat) : List Char := Nat.toDigits 10 n

/-- The decimal text of a number that is not negative: positional from `1e-7` to `1e21`, with an
exponent elsewhere. -/
def decimalText (x : Binary64) : List Char :=
  let d := x.shortest
  let digits := decimalDigits d.digits
  let count : Int := digits.length
  let point := count + d.exponent
  if d.digits == 0 then ['0']
  else if count ≤ point && point ≤ 21 then digits ++ List.replicate (point - count).toNat '0'
  else if 0 < point && point ≤ 21 then digits.take point.toNat ++ '.' :: digits.drop point.toNat
  else if -6 < point && point ≤ 0 then '0' :: '.' :: List.replicate (-point).toNat '0' ++ digits
  else
    let exponent := point - 1
    let sign := if exponent < 0 then ['-'] else []
    let mantissa :=
      match digits with
      | [c] => [c]
      | c :: r => c :: '.' :: r
      | [] => []
    mantissa ++ 'e' :: sign ++ decimalDigits exponent.natAbs

/-- The shorter of two texts, the first if they are equally long. -/
def shorter (best other : List Char) : List Char :=
  if other.length < best.length then other else best

/-- A fraction that starts with zeros after its point, with an exponent instead of the zeros. -/
def withoutLeadingZeros : List Char → List Char
  | '.' :: r =>
    let digits := r.dropWhile (· == '0')
    if digits.length == r.length then '.' :: r
    else digits ++ 'e' :: '-' :: decimalDigits r.length
  | text => text

/-- A whole number that ends with zeros, with an exponent instead of the zeros. -/
def withoutTrailingZeros (text : List Char) : List Char :=
  let base := (text.reverse.dropWhile (· == '0')).reverse
  if base.length == text.length || base.isEmpty then text
  else base ++ 'e' :: decimalDigits (text.length - base.length)

/-- A number with a point and an exponent, with the point moved behind the last digit. -/
def withoutPoint (text : List Char) : List Char :=
  let whole := text.takeWhile (· != '.')
  match text.drop whole.length with
  | _ :: r =>
    let fraction := r.takeWhile (· != 'e')
    match r.drop fraction.length with
    | _ :: exponent =>
      let old : Int :=
        match exponent with
        | '-' :: digits => -((String.ofList digits).toNat?.getD 0 : Int)
        | digits => (String.ofList digits).toNat?.getD 0
      let new := old - fraction.length
      let sign := if new < 0 then ['-'] else []
      whole ++ fraction ++ 'e' :: sign ++ decimalDigits new.natAbs
    | [] => text
  | [] => text

/-- The shortest text of a number that is not negative. -/
def numberText (x : Binary64) : List Char :=
  let plain := decimalText x
  let plain :=
    match plain with
    | '0' :: '.' :: r => '.' :: r
    | _ => plain
  match x.toInt? with
  | some n =>
    if n.natAbs < 1000 then decimalDigits n.natAbs
    else
      let hex := '0' :: 'x' :: Nat.toDigits 16 (min n.natAbs (Nat.pow 2 128 - 1))
      if hex.length < plain.length then hex
      else
        let best :=
          if plain.getLast? == some '0' then shorter plain (withoutTrailingZeros plain) else plain
        shorter best (withoutPoint best)
  | none => shorter plain (withoutPoint (shorter plain (withoutLeadingZeros plain)))

/-- Writes a number that is not negative. -/
def natural (x : Binary64) : Print := do
  let text := numberText x
  chars text
  unless text.any (fun c => c == '.' || c == 'e' || c == 'x') do
    mark fun o => { o with numberEnd := some o.length }

/-- Writes a number. -/
def number (x : Binary64) (level : Precedence) : Print := do
  if x.isNaN then word "NaN"
  else if x.isInfinite then
    let compact ← isCompact
    let wrap :=
      (compact && Precedence.multiply.rank ≤ level.rank) ||
        (x.isNegative && Precedence.prefixed.rank ≤ level.rank)
    wrapped wrap do
      if x.isNegative then
        beforeSign .minus
        char '-'
      else beforeName
      raw (if compact then "1/0" else "Infinity")
  else if !x.isNegative then
    beforeName
    natural x
  else if Precedence.prefixed.rank ≤ level.rank then wrapped true (do char '-'; natural x.abs)
  else
    beforeSign .minus
    char '-'
    natural x.abs

/-! ## 2. Strings -/

/-- Four characters as they follow U+FFFD in place of a lone surrogate, and the rest. -/
def surrogateDigits : List Char → Option (List Char × List Char)
  | a :: b :: c :: d :: r => some ([a, b, c, d], r)
  | _ => none

/-- What follows in a string is the end tag of a script. -/
def startsScriptTag (text : List Char) : Bool :=
  "/script".toList.isPrefixOf ((text.take 7).map asciiLower)

/-- A character of a string, escaped where it has to be, given what follows. -/
def escapeChar (quote c : Char) (next : List Char) : List Char :=
  match c with
  | '\x00' => if next.head?.any isAsciiDigit then "\\x00".toList else "\\0".toList
  | '\x07' => "\\x07".toList
  | '\x08' => "\\b".toList
  | '\n' => if quote == '\x60' then ['\n'] else "\\n".toList
  | '\x0b' => "\\v".toList
  | '\x0c' => "\\f".toList
  | '\r' => "\\r".toList
  | '\x1b' => "\\x1B".toList
  | '\\' => "\\\\".toList
  | '$' => if quote == '\x60' && next.head? == some '\x7b' then "\\$".toList else ['$']
  | '<' => if startsScriptTag next then "<\\".toList else ['<']
  | '\u00a0' => "\\xA0".toList
  | '\u2028' => "\\u2028".toList
  | '\u2029' => "\\u2029".toList
  | _ => if c == quote then ['\\', c] else [c]

/-- The characters of a string between its quotes. -/
def escapeText (quote : Char) : List Char → List Char
  | [] => []
  | c :: r => escapeChar quote c r ++ escapeText quote r

/-- The characters of a string that holds lone surrogates; the fuel bounds their number. -/
def escapeLone (quote : Char) : Nat → List Char → List Char
  | fuel + 1, '\ufffd' :: r =>
    match surrogateDigits r with
    | some (digits, rest) =>
      if digits == "fffd".toList then '\ufffd' :: escapeLone quote fuel rest
      else '\\' :: 'u' :: digits ++ escapeLone quote fuel rest
    | none => '\ufffd' :: escapeLone quote fuel r
  | fuel + 1, c :: r => escapeChar quote c r ++ escapeLone quote fuel r
  | _, _ => []

/-- The number of places where a substring of one or two characters occurs. -/
def occurrences (a : Char) (b : Option Char) : List Char → Nat
  | c :: r =>
    (if c == a && (b.isNone || r.head? == b) then 1 else 0) + occurrences a b r
  | [] => 0

/-- The quote that costs the fewest escapes; of equally good ones a back quote, if it is allowed,
and else a double quote. -/
def cheapestQuote (backAllowed : Bool) (text : List Char) : Char :=
  let single := occurrences '\'' none text
  let double := occurrences '"' none text
  let breaks := occurrences '\n' none text
  let back := occurrences '\x60' none text + occurrences '$' (some '\x7b') text
  if backAllowed && back ≤ double + breaks && back ≤ single + breaks then '\x60'
  else if double ≤ single then '"'
  else '\''

/-- Writes a string literal. -/
def string (value : String) (lone backAllowed : Bool) : Print := do
  let text := value.toList
  let quote := if ← isCompact then cheapestQuote backAllowed text else '"'
  char quote
  chars (if lone then escapeLone quote text.length text else escapeText quote text)
  char quote

/-- The quotes of a directive, whose text is kept as it was written. -/
def directiveQuote : List Char → Char
  | '"' :: _ => '\''
  | '\'' :: _ => '"'
  | '\\' :: _ :: r => directiveQuote r
  | _ :: r => directiveQuote r
  | [] => '"'

/-! ## 3. Regular expressions -/

/-- Writes a regular expression, apart from characters that it would make a comment or a tag with. -/
def regex (pattern flags : String) : Print := do
  let o ← get
  match o.text with
  | '/' :: _ => char ' '
  | '<' :: _ => when ("script".toList.isPrefixOf (pattern.toList.map asciiLower)) (char ' ')
  | _ => nothing
  char '/'
  raw pattern
  char '/'
  raw flags
  mark fun o => { o with regexEnd := some o.length }

end PackageRefs.Script.Printer
