/-
# Methods of constants

What the methods of texts and numbers give, and some functions that every script can call by a global
name, where all operands are constants.

A result is given only where it is sure to be that of the language and where writing it pays: a cut
whose ends lie outside the text or in the wrong order is left alone, and so is a root that is no whole
number.
-/
import PackageRefs.Script.Constant
import PackageRefs.Text.Address
import PackageRefs.Text.LetterCase

namespace PackageRefs.Script.Constant

open PackageRefs.Number PackageRefs.Text

/-! ## 1. Places in texts -/

/-- A number as a place in a text: the fraction goes, and what is no number is the start. -/
def place? (x : Binary64) : Option Int :=
  if x.isNaN then some 0
  else if x.isInfinite then none
  else some (if x.isNegative then -(x.truncated : Int) else x.truncated)

/-- A number as the end of a cut, if it lies in a text of so many bytes. -/
def cut? (length : Nat) (x : Binary64) : Option Nat :=
  if x.isNegative && !x.isZero then none
  else
    match place? x with
    | some n => if n.toNat ≤ length then some n.toNat else none
    | none => none

/-- The part of a text between two places. -/
def between? (whole : String) (args : List Binary64) : Option (List Char) :=
  let length := whole.utf8ByteSize
  let text := whole.toList
  match args with
  | [] => some text
  | [start] => (cut? length start).map text.drop
  | [start, stop] =>
    match cut? length start, cut? length stop with
    | some i, some j => if i ≤ j then some ((text.take j).drop i) else none
    | _, _ => none
  | _ => none

/-- The first place of a text in another, from a place on. -/
def placeOf (needle : List Char) : Nat → List Char → Option Nat
  | pos, [] => if needle.isEmpty then some pos else none
  | pos, c :: r => if needle.isPrefixOf (c :: r) then some pos else placeOf needle (pos + 1) r

/-- The last place of a text in another. -/
def lastPlaceOf (needle : List Char) : Nat → List Char → Option Nat
  | pos, [] => if needle.isEmpty then some pos else none
  | pos, c :: r =>
    (lastPlaceOf needle (pos + 1) r) <|> (if needle.isPrefixOf (c :: r) then some pos else none)

/-- A place as a number; minus one if there is none. -/
def ofPlace (place : Option Nat) : Constant :=
  number (match place with
    | some n => .ofNat n
    | none => .ofInt (-1))

/-- The character at a place in units of sixteen bits. -/
def unitAt? (text : String) (n : Int) : Option Nat :=
  if n < 0 then none else (units text)[n.toNat]?

/-- The text with another in the place of a part, at the first place or everywhere. -/
def replaced (everywhere : Bool) (text needle new : String) : String :=
  if everywhere then text.replace needle new
  else
    match placeOf needle.toList 0 text.toList with
    | some n => String.ofList (text.toList.take n ++ new.toList ++
        text.toList.drop (n + needle.length))
    | none => text

/-! ## 2. Methods -/

/-- The text without the blanks at its start or at its end. -/
def trimmed (atStart atEnd : Bool) (text : String) : Constant :=
  let chars := if atStart then text.toList.dropWhile isBlank else text.toList
  let chars := if atEnd then (chars.reverse.dropWhile isBlank).reverse else chars
  string (String.ofList chars)

/-- The number that an argument stands for; a big integer stands for none. -/
def argument? : Constant → Option Binary64
  | bigint _ => none
  | c => some c.toNumber

/-- The value of a method of a text. -/
def textMethod? (text name : String) (args : List Constant) : Option Constant :=
  match name, args with
  | "toLowerCase", [] => some (string (lowered text))
  | "toUpperCase", [] => some (string (raised text))
  | "trim", [] => some (trimmed true true text)
  | "trimStart", [] => some (trimmed true false text)
  | "trimEnd", [] => some (trimmed false true text)
  | "substring", _ | "slice", _ =>
    (args.mapM argument?).bind fun xs =>
      (between? text xs).map fun cs => string (String.ofList cs)
  | "indexOf", [] | "lastIndexOf", [] => some (ofPlace none)
  | "indexOf", [needle] => some (ofPlace (placeOf needle.toText.toList 0 text.toList))
  | "indexOf", [needle, start] =>
    (argument? start).bind fun x => (place? x).map fun n =>
      ofPlace (placeOf needle.toText.toList n.toNat (text.toList.drop n.toNat))
  | "lastIndexOf", [needle] => some (ofPlace (lastPlaceOf needle.toText.toList 0 text.toList))
  | "lastIndexOf", [needle, stop] =>
    (argument? stop).bind fun x => (place? x).map fun n =>
      let size := needle.toText.length
      ofPlace (lastPlaceOf needle.toText.toList 0 (text.toList.take (n.toNat + size)))
  | "charAt", [] => charAt? .zero
  | "charAt", [x] => (argument? x).bind charAt?
  | "charCodeAt", [] => codeAt? .zero
  | "charCodeAt", [x] => (argument? x).bind codeAt?
  | "startsWith", [string start] => some (bool (start.toList.isPrefixOf text.toList))
  | "replace", [string needle, new] => replace? false needle new.toText
  | "replaceAll", [string needle, new] => replace? true needle new.toText
  | "toString", [] => some (string text)
  | _, _ => none
where
  /-- The character at a place; none outside of the text. -/
  charAt? (x : Binary64) : Option Constant :=
    match place? x with
    | some n =>
      match unitAt? text n with
      | some u => if 0xd800 ≤ u && u < 0xe000 then none else some (string (Char.ofNat u).toString)
      | none => some (string "")
    | none => some (string "")
  /-- The number of the character at a place; outside of the text it is none. -/
  codeAt? (x : Binary64) : Option Constant :=
    match place? x with
    | some n =>
      if n < 0 || 65536 ≤ n then none
      else some (number (match unitAt? text n with
        | some u => .ofNat u
        | none => .nan))
    | none => none
  /-- The text with another in the place of a part; a dollar sign in the other may be a reference. -/
  replace? (everywhere : Bool) (needle new : String) : Option Constant :=
    if new.contains '$' then none
    else some (string (replaced everywhere text needle new))

/-- A digit of a base up to thirty-six. -/
def digitChar (d : Nat) : Char :=
  Char.ofNat (if d < 10 then '0'.toNat + d else 'a'.toNat + (d - 10))

/-- The digits of a number in a base, before those already known; the fuel bounds their number. -/
def digitsIn (base : Nat) : Nat → Nat → List Char → List Char
  | 0, _, known => known
  | fuel + 1, n, known =>
    let known := digitChar (n % base) :: known
    if n < base then known else digitsIn base fuel (n / base) known

/-- A number without a sign or a fraction, in a base; one that is infinite or no number has no digits. -/
def inBase? (x : Binary64) (base : Constant) : Option Constant :=
  match base with
  | number b =>
    match b.toInt?, x.toInt? with
    | some r, n? =>
      if !(2 ≤ r && r ≤ 36) then none
      else if r == 10 || x.isNaN || x.isInfinite then some (string (textOfNumber x))
      else
        match n? with
        | some n =>
          if 0 ≤ n && n < 4294967296 then
            some (string (String.ofList (digitsIn r.toNat 32 n.toNat [])))
          else none
        | none => none
    | none, _ => none
  | _ => none

/-- The value of a method of a constant. -/
def method? (object : Constant) (name : String) (args : List Constant) : Option Constant :=
  match object, name, args with
  | .undefined, _, _ | .null, _, _ => none
  | string text, _, _ => textMethod? text name args
  | c, "toString", [] => some (string c.toText)
  | number x, "toString", [base] => inBase? x base
  | _, _, _ => none

/-! ## 3. Numbers -/

/-- The greatest whole number that is not greater. -/
def floorOf (x : Binary64) : Binary64 :=
  if x.isNaN || x.isInfinite || x.isWhole then x
  else if x.isNegative then .ofInt (-(x.truncated : Int) - 1)
  else .ofNat x.truncated

/-- The number without its fraction. -/
def truncatedOf (x : Binary64) : Binary64 :=
  if x.isNaN || x.isInfinite || x.isWhole then x
  else if x.isNegative then (Binary64.ofNat x.truncated).neg
  else .ofNat x.truncated

/-- The smallest whole number that is not smaller. -/
def ceilingOf (x : Binary64) : Binary64 := (floorOf x.neg).neg

/-- The nearest whole number.  Of two, and where the fraction differs from one half by less than the
distance between one and the next number, it is the greater one. -/
def nearestOf (x : Binary64) : Binary64 :=
  if x.isNaN || x.isInfinite || x.isWhole then x
  else
    let (a, b) := x.ratio
    let distance := (2 * ((a % b : Nat) : Int) - b).natAbs
    if distance * Nat.pow 2 51 < b then ceilingOf x
    else
      let size := (2 * a + b) / (2 * b)
      if x.isNegative then (Binary64.ofNat size).neg else .ofNat size

/-- The nearest number of single width, of two the even one, if the number is whole or none. -/
def narrowOf? (x : Binary64) : Option Binary64 :=
  if x.isNaN || x.isInfinite then some x
  else if !x.isWhole then none
  else
    let size := x.truncated
    let unit := Nat.pow 2 (size.log2 - 23)
    let down := size / unit
    let rest := size % unit
    let up := unit < 2 * rest || (unit == 2 * rest && down % 2 == 1)
    let rounded := (if up then down + 1 else down) * unit
    let narrow : Binary64 := if Nat.pow 2 128 ≤ rounded then .infinite false else .ofNat rounded
    some (if x.isNegative then narrow.neg else narrow)

/-- The sign of a number as a number. -/
def signOf (x : Binary64) : Binary64 :=
  if x.isNaN || x.isZero then x else .ofInt (if x.isNegative then -1 else 1)

/-- The square root, if it is a whole number or known without computing it. -/
def rootOf? (x : Binary64) : Option Binary64 :=
  if x.isNaN || x.isZero then some x
  else if x.isNegative then some .nan
  else if x.isInfinite then some x
  else
    match x.toInt? with
    | some n =>
      let r := Nat.sqrt n.toNat
      if r * r == n.toNat then some (.ofNat r) else none
    | none => none

/-- The cube root, if it is a whole number or known without computing it. -/
def cubeRootOf? (x : Binary64) : Option Binary64 :=
  if x.isNaN || x.isZero then some x
  else if x.isNegative then some .nan
  else if x.isInfinite then some x
  else
    match x.toInt? with
    | some n =>
      -- the root of a number below 2 ^ 60 is below 2 ^ 20
      let r := (List.range 20).foldr (fun bit r =>
        let next := r + Nat.pow 2 bit
        if next * next * next ≤ n.toNat then next else r) 0
      if r * r * r == n.toNat then some (.ofNat r) else none
    | none => none

/-- The number of zeros before the first bit that is set, of thirty-two. -/
def leadingZeros (x : Binary64) : Nat :=
  let n := x.toUInt32.toNat
  if n == 0 then 32 else 31 - n.log2

/-- The smaller or the greater of two numbers. -/
def extremeOf (greatest : Bool) (x y : Binary64) : Binary64 :=
  if x.isNaN || y.isNaN then .nan
  else
    match x.compare y with
    | some .lt => if greatest then y else x
    | some .gt => if greatest then x else y
    | _ => if x.isNegative == greatest then y else x

/-- The value of a mathematical function. -/
def mathematical? (name : String) (args : List Binary64) : Option Binary64 :=
  match name, args with
  | "abs", [x] => some x.abs
  | "ceil", [x] => some (ceilingOf x)
  | "floor", [x] => some (floorOf x)
  | "round", [x] => some (nearestOf x)
  | "trunc", [x] => some (truncatedOf x)
  | "sign", [x] => some (signOf x)
  | "sqrt", [x] => rootOf? x
  | "cbrt", [x] => cubeRootOf? x
  | "clz32", [x] => some (.ofNat (leadingZeros x))
  | "fround", [x] => narrowOf? x
  | "imul", [x, y] => some (wrap (x.toInt32 * y.toInt32))
  | "min", xs => some (xs.foldl (extremeOf false) (.infinite false))
  | "max", xs => some (xs.foldl (extremeOf true) (.infinite true))
  | _, _ => none

/-- The number is whole, and so small that the next one is another number. -/
def isSafe (x : Binary64) : Bool :=
  x.isWhole && x.abs.compare (.ofNat 9007199254740991) != some .gt

/-- The value of a function that a global name holds as a property. -/
def globalMethod? (space name : String) (args : List Constant) : Option Constant :=
  match space, name, args with
  | "Math", _, _ => ((args.mapM argument?).bind (mathematical? name)).map number
  | "Number", "isFinite", [number x] => some (bool !(x.isNaN || x.isInfinite))
  | "Number", "isNaN", [number x] => some (bool x.isNaN)
  | "Number", "isInteger", [number x] => some (bool x.isWhole)
  | "Number", "isSafeInteger", [number x] => some (bool (isSafe x))
  | "String", "fromCharCode", _ =>
    (args.mapM fun c => (argument? c).bind fun x =>
      let n := x.toUInt32.toNat % 65536
      if 0xd800 ≤ n && n < 0xe000 then none else some (Char.ofNat n)).map fun cs =>
        string (String.ofList cs)
  | _, _, _ => none

/-! ## 4. Numbers at the start of a text -/

/-- The longest start of a text that is a decimal numeral. -/
def decimalStart (text : List Char) : List Char :=
  let whole := text.takeWhile Char.isDigit
  let rest := text.drop whole.length
  let fraction :=
    match rest with
    | '.' :: r => '.' :: r.takeWhile Char.isDigit
    | _ => []
  let fraction := if whole.isEmpty && fraction.length ≤ 1 then [] else fraction
  let exponent :=
    match rest.drop fraction.length with
    | e :: r =>
      let sign := r.takeWhile fun c => c == '+' || c == '-'
      let digits := (r.drop sign.length).takeWhile Char.isDigit
      if (e == 'e' || e == 'E') && sign.length ≤ 1 && !digits.isEmpty then e :: sign ++ digits
      else []
    | [] => []
  if whole.isEmpty && fraction.isEmpty then [] else whole ++ fraction ++ exponent

/-- A text without the blanks and the sign at its start, and whether that is a minus sign. -/
def withoutSign (text : List Char) : Bool × List Char :=
  match text.dropWhile isNumberBlank with
  | '-' :: r => (true, r)
  | '+' :: r => (false, r)
  | r => (false, r)

/-- The number at the start of a text. -/
def numberAtStart (text : List Char) : Binary64 :=
  let (negative, rest) := withoutSign text
  let size :=
    if "Infinity".toList.isPrefixOf rest then .infinite false else decimalNumeral (decimalStart rest)
  if negative then size.neg else size

/-- The bases in which the language asks for the exact value of digits. -/
def exactBases : List Nat := [2, 4, 8, 10, 16, 32]

/-- The whole number at the start of a text, in a base; none if it is too great to be exact, or if its
value in the base is left open. -/
def wholeAtStart? (text : List Char) (base : Nat) : Option Binary64 :=
  let (negative, rest) := withoutSign text
  let (base, rest) :=
    match rest with
    | '0' :: 'x' :: r | '0' :: 'X' :: r => if base == 0 || base == 16 then (16, r) else (base, rest)
    | _ => (if base == 0 then 10 else base, rest)
  let digits := (rest.takeWhile fun c => (digitIn? base c).isSome).filterMap (digitIn? base)
  let size := digits.foldl (fun n d => n * base + d) 0
  if base < 2 || 36 < base then some .nan
  else if !exactBases.contains base || 9007199254740992 ≤ size then none
  else if digits.isEmpty then some .nan
  else some (if negative then (Binary64.ofNat size).neg else .ofNat size)

/-- The value of a function that is called by a global name. -/
def globalFunction? (name : String) (args : List Constant) : Option Constant :=
  match name, args with
  | "isNaN", [] => some (bool true)
  | "isFinite", [] => some (bool false)
  | "parseFloat", [] | "parseInt", [] => some (number .nan)
  | "encodeURI", [] | "encodeURIComponent", [] | "decodeURI", [] | "decodeURIComponent", [] =>
    some (string "undefined")
  | "encodeURI", [c] => some (string (Address.encoded false c.toText))
  | "encodeURIComponent", [c] => some (string (Address.encoded true c.toText))
  | "decodeURI", [c] => (Address.decoded? false c.toText).map string
  | "decodeURIComponent", [c] => (Address.decoded? true c.toText).map string
  | "isNaN", [c] => (argument? c).map fun x => bool x.isNaN
  | "isFinite", [c] => (argument? c).map fun x => bool !(x.isNaN || x.isInfinite)
  | "parseFloat", [c] => some (number (numberAtStart c.toText.toList))
  | "parseInt", [c] => (wholeAtStart? c.toText.toList 0).map number
  | "parseInt", [c, base] =>
    (argument? base).bind fun x =>
      if x.toInt32 < 0 then some (number .nan)
      else (wholeAtStart? c.toText.toList x.toInt32.toNat).map number
  | "String", [] => some (string "")
  | "String", [c] => some (string c.toText)
  | "Number", [] => some (number .zero)
  | "Number", [c] => (argument? c).map number
  | "Boolean", [] => some (bool false)
  | "BigInt", [bigint n] => some (bigint n)
  | _, _ => none

end PackageRefs.Script.Constant
