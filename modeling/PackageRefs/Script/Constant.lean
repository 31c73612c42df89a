/-
# Constant expressions

The values that an expression can have without anything being run, and the operators on them.

`Tree.constant?` is the value of an expression that is built from literals alone; such an expression
has no effects.  `Constant.toTree` writes a value as an expression again.  Numbers follow IEEE-754,
and the conversions between kinds of values are those of the language.
-/
import PackageRefs.Number.Decimal
import PackageRefs.Script.Lexer.Numeral
import PackageRefs.Script.Traversal

namespace PackageRefs.Script

open PackageRefs.Number PackageRefs.Text

/-- A value that is no object. -/
inductive Constant where
  | undefined
  | null
  | bool (value : Bool)
  | number (value : Binary64)
  | bigint (value : Int)
  | string (value : String)
  deriving DecidableEq, Inhabited, Repr

namespace Constant

/-! ## 1. Numbers out of texts -/

/-- White space around a number in a text. -/
def isNumberBlank (c : Char) : Bool := isBlank c && c != '\u0085' || c == '\ufeff'

/-- A text without the white space around it. -/
def withoutBlanks (text : List Char) : List Char :=
  ((text.dropWhile isNumberBlank).reverse.dropWhile isNumberBlank).reverse

/-- The value of a numeral that reaches to the end of the text. -/
def wholeNumeral (read : Lexer.Lexed) : Binary64 :=
  match read.lexeme, read.rest, read.complaints with
  | .number x, [], [] => x
  | _, _, _ => .nan

/-- The value of a decimal numeral without a sign. -/
def decimalNumeral (text : List Char) : Binary64 :=
  let values (ds : List Char) := ds.map fun d => d.toNat - '0'.toNat
  let (whole, rest) := Lexer.plainDigits text
  match rest with
  | '.' :: r =>
    let (fraction, rest) := Lexer.plainDigits r
    if whole.isEmpty && fraction.isEmpty then .nan
    else wholeNumeral (Lexer.finishDecimal (values whole) (values fraction) rest 0 [])
  | _ =>
    if whole.isEmpty then .nan
    else wholeNumeral (Lexer.finishDecimal (values whole) [] rest 0 [])

/-- The value of a decimal numeral or of the word for infinity. -/
def unsignedNumeral (text : List Char) : Binary64 :=
  if text == "Infinity".toList then .infinite false else decimalNumeral text

/-- The number that a text stands for, NaN if it stands for none; an empty text is zero.  White space
around a numeral is not looked through: such a text counts as none. -/
def numberOfText (text : List Char) : Binary64 :=
  if text.contains '_' then .nan
  else
    match text with
    | [] => .zero
    | '0' :: 'x' :: r | '0' :: 'X' :: r => wholeNumeral (Lexer.readBased 16 r 0)
    | '0' :: 'o' :: r | '0' :: 'O' :: r => wholeNumeral (Lexer.readBased 8 r 0)
    | '0' :: 'b' :: r | '0' :: 'B' :: r => wholeNumeral (Lexer.readBased 2 r 0)
    | '-' :: r => (unsignedNumeral r).neg
    | '+' :: r => unsignedNumeral r
    | r => unsignedNumeral r

/-- The value of a digit in a base of at most thirty-six; letters of both sizes are the digits above
nine. -/
def digitIn? (base : Nat) (c : Char) : Option Nat :=
  let value :=
    if c.isDigit then c.toNat - '0'.toNat
    else if c.isLower then c.toNat - 'a'.toNat + 10
    else if c.isUpper then c.toNat - 'A'.toNat + 10
    else base
  if value < base then some value else none

/-- The value of digits in a base, if there are any and all are digits of it. -/
def naturalIn? (base : Nat) (digits : List Char) : Option Nat :=
  if digits.isEmpty then none
  else (digits.mapM (digitIn? base)).map fun ds => ds.foldl (fun n d => n * base + d) 0

/-- The whole number that a text stands for when it is compared with a big integer. -/
def bigOfText? (text : List Char) : Option Int :=
  match withoutBlanks text with
  | [] => some 0
  | '0' :: 'x' :: r | '0' :: 'X' :: r => (naturalIn? 16 r).map Int.ofNat
  | '0' :: 'o' :: r | '0' :: 'O' :: r => (naturalIn? 8 r).map Int.ofNat
  | '0' :: 'b' :: r | '0' :: 'B' :: r => (naturalIn? 2 r).map Int.ofNat
  | '-' :: r => (naturalIn? 10 r).map fun n => -(Int.ofNat n)
  | '+' :: r => (naturalIn? 10 r).map Int.ofNat
  | r => (naturalIn? 10 r).map Int.ofNat

/-! ## 2. Texts out of numbers -/

/-- The text of a positive finite number: positional from `1e-7` to `1e21`, and with an exponent that
has a sign elsewhere. -/
def textOfSize (x : Binary64) : List Char :=
  let d := x.shortest
  let digits := Nat.toDigits 10 d.digits
  let count : Int := digits.length
  let point := count + d.exponent
  if count ≤ point && point ≤ 21 then digits ++ List.replicate (point - count).toNat '0'
  else if 0 < point && point ≤ 21 then digits.take point.toNat ++ '.' :: digits.drop point.toNat
  else if -6 < point && point ≤ 0 then '0' :: '.' :: List.replicate (-point).toNat '0' ++ digits
  else
    let exponent := point - 1
    let fraction := if digits.length ≤ 1 then [] else '.' :: digits.drop 1
    digits.take 1 ++ fraction ++ 'e' :: (if exponent < 0 then '-' else '+') ::
      Nat.toDigits 10 exponent.natAbs

/-- The text of a number. -/
def textOfNumber (x : Binary64) : String :=
  if x.isNaN then "NaN"
  else if x.isZero then "0"
  else
    let size := if x.isInfinite then "Infinity".toList else textOfSize x.abs
    String.ofList (if x.isNegative then '-' :: size else size)

/-! ## 3. Conversions -/

/-- The value as a test. -/
def truth : Constant → Bool
  | undefined | null => false
  | bool b => b
  | number x => !(x.isNaN || x.isZero)
  | bigint n => n != 0
  | string s => !s.isEmpty

/-- The value as a number; a big integer is none. -/
def toNumber : Constant → Binary64
  | undefined => .nan
  | null => .zero
  | bool b => if b then .ofNat 1 else .zero
  | number x => x
  | bigint _ => .nan
  | string s => numberOfText s.toList

/-- The value as a text. -/
def toText : Constant → String
  | undefined => "undefined"
  | null => "null"
  | bool b => if b then "true" else "false"
  | number x => textOfNumber x
  | bigint n => toString n
  | string s => s

/-- The value is a text. -/
def isText : Constant → Bool
  | string _ => true
  | _ => false

/-- The value is a big integer. -/
def isBig : Constant → Bool
  | bigint _ => true
  | _ => false

/-- The value stands for nothing. -/
def isNothing : Constant → Bool
  | undefined | null => true
  | _ => false

/-- The name of the value's kind. -/
def kindName : Constant → String
  | undefined => "undefined"
  | null => "object"
  | bool _ => "boolean"
  | number _ => "number"
  | bigint _ => "bigint"
  | string _ => "string"

/-- The value as an expression. -/
def toTree : Constant → Tree
  | undefined => Tree.undefined
  | null => .make .null []
  | bool b => .ofBool b
  | number x => .ofNumber x
  | bigint n =>
    let size := Tree.make (.bigint (toString n.natAbs)) []
    if n < 0 then .make (.unary .minus) [size] else size
  | string s => .make (.string s false) []

/-! ## 4. Operators -/

/-- The units of sixteen bits of a text. -/
def units (s : String) : List Nat :=
  s.toList.flatMap fun c =>
    let n := c.toNat
    if n < 0x10000 then [n]
    else [0xd800 + (n - 0x10000) / 0x400, 0xdc00 + (n - 0x10000) % 0x400]

/-- The values are equal and of one kind. -/
def strictlyEquals : Constant → Constant → Bool
  | number x, number y => x.equals y
  | x, y => x == y

/-- The order of a whole number and a number, if they have one. -/
def orderOfWhole (n : Int) (x : Binary64) : Option Ordering :=
  if x.isNaN then none
  else if x.isInfinite then some (if x.isNegative then .gt else .lt)
  else
    let (a, b) := x.ratio
    some (compare (n * b) (if x.isNegative then -(a : Int) else a))

/-- The order of two values, if they have one. -/
def order (x y : Constant) : Option Ordering :=
  match x, y with
  | string s, string t => some (compare (units s) (units t))
  | bigint m, bigint n => some (compare m n)
  | string s, bigint n => (bigOfText? s.toList).map fun m => compare m n
  | bigint m, string s => (bigOfText? s.toList).map fun n => compare m n
  | bigint m, y => orderOfWhole m y.toNumber
  | x, bigint n => (orderOfWhole n x.toNumber).map Ordering.swap
  | _, _ => x.toNumber.compare y.toNumber

/-- The values are equal after conversion. -/
def looselyEquals (x y : Constant) : Bool :=
  if x.isNothing || y.isNothing then x.isNothing && y.isNothing
  else order x y == some .eq

/-- A whole power of a number. -/
def power (x : Binary64) (n : Int) : Binary64 :=
  let negative := x.isNegative && n % 2 == 1
  let (a, b) := x.ratio
  if n < 0 then
    if a == 0 then .infinite negative else .ofRatio negative (Nat.pow b n.natAbs) (Nat.pow a n.natAbs)
  else .ofRatio negative (Nat.pow a n.natAbs) (Nat.pow b n.natAbs)

/-- A power, where it can be told exactly: of finite numbers only those with a small whole
exponent. -/
def power? (x y : Binary64) : Option Binary64 :=
  if y.isZero then some (.ofNat 1)
  else if x.isNaN || y.isNaN then some .nan
  else
    match y.toInt? with
    | some n =>
      if x.isInfinite then
        some (if n < 0 then .signedZero (x.isNegative && n % 2 == 1)
          else .infinite (x.isNegative && n % 2 == 1))
      else if n.natAbs ≤ 1100 then some (power x n)
      else none
    | none =>
      if y.isInfinite then
        match x.abs.compare (.ofNat 1) with
        | some .eq => some .nan
        | some .lt => some (if y.isNegative then .infinite false else .zero)
        | _ => some (if y.isNegative then .zero else .infinite false)
      else if x.isZero then some (if y.isNegative then .infinite false else .zero)
      else if x.isInfinite then some (if y.isNegative then .zero else .infinite false)
      else none

/-- The power of two numbers is written in its place: a whole number of a few digits at most, as the
text should not grow. -/
def isShortPower (x : Binary64) : Bool :=
  x.isNaN || x.isInfinite || (x.isWhole && x.compare (.ofNat 10000) != some .gt)

/-- A number of 32 bits with a sign, from one of any size. -/
def wrap (n : Int) : Binary64 := .ofInt (Int.bmod n 4294967296)

/-- The value of an operator between two big integers, where it is computed: that of a sum, and those of
operators on single bits between numbers without a sign. -/
def bigBinary (op : BinaryOp) (m n : Int) : Option Constant :=
  match op with
  | .add => some (bigint (m + n))
  | .bitAnd => if m < 0 || n < 0 then none else some (bigint (m.toNat &&& n.toNat))
  | .bitOr => if m < 0 || n < 0 then none else some (bigint (m.toNat ||| n.toNat))
  | .bitXor => if m < 0 || n < 0 then none else some (bigint (m.toNat ^^^ n.toNat))
  | _ => none

/-- The operator compares its operands or joins texts, so that it can be computed for every value. -/
def takesAnything (op : BinaryOp) (x y : Constant) : Bool :=
  match op with
  | .add => x.isText || y.isText
  | .strictEq | .strictNe | .eq | .ne | .lt | .gt | .le | .ge => true
  | _ => false

/-- The value of an operator between two values. -/
def binary (op : BinaryOp) (x y : Constant) : Option Constant :=
  if (x.isBig || y.isBig) && !takesAnything op x y then
    match x, y with
    | bigint m, bigint n => bigBinary op m n
    | _, _ => none
  else
  let a := x.toNumber
  let b := y.toNumber
  let count := b.toUInt32.toNat % 32
  match op with
  | .add =>
    if x.isText || y.isText then some (string (x.toText ++ y.toText)) else some (number (a.add b))
  | .sub => some (number (a.sub b))
  | .mul => some (number (a.mul b))
  | .div => some (number (a.div b))
  | .rem => some (number (a.rem b))
  | .pow => ((power? a b).filter isShortPower).map number
  | .bitAnd => some (number (wrap (a.toUInt32 &&& b.toUInt32).toNat))
  | .bitOr => some (number (wrap (a.toUInt32 ||| b.toUInt32).toNat))
  | .bitXor => some (number (wrap (a.toUInt32 ^^^ b.toUInt32).toNat))
  | .shiftLeft => some (number (wrap (a.toUInt32.toNat * Nat.pow 2 count)))
  | .shiftRight => some (number (.ofInt (Int.shiftRight a.toInt32 count)))
  | .shiftRightZero => some (number (.ofNat (a.toUInt32.toNat / Nat.pow 2 count)))
  | .eq => some (bool (looselyEquals x y))
  | .ne => some (bool (!looselyEquals x y))
  | .strictEq => some (bool (strictlyEquals x y))
  | .strictNe => some (bool (!strictlyEquals x y))
  | .lt => some (bool (order x y == some .lt))
  | .gt => some (bool (order x y == some .gt))
  | .le => some (bool (order x y == some .lt || order x y == some .eq))
  | .ge => some (bool (order x y == some .gt || order x y == some .eq))
  | .inside | .instanceOf => none

/-- The value of an operator before a value. -/
def unary (op : UnaryOp) (x : Constant) : Option Constant :=
  match op, x with
  | .plus, bigint _ => none
  | .minus, bigint n => some (bigint (-n))
  | .bitNot, bigint n => some (bigint (-n - 1))
  | .plus, _ => some (number x.toNumber)
  | .minus, bool _ | .minus, string _ => none
  | .minus, _ => some (number x.toNumber.neg)
  | .logicalNot, _ => some (bool !x.truth)
  | .bitNot, _ => some (number (.ofInt (-x.toNumber.toInt32 - 1)))
  | .typeOf, _ => some (string x.kindName)
  | .voidOf, _ => some undefined
  | .deleteOf, _ => none

/-- The value of a logical operator whose left side has a value, if the right side decides it; and
whether it does. -/
def decidesLogical (op : LogicalOp) (left : Constant) : Bool :=
  match op with
  | .or => left.truth
  | .and => !left.truth
  | .coalesce => !left.isNothing

end Constant

/-! ## 5. Expressions with a value -/

/-- The value of an expression that is built from literals. -/
def Tree.constant? : Tree → Option Constant
  | .node .null _ _ => some .null
  | .node (.bool b) _ _ => some (.bool b)
  | .node (.number x) _ _ => some (.number x)
  | .node (.bigint digits) _ _ => digits.toNat?.map fun n => .bigint n
  | .node (.string s false) _ _ => some (.string s)
  | .node .template _ [.node (.quasi _ (some text)) _ _] => some (.string text)
  | .node .parenthesized _ [e] => e.constant?
  | .node (.unary op) _ [e] =>
    match e.constant? with
    | some x => x.unary op
    | none => none
  | .node (.binary op) _ [l, r] =>
    match l.constant?, r.constant? with
    | some x, some y => x.binary op y
    | _, _ => none
  | .node (.logical op) _ [l, r] =>
    match l.constant? with
    | some x => if x.decidesLogical op then some x else r.constant?
    | none => none
  | _ => none

/-! ## 6. Objects as plain values -/

/-- The property may decide what the object is converted to. -/
def guidesConversion : Tree → Bool
  | .node (.property false _) _ [key, _] | .node (.propertyMethod _ false) _ [key, _] =>
    match key.label with
    | .propertyName name | .string name _ => name == "toString" || name == "valueOf"
    | _ => true
  | _ => true

/-- The expression is an object whose conversion to a plain value gives a text. -/
def Tree.isTextObject : Tree → Bool
  | .node label _ parts =>
    match label with
    | .array | .regex .. | .function .. | .arrow .. => true
    | .object => !parts.any guidesConversion
    | _ => false

mutual

/-- The text that an expression is converted to, if it is built from literals. -/
def Tree.text? : Tree → Option String
  | .node label span parts =>
    match (Tree.node label span parts).constant? with
    | some c => some c.toText
    | none =>
      match label with
      | .array => (elementTexts? parts).map (",".intercalate ·)
      | .object => if parts.any guidesConversion then none else some "[object Object]"
      | .regex pattern flags => some ("/" ++ pattern ++ "/" ++ flags)
      | _ => none

/-- The texts of the elements of an array; what stands for nothing has none. -/
def elementTexts? : List Tree → Option (List String)
  | [] => some []
  | t :: ts =>
    let text? :=
      if t.label == .elision then some ""
      else
        match t.constant? with
        | some c => some (if c.isNothing then "" else c.toText)
        | none => t.text?
    match text?, elementTexts? ts with
    | some s, some more => some (s :: more)
    | _, _ => none

end

/-- The number that an expression is converted to, if it is built from literals. -/
def Tree.number? : Tree → Option Binary64
  | .node label span parts =>
    match (Tree.node label span parts).constant?, label, parts with
    | some (.bigint _), _, _ => none
    | some c, _, _ => some c.toNumber
    | none, .array, [] => some .zero
    | none, .array, [e] => if e.label == .elision then some .zero else e.number?
    | none, .object, _ => if parts.any guidesConversion then none else some .nan
    | none, .regex .., _ => some .nan
    | none, _, _ => none

end PackageRefs.Script
