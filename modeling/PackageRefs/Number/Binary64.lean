/-
# Double precision numbers as values

The numbers of a script are IEEE-754 doubles.  Here a double is plain data -- a sign, a whole
mantissa and a power of two -- so every operation is exact arithmetic on `Nat` followed by one
rounding, and all of it can be computed inside a proof.

**The normal form.**  A finite number is `mantissa * 2 ^ exponent` with `mantissa < 2 ^ 53` and
`exponent ≥ -1074`; the mantissa reaches `2 ^ 52` unless the exponent is `-1074`.  `ofRatio` is the
only function that rounds, to nearest with ties to the even mantissa, and it returns this form.
-/

namespace PackageRefs.Number

/-- A double: not a number, an infinity, or `± mantissa * 2 ^ exponent`. -/
inductive Binary64 where
  | nan
  | infinite (negative : Bool)
  | finite (negative : Bool) (mantissa : Nat) (exponent : Int)
  deriving DecidableEq, Inhabited, Repr

namespace Binary64

/-! ## 1. Rounding -/

/-- The least mantissa of a normal number, `2 ^ 52`. -/
def leastMantissa : Nat := 4503599627370496

/-- The quotient rounded to the nearest whole number, a tie going to the even one. -/
def roundQuotient (num den : Nat) : Nat :=
  let floor := num / den
  let twice := 2 * (num % den)
  if twice < den then floor
  else if den < twice then floor + 1
  else if floor % 2 == 0 then floor else floor + 1

/-- The whole `e` with `2 ^ e ≤ num / den < 2 ^ (e + 1)`, for positive numbers. -/
def ratioLog2 (num den : Nat) : Int :=
  let guess : Int := (Nat.log2 num : Int) - (Nat.log2 den : Int)
  let reached : Bool :=
    if guess < 0 then den ≤ num * Nat.pow 2 (-guess).toNat else den * Nat.pow 2 guess.toNat ≤ num
  if reached then guess else guess - 1

/-- A zero of the given sign. -/
def signedZero (negative : Bool) : Binary64 := .finite negative 0 (-1074)

/-- Zero. -/
def zero : Binary64 := signedZero false

/-- The double nearest to `± num / den`. -/
def ofRatio (negative : Bool) (num den : Nat) : Binary64 :=
  if num == 0 then signedZero negative
  else
    let exponent : Int := max (ratioLog2 num den - 52) (-1074)
    let mantissa :=
      if exponent < 0 then roundQuotient (num * Nat.pow 2 (-exponent).toNat) den
      else roundQuotient num (den * Nat.pow 2 exponent.toNat)
    let (mantissa, exponent) :=
      if mantissa == 2 * leastMantissa then (leastMantissa, exponent + 1) else (mantissa, exponent)
    if 971 < exponent then .infinite negative else .finite negative mantissa exponent

/-- A whole number as a double. -/
def ofNat (n : Nat) : Binary64 := ofRatio false n 1

/-- A whole number with a sign as a double. -/
def ofInt (n : Int) : Binary64 := ofRatio (n < 0) n.natAbs 1

/-- `digits * 10 ^ exponent` as a double; far outside the range nothing is multiplied out. -/
def ofDecimal (digits : Nat) (exponent : Int) : Binary64 :=
  let size : Int := exponent + (Nat.log2 digits : Int) / 4
  if digits == 0 then zero
  else if 400 < size then .infinite false
  else if exponent + (Nat.log2 digits : Int) < -2000 then zero
  else if exponent < 0 then ofRatio false digits (Nat.pow 10 (-exponent).toNat)
  else ofRatio false (digits * Nat.pow 10 exponent.toNat) 1

/-! ## 2. Looking inside -/

/-- The size of a finite number as a quotient of whole numbers; infinity and NaN give `0 / 1`. -/
def ratio : Binary64 → Nat × Nat
  | .finite _ m e => if e < 0 then (m, Nat.pow 2 (-e).toNat) else (m * Nat.pow 2 e.toNat, 1)
  | _ => (0, 1)

/-- The number is not a number. -/
def isNaN : Binary64 → Bool
  | .nan => true
  | _ => false

/-- The number is one of the two infinities. -/
def isInfinite : Binary64 → Bool
  | .infinite _ => true
  | _ => false

/-- The number is a zero of either sign. -/
def isZero : Binary64 → Bool
  | .finite _ 0 _ => true
  | _ => false

/-- The sign bit is set. -/
def isNegative : Binary64 → Bool
  | .nan => false
  | .infinite s => s
  | .finite s _ _ => s

/-- The number is finite and whole. -/
def isWhole (x : Binary64) : Bool :=
  match x with
  | .finite .. => x.ratio.1 % x.ratio.2 == 0
  | _ => false

/-- The whole number it is, if it is one. -/
def toInt? (x : Binary64) : Option Int :=
  if x.isWhole then
    let size : Int := (x.ratio.1 / x.ratio.2 : Nat)
    some (if x.isNegative then -size else size)
  else none

/-- The size rounded toward zero, with the sign left out. -/
def truncated (x : Binary64) : Nat := x.ratio.1 / x.ratio.2

/-- The 64 bits of the interchange format. -/
def toBits : Binary64 → UInt64
  | .nan => 0x7ff8000000000000
  | .infinite s => if s then 0xfff0000000000000 else 0x7ff0000000000000
  | .finite s m e =>
    let biased : Nat := if m < leastMantissa then 0 else (e + 1075).toNat
    let sign : Nat := if s then 9223372036854775808 else 0
    UInt64.ofNat (sign + biased * leastMantissa + m % leastMantissa)

/-! ## 3. Arithmetic -/

/-- The number with its sign turned over. -/
def neg : Binary64 → Binary64
  | .nan => .nan
  | .infinite s => .infinite (!s)
  | .finite s m e => .finite (!s) m e

/-- The number without its sign. -/
def abs : Binary64 → Binary64
  | .nan => .nan
  | .infinite _ => .infinite false
  | .finite _ m e => .finite false m e

/-- The sum; a sum of two opposite numbers is positive zero. -/
def add : Binary64 → Binary64 → Binary64
  | .nan, _ => .nan
  | _, .nan => .nan
  | .infinite s, .infinite t => if s == t then .infinite s else .nan
  | .infinite s, _ => .infinite s
  | _, .infinite t => .infinite t
  | x@(.finite s m _), y@(.finite t n _) =>
    if m == 0 && n == 0 then signedZero (s && t)
    else
      let (a, b) := x.ratio
      let (c, d) := y.ratio
      let left : Int := (a * d : Nat)
      let right : Int := (c * b : Nat)
      let sum : Int := (if s then -left else left) + (if t then -right else right)
      ofRatio (sum < 0) sum.natAbs (b * d)

/-- The difference. -/
def sub (x y : Binary64) : Binary64 := add x y.neg

/-- The product. -/
def mul : Binary64 → Binary64 → Binary64
  | .nan, _ => .nan
  | _, .nan => .nan
  | .infinite s, y => if y.isZero then .nan else .infinite (s != y.isNegative)
  | x, .infinite t => if x.isZero then .nan else .infinite (x.isNegative != t)
  | x@(.finite s _ _), y@(.finite t _ _) =>
    ofRatio (s != t) (x.ratio.1 * y.ratio.1) (x.ratio.2 * y.ratio.2)

/-- The quotient; division by a zero gives an infinity, of zero by zero NaN. -/
def div : Binary64 → Binary64 → Binary64
  | .nan, _ => .nan
  | _, .nan => .nan
  | .infinite _, .infinite _ => .nan
  | .infinite s, y => .infinite (s != y.isNegative)
  | x, .infinite t => signedZero (x.isNegative != t)
  | x@(.finite s m _), y@(.finite t n _) =>
    if n == 0 then (if m == 0 then .nan else .infinite (s != t))
    else ofRatio (s != t) (x.ratio.1 * y.ratio.2) (x.ratio.2 * y.ratio.1)

/-- The remainder of division toward zero; it takes the sign of the dividend. -/
def rem : Binary64 → Binary64 → Binary64
  | .nan, _ => .nan
  | _, .nan => .nan
  | .infinite _, _ => .nan
  | x, .infinite _ => x
  | x@(.finite s _ _), y@(.finite _ n _) =>
    if n == 0 then .nan
    else
      let (a, b) := x.ratio
      let (c, d) := y.ratio
      ofRatio s ((a * d) % (c * b)) (b * d)

/-- Order of two numbers, `none` when one of them is NaN. -/
def compare : Binary64 → Binary64 → Option Ordering
  | .nan, _ => none
  | _, .nan => none
  | .infinite s, .infinite t =>
    some (if s == t then .eq else if s then .lt else .gt)
  | .infinite s, _ => some (if s then .lt else .gt)
  | _, .infinite t => some (if t then .gt else .lt)
  | x@(.finite s _ _), y@(.finite t _ _) =>
    let left : Int := (x.ratio.1 * y.ratio.2 : Nat)
    let right : Int := (y.ratio.1 * x.ratio.2 : Nat)
    some (Ord.compare (if s then -left else left) (if t then -right else right))

/-- Equality of numbers: NaN differs from itself, and the two zeros are equal. -/
def equals (x y : Binary64) : Bool := compare x y == some .eq

/-- The number reduced to 32 bits without a sign. -/
def toUInt32 (x : Binary64) : UInt32 :=
  let size := UInt32.ofNat (x.truncated % 4294967296)
  if x.isNegative then 0 - size else size

/-- The number reduced to 32 bits with a sign. -/
def toInt32 (x : Binary64) : Int := Int.bmod x.toUInt32.toNat 4294967296

end Binary64

end PackageRefs.Number
