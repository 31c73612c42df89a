/-
# The shortest decimal of a double

`Binary64.shortest` gives the fewest decimal digits that read back as the same double, and of
several such decimals the nearest one.

**How.**  The reals that round to `m * 2 ^ e` form an interval whose ends lie half way to the
neighbours and belong to it exactly when `m` is even.  For one digit, two digits, and so on up to
seventeen, the two points of the decimal grid next to the number are tested; the first grid with a
point in the interval wins.  All comparisons are between whole numbers.
-/
import PackageRefs.Number.Binary64

namespace PackageRefs.Number

/-- A decimal `digits * 10 ^ exponent`. -/
structure Decimal where
  digits : Nat
  exponent : Int
  deriving DecidableEq, Inhabited, Repr

namespace Binary64

/-- The interval of reals that round to `m * 2 ^ e`, in units of `2 ^ (e - 2)`. -/
def roundingInterval (m : Nat) (e : Int) : Nat × Nat :=
  let below := if m == leastMantissa && -1074 < e then 1 else 2
  (4 * m - below, 4 * m + 2)

/-- `units * 2 ^ (e - 2)` against `point * 10 ^ k`, multiplied out to whole numbers. -/
def scaled (units : Nat) (e : Int) (point : Nat) (k : Int) : Nat × Nat :=
  let two := e - 2
  let left := units * (if two < 0 then 1 else Nat.pow 2 two.toNat) *
    (if k < 0 then Nat.pow 10 (-k).toNat else 1)
  let right := point * (if k < 0 then 1 else Nat.pow 10 k.toNat) *
    (if two < 0 then Nat.pow 2 (-two).toNat else 1)
  (left, right)

/-- The point `point * 10 ^ k` rounds to `m * 2 ^ e`. -/
def rounds (m : Nat) (e : Int) (point : Nat) (k : Int) : Bool :=
  let (low, high) := roundingInterval m e
  let (lowUnits, atLow) := scaled low e point k
  let (highUnits, atHigh) := scaled high e point k
  if m % 2 == 0 then lowUnits ≤ atLow && atHigh ≤ highUnits
  else lowUnits < atLow && atHigh < highUnits

/-- The point just at or below `m * 2 ^ e` on the grid of multiples of `10 ^ k`. -/
def gridFloor (m : Nat) (e : Int) (k : Int) : Nat :=
  let (value, grid) := scaled (4 * m) e 1 k
  value / grid

/-- The lower grid point is strictly nearer to `m * 2 ^ e` than the next one, or as near and even. -/
def prefersFloor (m : Nat) (e : Int) (k : Int) : Bool :=
  let (value, grid) := scaled (4 * m) e 1 k
  let twice := 2 * (value % grid)
  twice < grid || (twice == grid && (value / grid) % 2 == 0)

/-- The best point of one grid, if it has any that rounds to the number. -/
def gridPoint (m : Nat) (e : Int) (k : Int) : Option Nat :=
  let floor := gridFloor m e k
  match rounds m e floor k && floor != 0, rounds m e (floor + 1) k with
  | true, true => some (if prefersFloor m e k then floor else floor + 1)
  | true, false => some floor
  | false, true => some (floor + 1)
  | false, false => none

/-- Tries grids from coarse to fine; the fuel is the number of grids left. -/
def searchGrids (m : Nat) (e : Int) : Nat → Int → Decimal
  | 0, k => ⟨gridFloor m e k, k⟩
  | fuel + 1, k =>
    match gridPoint m e k with
    | some point => ⟨point, k⟩
    | none => searchGrids m e fuel (k - 1)

/-- The number of decimal digits of a whole number. -/
def digitCount (n : Nat) : Nat := (Nat.toDigits 10 n).length

/-- Takes zeros off the end of the digits; the fuel is their number. -/
def dropZeros : Nat → Decimal → Decimal
  | 0, d => d
  | fuel + 1, d =>
    if d.digits % 10 == 0 && d.digits != 0 then dropZeros fuel ⟨d.digits / 10, d.exponent + 1⟩ else d

/-- The shortest decimal that reads back as the size of the number. -/
def shortest (x : Binary64) : Decimal :=
  match x with
  | .finite _ m e =>
    if m == 0 then ⟨0, 0⟩
    else
      let (num, den) := x.ratio
      let top : Int :=
        if num < den then -(digitCount (den / num) : Int) else (digitCount (num / den) : Int)
      dropZeros 400 (searchGrids m e 20 top)
  | _ => ⟨0, 0⟩

end Binary64

end PackageRefs.Number
