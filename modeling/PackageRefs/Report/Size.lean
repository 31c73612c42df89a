/-
# Changes of size

How much smaller or larger a file has become, in bytes and as a percentage of what it was.
-/
import PackageRefs.Number.Fixed

namespace PackageRefs.Report

open PackageRefs.Number

/-- The bytes saved; sizes are numbers of 64 bits. -/
def bytesSaved (before after : Nat) : Int := Int.bmod ((before : Int) - after) 18446744073709551616

/-- A number as a percentage of a size; of an empty file it is nothing. -/
def percentOf (part : Binary64) (whole : Nat) : Binary64 :=
  if whole == 0 then .zero else (part.mul (.ofNat 100)).div (.ofNat whole)

/-- The bytes saved as a percentage of the size before. -/
def percentSaved (before after : Nat) : Binary64 :=
  percentOf (.ofInt (bytesSaved before after)) before

/-- The growth as a percentage of the size before; negative for a file that shrank. -/
def percentChange (before after : Nat) : Binary64 :=
  percentOf ((Binary64.ofNat after).sub (.ofNat before)) before

end PackageRefs.Report
