/-
# A double with one decimal place

Reports show sizes and percentages with one digit after the point.  The exact value of the double
is rounded, and a tie goes to the even digit.
-/
import PackageRefs.Number.Binary64

namespace PackageRefs.Number.Binary64

/-- The size of a finite number with one digit after the point. -/
def oneDecimalSize (x : Binary64) : String :=
  let tenths := roundQuotient (10 * x.ratio.1) x.ratio.2
  toString (tenths / 10) ++ "." ++ toString (tenths % 10)

/-- The number with one digit after the point, a minus sign where the sign bit is set, and a plus
sign on request elsewhere. -/
def oneDecimal (x : Binary64) (plus : Bool) : String :=
  match x with
  | .nan => "NaN"
  | .infinite s => (if s then "-" else if plus then "+" else "") ++ "inf"
  | .finite s _ _ => (if s then "-" else if plus then "+" else "") ++ oneDecimalSize x

end PackageRefs.Number.Binary64
