/-
# Writing infinities by name

A division whose quotient is infinite, such as `1/0`, and a number too great for a double are the
same value as the global name `Infinity`.  `Tree.restoreInfinity` puts that name, with a minus sign
where it is needed, in the place of every such expression.

**From the leaves to the root.**  The parts of an expression are replaced first, so what counts in a
division are the operands as they stand then: a name that was put in place of an operand is no number
any more, and `1e999/2` becomes `Infinity/2`.

**Types.**  A number that is a type of its own is no expression and stays.
-/
import PackageRefs.Script.Traversal

namespace PackageRefs.Script

open PackageRefs.Number (Binary64)

namespace Tree

/-- The value of a number literal under any number of minus signs. -/
def signedNumber? : Tree → Option Binary64
  | node (.number x) _ _ => some x
  | node (.unary .minus) _ [e] => (signedNumber? e).map Binary64.neg
  | _ => none

/-- The infinite value of an expression that is to be written by name. -/
def infiniteValue? : Tree → Option Binary64
  | node (.number x) _ _ => if x.isInfinite then some x else none
  | node (.binary .div) _ [left, right] =>
    match left.signedNumber?, right.signedNumber? with
    | some x, some y => if (x.div y).isInfinite then some (x.div y) else none
    | _, _ => none
  | _ => none

/-- An infinity by its name. -/
def namedInfinity (span : Span) (negative : Bool) : Tree :=
  let name := node (.identifier "Infinity") span []
  if negative then node (.unary .minus) span [name] else name

/-- The node by name, if its value is infinite. -/
def nameInfinity (t : Tree) : Tree :=
  match t.infiniteValue? with
  | some x => namedInfinity t.span x.isNegative
  | none => t

/-- The node is a type that consists of a number. -/
def isNumberType : Tree → Bool
  | node .literalType _ [node (.number _) _ _] => true
  | _ => false

mutual

/-- The tree with every infinite number or quotient written by name. -/
def restoreInfinity : Tree → Tree
  | node label span parts =>
    if isNumberType (node label span parts) then node label span parts
    else nameInfinity (node label span (restoreInfinityInAll parts))

/-- The trees with every infinite number or quotient written by name. -/
def restoreInfinityInAll : List Tree → List Tree
  | [] => []
  | t :: ts => t.restoreInfinity :: restoreInfinityInAll ts

end

end Tree

end PackageRefs.Script
