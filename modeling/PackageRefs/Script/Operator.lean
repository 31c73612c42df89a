/-
# Operators

The operators of expressions and assignments, with their spelling and how tightly they bind.

`Precedence` lists the levels from loosest to tightest.  A binary operator's right side must bind
tighter than the operator itself, except for `**` and assignments, which group to the right.
-/

namespace PackageRefs.Script

/-- How tightly a piece of an expression binds, from loosest to tightest. -/
inductive Precedence where
  | lowest | comma | spread | yield | assign | conditional | nullish | logicalOr | logicalAnd
  | bitwiseOr | bitwiseXor | bitwiseAnd | equals | compare | shift | add | multiply
  | exponentiation | prefixed | postfixed | new | call | member
  deriving DecidableEq, Inhabited, Repr

/-- The level as a number. -/
def Precedence.rank (p : Precedence) : Nat := p.ctorIdx

/-- The next looser level. -/
def Precedence.looser : Precedence → Precedence
  | .lowest | .comma => .lowest
  | .spread => .comma
  | .yield => .spread
  | .assign => .yield
  | .conditional => .assign
  | .nullish => .conditional
  | .logicalOr => .nullish
  | .logicalAnd => .logicalOr
  | .bitwiseOr => .logicalAnd
  | .bitwiseXor => .bitwiseOr
  | .bitwiseAnd => .bitwiseXor
  | .equals => .bitwiseAnd
  | .compare => .equals
  | .shift => .compare
  | .add => .shift
  | .multiply => .add
  | .exponentiation => .multiply
  | .prefixed => .exponentiation
  | .postfixed => .prefixed
  | .new => .postfixed
  | .call => .new
  | .member => .call

/-- Operators with two operands that are both evaluated. -/
inductive BinaryOp where
  | eq | ne | strictEq | strictNe | lt | le | gt | ge | shiftLeft | shiftRight | shiftRightZero
  | add | sub | mul | div | rem | pow | bitOr | bitXor | bitAnd | inside | instanceOf
  deriving DecidableEq, Inhabited, Repr

namespace BinaryOp

/-- The operator as written. -/
def text : BinaryOp → String
  | eq => "=="
  | ne => "!="
  | strictEq => "==="
  | strictNe => "!=="
  | lt => "<"
  | le => "<="
  | gt => ">"
  | ge => ">="
  | shiftLeft => "<<"
  | shiftRight => ">>"
  | shiftRightZero => ">>>"
  | add => "+"
  | sub => "-"
  | mul => "*"
  | div => "/"
  | rem => "%"
  | pow => "**"
  | bitOr => "|"
  | bitXor => "^"
  | bitAnd => "&"
  | inside => "in"
  | instanceOf => "instanceof"

/-- All binary operators. -/
def all : List BinaryOp :=
  [eq, ne, strictEq, strictNe, lt, le, gt, ge, shiftLeft, shiftRight, shiftRightZero, add, sub, mul,
    div, rem, pow, bitOr, bitXor, bitAnd, inside, instanceOf]

/-- The operator with the given spelling. -/
def ofText? (s : String) : Option BinaryOp := all.find? (·.text == s)

/-- How tightly the operator binds. -/
def precedence : BinaryOp → Precedence
  | eq | ne | strictEq | strictNe => .equals
  | lt | le | gt | ge | inside | instanceOf => .compare
  | shiftLeft | shiftRight | shiftRightZero => .shift
  | add | sub => .add
  | mul | div | rem => .multiply
  | pow => .exponentiation
  | bitOr => .bitwiseOr
  | bitXor => .bitwiseXor
  | bitAnd => .bitwiseAnd

/-- The operator is written as a word. -/
def isWord : BinaryOp → Bool
  | inside | instanceOf => true
  | _ => false

/-- The operator compares for equality. -/
def isEquality : BinaryOp → Bool
  | eq | ne | strictEq | strictNe => true
  | _ => false

end BinaryOp

/-- Operators whose second operand may stay unevaluated. -/
inductive LogicalOp where
  | or | and | coalesce
  deriving DecidableEq, Inhabited, Repr

namespace LogicalOp

/-- The operator as written. -/
def text : LogicalOp → String
  | or => "||"
  | and => "&&"
  | coalesce => "??"

/-- The operator with the given spelling. -/
def ofText? : String → Option LogicalOp
  | "||" => some or
  | "&&" => some and
  | "??" => some coalesce
  | _ => none

/-- How tightly the operator binds. -/
def precedence : LogicalOp → Precedence
  | or => .logicalOr
  | and => .logicalAnd
  | coalesce => .nullish

end LogicalOp

/-- Operators before one operand. -/
inductive UnaryOp where
  | plus | minus | logicalNot | bitNot | typeOf | voidOf | deleteOf
  deriving DecidableEq, Inhabited, Repr

namespace UnaryOp

/-- The operator as written. -/
def text : UnaryOp → String
  | plus => "+"
  | minus => "-"
  | logicalNot => "!"
  | bitNot => "~"
  | typeOf => "typeof"
  | voidOf => "void"
  | deleteOf => "delete"

/-- The operator with the given spelling. -/
def ofText? : String → Option UnaryOp
  | "+" => some plus
  | "-" => some minus
  | "!" => some logicalNot
  | "~" => some bitNot
  | "typeof" => some typeOf
  | "void" => some voidOf
  | "delete" => some deleteOf
  | _ => none

/-- The operator is written as a word. -/
def isWord : UnaryOp → Bool
  | typeOf | voidOf | deleteOf => true
  | _ => false

end UnaryOp

/-- What an assignment does with the old value of its target. -/
inductive AssignOp where
  | plain
  | binary (op : BinaryOp)
  | logical (op : LogicalOp)
  deriving DecidableEq, Inhabited, Repr

namespace AssignOp

/-- The operator as written. -/
def text : AssignOp → String
  | plain => "="
  | binary op => op.text ++ "="
  | logical op => op.text ++ "="

/-- The operator with the given spelling. -/
def ofText? : String → Option AssignOp
  | "=" => some plain
  | "+=" => some (binary .add)
  | "-=" => some (binary .sub)
  | "*=" => some (binary .mul)
  | "/=" => some (binary .div)
  | "%=" => some (binary .rem)
  | "**=" => some (binary .pow)
  | "<<=" => some (binary .shiftLeft)
  | ">>=" => some (binary .shiftRight)
  | ">>>=" => some (binary .shiftRightZero)
  | "|=" => some (binary .bitOr)
  | "^=" => some (binary .bitXor)
  | "&=" => some (binary .bitAnd)
  | "||=" => some (logical .or)
  | "&&=" => some (logical .and)
  | "??=" => some (logical .coalesce)
  | _ => none

end AssignOp

end PackageRefs.Script
