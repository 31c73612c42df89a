/-
# Kinds of values

What kind of value an expression has, where that is known without evaluating it.
-/
import PackageRefs.Script.Constant

namespace PackageRefs.Script

/-- The kind of a value. -/
inductive Kind where
  | undefined | null | bool | number | bigint | string | object
  deriving DecidableEq, Inhabited, Repr

namespace Kind

/-- The value can be converted to a number or a text without running code or failing. -/
def isPlain : Kind → Bool
  | object => false
  | _ => true

/-- The kind of a number that comes out of operands of known kinds. -/
def arithmetic : Option Kind → Option Kind → Option Kind
  | some .bigint, some .bigint => some .bigint
  | some .bigint, _ | _, some .bigint => none
  | some .object, some .object => none
  | some .object, none | none, some .object => none
  | none, none => none
  | _, _ => some .number

end Kind

mutual

/-- The kind of the values that an expression has, if it is known beforehand. -/
def Tree.kind? : Tree → Option Kind
  | .node label _ parts =>
    match label, parts with
    | .null, _ => some .null
    | .bool _, _ => some .bool
    | .number _, _ => some .number
    | .bigint _, _ => some .bigint
    | .string .., _ => some .string
    | .template, _ => some .string
    | .regex .., _ | .array, _ | .object, _ | .function .., _ | .arrow .., _ | .class .., _ =>
      some .object
    | .parenthesized, [e] => e.kind?
    | .unary op, [e] =>
      match op with
      | .voidOf => some .undefined
      | .typeOf => some .string
      | .logicalNot | .deleteOf => some .bool
      | .plus => some .number
      | .minus | .bitNot =>
        match e.kind? with
        | some .bigint => some .bigint
        | some .object | none => none
        | some _ => some .number
    | .binary op, [l, r] =>
      match op with
      | .add =>
        match l.kind?, r.kind? with
        | some .string, _ | _, some .string => some .string
        | some .bigint, some .bigint => some .bigint
        | some .bigint, _ | _, some .bigint | some .object, _ | _, some .object => none
        | some _, some _ => some .number
        | _, _ => none
      | .sub | .mul | .div | .rem | .pow | .bitAnd | .bitOr | .bitXor | .shiftLeft
      | .shiftRight => Kind.arithmetic l.kind? r.kind?
      | .shiftRightZero => some .number
      | _ => some .bool
    | .logical op, [l, r] =>
      match op, l.kind? with
      | .coalesce, some .null | .coalesce, some .undefined => r.kind?
      | .coalesce, known => known
      | _, known => if known == r.kind? then known else none
    | .conditional, [_, yes, no] => if yes.kind? == no.kind? then yes.kind? else none
    | .sequence, first :: rest => lastKind? first.kind? rest
    | .assign .plain, [_, value] => value.kind?
    | .privateIn _, _ => some .bool
    | _, _ => none

/-- The kind of the last of several expressions, given that of the one before them. -/
def lastKind? (before : Option Kind) : List Tree → Option Kind
  | [] => before
  | e :: es => lastKind? e.kind? es

end

/-- The value of the expression can be converted without running code or failing. -/
def Tree.isPlain (t : Tree) : Bool := t.kind?.any Kind.isPlain || t.isTextObject

/-- The expression is a text, or an object that is converted to one. -/
def Tree.isTextLike (t : Tree) : Bool := t.kind? == some .string || t.isTextObject

end PackageRefs.Script
