/-
# Shorter operations

The rules for operators and assignments whose operands are short already.

**Folding.**  An operator between constants is replaced by its value.  Differences are folded only
between whole numbers of moderate size, products, quotients and remainders only where an operand is
zero, infinite or not a number, and shifts only where the result is not longer than the shift; for
elsewhere the value is likely to be the longer text.
-/
import PackageRefs.Script.Compress.Template

namespace PackageRefs.Script.Compress

open PackageRefs.Number

/-! ## 1. Operators before an operand -/

/-- The node is written in its shortest form already: `void 0`, `!0` or `!1`. -/
def isShortConstant (op : UnaryOp) (e : Tree) : Bool :=
  match op, e.label with
  | .voidOf, .number x => x == .zero
  | .logicalNot, .number x => x.isZero || x == .ofNat 1
  | _, _ => false

/-- What `typeof` gives for an expression, if it is known and nothing else happens. -/
def kindWord? (names : Names) (e : Tree) : Option String :=
  if e.acts names then none
  else
    match e.label with
    | .function .. | .arrow .. | .class .. => some "function"
    | .array | .object => some "object"
    | _ =>
      match e.kind? with
      | some .undefined => some "undefined"
      | some .null => some "object"
      | some .bool => some "boolean"
      | some .number => some "number"
      | some .bigint => some "bigint"
      | some .string => some "string"
      | _ => none

/-- The number that an expression without effects is converted to. -/
def quietNumber? (names : Names) (e : Tree) : Option Binary64 :=
  match e.number? with
  | some x => if e.acts names then none else some x
  | none => none

/-- An operator before an operand. -/
def foldUnary (names : Names) (op : UnaryOp) (span : Span) (e : Tree) : Tree :=
  let whole := Tree.node (.unary op) span [e]
  if isShortConstant op e then whole
  else
    match whole.constant? with
    | some c => c.toTree
    | none =>
      match op with
      | .voidOf => if e.acts names then whole else Tree.undefined
      | .typeOf =>
        match kindWord? names e with
        | some word => (Constant.string word).toTree
        | none => whole
      | .logicalNot =>
        match quietTruth? names e with
        | some b => .ofBool !b
        | none => negated names e
      | .plus | .bitNot =>
        match quietNumber? names e with
        | some x => ((Constant.number x).unary op).elim whole Constant.toTree
        | none => whole
      | _ => whole

/-! ## 2. Operators between operands -/

/-- Whole numbers up to this size are subtracted. -/
def greatestTerm : Binary64 := .ofNat 0xffffffff

/-- The number may stand in a difference that is folded. -/
def isTerm (x : Binary64) : Bool :=
  x.isWhole && x.abs.compare greatestTerm != some .gt

/-- A product, quotient or remainder with this operand is never longer than the operation. -/
def isTrivialFactor (x : Binary64) : Bool := x.isZero || x.isNaN || x.isInfinite

/-- About how many characters a whole number takes. -/
def wholeWidth (x : Binary64) : Nat :=
  (Nat.toDigits 10 x.truncated).length + if x.isNegative then 1 else 0

/-- The result of a shift is no longer than the shift. -/
def shiftPays (width : Nat) (x y : Binary64) (result : Constant) : Bool :=
  wholeWidth result.toNumber ≤ wholeWidth x + width + wholeWidth y

/-- The value of an operator between two number literals is to be written in its place. -/
def foldsNumbers (op : BinaryOp) (x y : Binary64) (result : Constant) : Bool :=
  match op with
  | .sub => x.isNaN || y.isNaN || x.isInfinite || y.isInfinite || (isTerm x && isTerm y)
  | .mul | .rem | .pow => isTrivialFactor x || isTrivialFactor y
  | .div => isTrivialFactor y
  | .shiftLeft | .shiftRight => shiftPays 2 x y result
  | .shiftRightZero => shiftPays 3 x y result
  | _ => true

/-- The value of an operator between two constants is to be written in its place. -/
def folds (op : BinaryOp) (l r : Tree) (result : Constant) : Bool :=
  match op, l.label, r.label with
  | _, .number x, .number y => foldsNumbers op x y result
  | .add, _, _ => true
  | .bitAnd, _, _ | .bitOr, _, _ | .bitXor, _, _ => true
  | _, _, _ => op.precedence == .equals || op.precedence == .compare

/-- The expression is a literal, for the purpose of putting it on the right of an equality. -/
def isLiteral (t : Tree) : Bool :=
  match t.label with
  | .null | .bool _ | .number _ | .bigint _ | .string .. | .regex .. => true
  | .unary .voidOf => t.constant?.isSome
  | .template => t.parts.length == 1
  | _ => false

/-- The operand of `typeof`, if the expression is one of a plain name. -/
def typeofName? : Tree → Option Tree
  | .node (.unary .typeOf) _ [.node (.identifier name) s ps] =>
    some (.node (.identifier name) s ps)
  | _ => none

/-- An equality with a literal on its right.  Between values of one kind it need not look at the kinds;
then one with a truth value is the other operand or its negation. -/
def shortEquality (names : Names) (op : BinaryOp) (span : Span) (l r : Tree) : Tree :=
  let sameKind := l.kind?.isSome && l.kind? == r.kind?
  let isLoose := op == .eq || op == .ne
  let holds := op == .eq || op == .strictEq
  let loose := if holds then BinaryOp.eq else BinaryOp.ne
  let strict := if holds then BinaryOp.strictEq else BinaryOp.strictNe
  let op := if sameKind then loose else op
  let whole := Tree.node (.binary op) span [l, r]
  match l, r.constant? with
  | .node (.unary .typeOf) _ [x], some (.string "undefined") =>
    if x.identifierName?.any names.isGlobal then
      .node (.binary (if holds then .gt else .lt)) span [l, (Constant.string "u").toTree]
    else .node (.binary strict) span [x, Tree.undefined]
  | _, some .undefined =>
    if isLoose || sameKind then .node (.binary op) span [l, (Constant.null).toTree] else whole
  | _, some (.bool b) =>
    if !isLoose && l.kind? == some .bool then (if b == holds then l else negated names l) else whole
  | _, _ => whole

/-- The words that `typeof` can give. -/
def kindWords : List String :=
  ["undefined", "object", "boolean", "number", "bigint", "string", "symbol", "function", "unknown"]

/-- Whether the kinds of two expressions are equal, if that is known beforehand: those of a name and the
same name are, and no kind is a word that is none, or a value of another kind than a text.  What the
operands do is lost then. -/
def sameKinds? (l r : Tree) : Option Bool :=
  match l, r with
  | .node (.unary .typeOf) _ [x], .node (.unary .typeOf) _ [y] =>
    if x.identifierName?.isSome && x.identifierName? == y.identifierName? then some true else none
  | .node (.unary .typeOf) _ [_], r =>
    match r.stringValue?, r.kind? with
    | some word, _ => if kindWords.contains word then none else some false
    | none, some .string | none, none => none
    | none, some _ => some false
  | _, _ => none

/-- Whether an equality holds between values of these kinds, where the kinds alone decide it.  Other
kinds than those of nothing may be equal if one of them is converted. -/
def equalByKind? (isLoose : Bool) : Kind → Kind → Option Bool
  | .undefined, .undefined | .null, .null => some true
  | .undefined, .null | .null, .undefined => some isLoose
  | .undefined, k | .null, k | k, .undefined | k, .null =>
    if isLoose && k == .bool then none else some false
  | k, l =>
    if k == l || isLoose then none else some false

/-- Whether two expressions without effects are equal, where their kinds alone decide it. -/
def equalKinds? (names : Names) (isLoose : Bool) (l r : Tree) : Option Bool :=
  match l.kind?, r.kind? with
  | some k, some k' => if l.acts names || r.acts names then none else equalByKind? isLoose k k'
  | _, _ => none

/-- An operand of an equality that looks through kinds: a truth value is the number that it is compared
as. -/
def asCompared (t : Tree) : Tree :=
  match t.constant? with
  | some (.bool b) => .ofNumber (if b then .ofNat 1 else .zero)
  | _ => t

/-- An equality, with the literal on the right if there is one. -/
def foldEquality (names : Names) (op : BinaryOp) (span : Span) (l r : Tree) : Tree :=
  let isLoose := op == .eq || op == .ne
  let (l, r) := if isLoose then (asCompared l, asCompared r) else (l, r)
  let (l, r) := if isLiteral l && !isLiteral r then (r, l) else (l, r)
  match equalKinds? names isLoose l r <|> sameKinds? l r with
  | some same => .ofBool (same == (op == .eq || op == .strictEq))
  | none => shortEquality names op span l r

/-- The expression is an empty text, or an empty array, which is converted to one. -/
def isEmptyText (t : Tree) : Bool :=
  t.constant? == some (.string "") || (t.label == .array && t.parts.isEmpty)

/-- Two terms as one: texts are put together, a template takes up what is added to it, and an empty text
is not added to a text. -/
def joinedTerms? (names : Names) (l r : Tree) : Option Tree :=
  let isText := l.isTextLike || r.isTextLike
  let known :=
    match quietText? names l, quietText? names r with
    | some s, some t => if isText then some (Constant.string (s ++ t)).toTree else none
    | _, _ => none
  known <|> joinedTemplate? names l r <|>
    if isEmptyText r && l.kind? == some .string then some l
    else if isEmptyText l && r.kind? == some .string then some r
    else none

/-- A sum: its terms are joined, also with the last term of a sum on the left if that is a text. -/
def foldSum (names : Names) (span : Span) (l r : Tree) : Tree :=
  let inner :=
    match l with
    | .node (.binary .add) _ [a, b] =>
      if b.kind? == some .string then
        (joinedTerms? names b r).map fun t => Tree.node (.binary .add) span [a, t]
      else none
    | _ => none
  (joinedTerms? names l r <|> inner).getD (.node (.binary .add) span [l, r])

/-- An operator on single bits: a constant on its right is joined with one on its left. -/
def foldBits (names : Names) (op : BinaryOp) (span : Span) (l r : Tree) : Tree :=
  let whole := Tree.node (.binary op) span [l, r]
  let value? :=
    match quietNumber? names l, quietNumber? names r with
    | some x, some y => (Constant.number x).binary op (.number y)
    | _, _ => none
  match value? with
  | some c => c.toTree
  | none =>
    match l with
    | .node (.binary inner) _ [a, b] =>
      if inner != op then whole
      else
        match (Tree.make (.binary op) [a, r]).constant?, (Tree.make (.binary op) [b, r]).constant? with
        | some c, _ => .node (.binary op) span [b, c.toTree]
        | none, some c => .node (.binary op) span [a, c.toTree]
        | none, none => whole
    | _ => whole

/-- The makers whose instances are known: a value that is no object is none of them. -/
def primitiveMakers : List String := ["Object", "Number", "Boolean", "String"]

/-- Whether a value has been made by a global maker. -/
def foldInstance (names : Names) (span : Span) (l r : Tree) : Tree :=
  let whole := Tree.node (.binary .instanceOf) span [l, r]
  match r.identifierName?, l.kind? with
  | some name, some kind =>
    if primitiveMakers.contains name && names.isGlobal name && !l.acts names then
      .ofBool (name == "Object" && kind == .object)
    else whole
  | _, _ => whole

/-- The operator makes numbers of its operands, or big integers of two of these. -/
def isNumeric (op : BinaryOp) : Bool :=
  match op with
  | .sub | .mul | .div | .rem | .pow | .shiftLeft | .shiftRight | .shiftRightZero | .bitAnd | .bitOr
  | .bitXor => true
  | _ => false

/-- An operand beside a number, without a conversion that the operator makes anyway. -/
def besideNumber (other t : Tree) : Tree :=
  match t with
  | .node (.unary .plus) _ [e] => if other.kind? == some .number then e else t
  | t => t

/-- A comparison of what `typeof` gives for a name with what it gives for the same name. -/
def foldComparison (op : BinaryOp) (span : Span) (l r : Tree) : Tree :=
  if l.label == .unary .typeOf && sameKinds? l r == some true then .ofBool (op == .le || op == .ge)
  else .node (.binary op) span [l, r]

/-- An operator between operands. -/
def foldBinary (names : Names) (op : BinaryOp) (span : Span) (l r : Tree) : Tree :=
  let l := if isNumeric op then besideNumber r l else l
  let r := if isNumeric op then besideNumber l r else r
  let whole := Tree.node (.binary op) span [l, r]
  match whole.constant? with
  | some c => if folds op l r c then c.toTree else whole
  | none =>
    match op with
    | .eq | .ne | .strictEq | .strictNe => foldEquality names op span l r
    | .lt | .gt | .le | .ge => foldComparison op span l r
    | .add => foldSum names span l r
    | .bitAnd | .bitOr | .bitXor => foldBits names op span l r
    | .instanceOf => foldInstance names span l r
    | _ => whole

/-! ## 3. Places that are read and written -/

/-- The key is a name or a literal, so that evaluating it twice gives the same. -/
def isFixedKey (key : Tree) : Bool :=
  match key.label with
  | .string .. | .number _ => true
  | _ => false

/-- Evaluating the object twice gives the same and does nothing. -/
def isFixedObject (names : Names) (object : Tree) : Bool :=
  match object.label with
  | .identifier name => !names.isGlobal name
  | .this => true
  | _ => false

/-- An expression reads what a target writes, and finding the place has no effects. -/
def isSamePlace (names : Names) (target e : Tree) : Bool :=
  target.same e &&
    match target with
    | .node (.identifier _) _ _ => true
    | .node (.member _ false) _ [object] | .node (.privateMember _ false) _ [object] =>
      isFixedObject names object
    | .node (.index false) _ [object, key] => isFixedObject names object && isFixedKey key
    | _ => false

/-! ## 4. Logical operators -/

/-- A test of something against null or undefined: what is tested, and whether it is against null. -/
def nothingTest? (op : BinaryOp) : Tree → Option (Tree × Bool)
  | .node (.binary found) _ [l, r] =>
    if found != op then none
    else if l.constant? == some .undefined then some (r, false)
    else if r.constant? == some .undefined then some (l, false)
    else if l.label == .null then some (r, true)
    else if r.label == .null then some (l, true)
    else none
  | _ => none

/-- The tests of a name against null and against undefined as one test, if two tests are these. -/
def joinedTests? (op : LogicalOp) (l r : Tree) : Option Tree :=
  let (strict, loose) :=
    match op with
    | .or => (BinaryOp.strictEq, BinaryOp.eq)
    | _ => (BinaryOp.strictNe, BinaryOp.ne)
  match op, nothingTest? strict l, nothingTest? strict r with
  | .coalesce, _, _ => none
  | _, some (x, isNull), some (y, isNullToo) =>
    if isNull != isNullToo && y.identifierName?.isSome && valueName? x == y.identifierName? then
      some (.make (.binary loose) [x, (Constant.null).toTree])
    else none
  | _, _, _ => none

/-- The test that something is an object, and the name of what is tested. -/
def objectTest? (positive : Bool) : Tree → Option (Tree × String)
  | .node (.binary op) span [l, r] =>
    let (strict, loose) :=
      if positive then (BinaryOp.strictEq, BinaryOp.eq) else (BinaryOp.strictNe, BinaryOp.ne)
    match typeofName? l, r.constant? with
    | some name, some (.string "object") =>
      if op == strict || op == loose then
        name.identifierName?.map fun s => (.node (.binary loose) span [l, r], s)
      else none
    | _, _ => none
  | _ => none

/-- The tests that a variable of the script is an object and not null, in a shorter form, given which test
is the first of these. -/
def objectTestsBy? (names : Names) (op : LogicalOp) (kindTest other : Tree) : Option Tree :=
  let positive := op == .and
  match objectTest? positive kindTest, other with
  | some (test, name), .node (.binary op') _ _ =>
    let matching :=
      if positive then op' == .ne || op' == .strictNe else op' == .eq || op' == .strictEq
    match nullTest? other with
    | some x =>
      if op != .coalesce && matching && x.identifierName? == some name && !names.isGlobal name then
        some (.make (.logical op)
          [test, if positive then .logicalNot (.logicalNot x) else .logicalNot x])
      else none
    | none => none
  | _, _ => none

/-- The tests that a variable of the script is an object and not null, in either order, in a shorter
form. -/
def objectTests? (names : Names) (op : LogicalOp) (l r : Tree) : Option Tree :=
  objectTestsBy? names op l r <|> objectTestsBy? names op r l

/-- An assignment of the right side only where the left side asks for it; what the right side does before
is done before the value is computed. -/
def logicalAssignment (names : Names) (op : LogicalOp) (span : Span) (l r : Tree) : Option Tree :=
  match r.items.getLast? with
  | some (.node (.assign .plain) _ [target, value]) =>
    if isSamePlace names target l then
      some (.node (.assign (.logical op)) span [target, .sequenceOf (r.items.dropLast ++ [value])])
    else none
  | _ => none

/-- A rule for two tests, applied to the last test on the left and the one on the right. -/
def onLastTests (rule : Tree → Tree → Option Tree) (op : LogicalOp) (l r : Tree) : Option Tree :=
  (rule l r) <|>
    match l with
    | .node (.logical inner) span [a, b] =>
      if inner == op then (rule b r).map fun t => .node (.logical op) span [a, t] else none
    | _ => none

/-- A chain of tests without the last one on its left, if that one decides nothing. -/
def withoutIdleTest (names : Names) (op : LogicalOp) (l : Tree) : Tree :=
  match l with
  | .node (.logical inner) _ [a, b] =>
    if inner == op && op != .coalesce && quietTruth? names b == some (op == .and) then a else l
  | _ => l

/-- Whether the left side of a logical operator decides its value, if that is known beforehand. -/
def decided? (names : Names) (op : LogicalOp) (l : Tree) : Option Bool :=
  match op with
  | .coalesce =>
    match l.kind? with
    | some .null | some .undefined => some false
    | some _ => some true
    | none => none
  | .or => truth? names l
  | .and => (truth? names l).map (!·)

/-- A logical operator. -/
def foldLogical (names : Names) (op : LogicalOp) (span : Span) (l r : Tree) : Tree :=
  match decided? names op l with
  | some true => l
  | some false => if l.acts names then .sequenceOf [l, r] else r
  | none =>
    let l := withoutIdleTest names op l
    (onLastTests (joinedTests? op) op l r <|> logicalAssignment names op span l r
      <|> onLastTests (objectTests? names op) op l r).getD (joinLogical op l r)

/-! ## 5. Assignments -/

/-- The operators that may be written together with an assignment. -/
def assignable (op : BinaryOp) : Bool :=
  !(op.precedence == .equals || op.precedence == .compare)

/-- An assignment with an operator. -/
def foldOperatorAssign (op : BinaryOp) (span : Span) (target value : Tree) : Tree :=
  match op, value with
  | .sub, .node (.number x) _ _ =>
    if x == .ofNat 1 then .node (.update false true) span [target]
    else if x == (Binary64.ofNat 1).neg then .node (.update true true) span [target]
    else .node (.assign (.binary op)) span [target, value]
  | _, _ => .node (.assign (.binary op)) span [target, value]

/-- An assignment; one to a variable that nothing reads is its value. -/
def foldAssign (names : Names) (op : AssignOp) (span : Span) (target value : Tree) : Tree :=
  let whole := Tree.node (.assign op) span [target, value]
  if target.identifierName?.any fun name => names.isNeverRead name span.start then value else
  match op, value with
  | .plain, .node (.binary inner) _ [l, r] =>
    if assignable inner && isSamePlace names target l then foldOperatorAssign inner span target r
    else whole
  | .plain, .node (.logical inner) _ [l, r] =>
    if target.identifierName?.any (fun name => !names.isGlobal name) && target.same l then
      .node (.assign (.logical inner)) span [target, r]
    else whole
  | .binary inner, _ => foldOperatorAssign inner span target value
  | _, _ => whole

end PackageRefs.Script.Compress
