/-
# Effects of expressions

`Tree.acts` says that evaluating an expression may do something beside giving its value.

**What counts as an effect.**  Reading a name that the script does not declare may fail, and so may
reading a property; a conversion of an object to a text or a number in arithmetic may run code of the
object, while one in a comparison or for a key is taken to do nothing.  A call marked as harmless has no
effects of its own, nor has one of a global function that is known to have none.

**Harmless functions.**  A function whose statements have no effects is harmless: a call of it by its
name has no effects of its own either.  `Tree.harmlessFunctions` finds them.
-/
import PackageRefs.Script.Compress.KnownGlobal
import PackageRefs.Script.Compress.Names

namespace PackageRefs.Script

/-! ## 1. Effects -/

/-- The node is a piece of text of a template. -/
def Tree.isQuasi (t : Tree) : Bool :=
  match t.label with
  | .quasi .. => true
  | _ => false

/-- The key of a property has an effect when it is evaluated. -/
def keyActs (computed : Bool) (key : Tree × Bool) : Bool := computed && key.2

/-- Going over the values of an expression has an effect, or the expression has. -/
def spreadActs (e : Tree × Bool) : Bool :=
  match e.1.label with
  | .array | .template | .string .. => e.2
  | _ => true

/-- Reading a property has an effect, or computing the object has. -/
def memberActs (name : String) (object : Tree × Bool) : Bool :=
  object.2 || name != "length" || !(object.1.label == .array || object.1.kind? == some .string)

/-- One of several expressions has an effect. -/
def anyActs (parts : List (Tree × Bool)) : Bool := parts.any (·.2)

/-- A unary operator has an effect, or its operand has. -/
def unaryActs (op : UnaryOp) (e : Tree × Bool) : Bool :=
  match op with
  | .typeOf =>
    match e.1.label with
    | .identifier _ => false
    | _ => e.2
  | .voidOf | .logicalNot => e.2
  | .plus => !e.1.isPlain || e.1.kind? == some .bigint || e.2
  | .minus | .bitNot => !e.1.isPlain || e.2
  | .deleteOf => true

/-- An operator between two big integers may fail: a division by zero does, and a power with an exponent
below zero. -/
def bigMayFail (op : BinaryOp) (r : Tree) : Bool :=
  match op, r.constant? with
  | .shiftRightZero, _ => true
  | .div, some (.bigint n) | .rem, some (.bigint n) => n == 0
  | .pow, some (.bigint n) => n < 0
  | .div, _ | .rem, _ | .pow, _ => true
  | _, _ => false

/-- A binary operator has an effect, or one of its operands has. -/
def binaryActs (names : Names) (op : BinaryOp) (l r : Tree × Bool) : Bool :=
  let isPlain := l.1.isPlain && r.1.isPlain
  let leftIsBig := l.1.kind? == some .bigint
  let rightIsBig := r.1.kind? == some .bigint
  match op with
  | .strictEq | .strictNe | .eq | .ne | .lt | .le | .gt | .ge => l.2 || r.2
  | .instanceOf => !KnownGlobal.isOneOf KnownGlobal.makers names.isGlobal r.1 || l.2
  | .inside => true
  | _ =>
    !isPlain || leftIsBig != rightIsBig || (leftIsBig && rightIsBig && bigMayFail op r.1) ||
      l.2 || r.2

/-- A node has an effect, given which of its parts have. -/
def nodeActs (names : Names) (label : Label) (parts : List (Tree × Bool)) : Bool :=
  match label, parts with
  | .null, _ | .bool _, _ | .number _, _ | .bigint _, _ | .string .., _ | .regex .., _ => false
  | .this, _ | .metaProperty .., _ | .elision, _ | .absent, _ | .quasi .., _ => false
  | .propertyName _, _ | .privateName _, _ => false
  | .function .., _ | .arrow .., _ => false
  | .identifier name, _ => names.isGlobal name
  | .template, _ => (parts.any fun t => !t.1.isQuasi && !t.1.isPlain) || anyActs parts
  | .property computed _, [key, value] => keyActs computed key || value.2
  | .propertyMethod _ computed, [key, _] => keyActs computed key
  | .unary op, [e] => unaryActs op e
  | .binary op, [l, r] => binaryActs names op l r
  | .parenthesized, _ | .array, _ | .object, _ | .logical _, _ | .conditional, _ | .sequence, _
  | .chain, _ | .classBody, _ => anyActs parts
  | .class .., [marks, _, _, parent, _, _, body] =>
    !marks.1.parts.isEmpty || !parent.1.isAbsent || body.2
  | .methodDefinition _ computed _, [marks, key, _] =>
    !marks.1.parts.isEmpty || keyActs computed key
  | .field computed _ modifiers, [marks, key, _, value] =>
    !marks.1.parts.isEmpty || keyActs computed key || (modifiers.isStatic && value.2)
  | .spread, [e] => spreadActs e
  | .member name false, [object] => memberActs name object
  | .call _ isPure, callee :: _ :: args =>
    !(isPure || KnownGlobal.isFunction names.isGlobal callee.1) || anyActs args
  | .new isPure, _ :: _ :: args =>
    !isPure || anyActs args
  | _, _ => true

/-- Evaluating the expression may do something beside giving its value. -/
def Tree.acts (names : Names) (t : Tree) : Bool :=
  t.evaluate fun label _ parts => nodeActs names label parts

/-! ## 2. Harmless functions -/

/-- A statement has an effect, given which of its parts have. -/
def statementNodeActs (names : Names) (label : Label) (parts : List (Tree × Bool)) : Bool :=
  let inner := anyActs parts
  match label, parts with
  | .absent, _ | .emptyStatement, _ | .break _, _ | .continue _, _ => false
  | .function .declaration .., _ => false
  | .expressionStatement, [e] => e.1.acts names
  | .return, [e] => !e.1.isAbsent && e.1.acts names
  | .block, _ | .statements, _ | .labeled _, _ => inner
  | .if, [test, yes, no] => test.1.acts names || yes.2 || no.2
  | .while, [test, body] => test.1.acts names || body.2
  | .doWhile, [body, test] => body.2 || test.1.acts names
  | .switch, subject :: cases => subject.1.acts names || anyActs cases
  | .case, [test, list] => (!test.1.isAbsent && test.1.acts names) || list.2
  | .try, _ => inner
  | .catch, [_, block] => block.2
  | .variableList .using _, _ | .variableList .awaitUsing _, _ => true
  | .variableList _ _, _ => inner
  | .declarator _, [pattern, value] =>
    pattern.1.plainName?.isNone || (!value.1.isAbsent && value.1.acts names)
  | .class true .., _ => nodeActs names label parts
  | _, _ => true

/-- A list of statements has an effect. -/
def Tree.statementsAct (names : Names) (t : Tree) : Bool :=
  t.evaluate fun label _ parts => statementNodeActs names label parts

/-- The parameters only name the arguments, and taking them cannot fail. -/
def Tree.areBareParameters (t : Tree) : Bool :=
  t.parts.all fun p =>
    match p with
    | .node (.parameter _) _ [_, pattern] => pattern.plainName?.isSome
    | p => p.plainName?.isSome || p.label == .rest

/-- The function is harmless under the name if the name always refers to it. -/
def harmlessFunction (names : Names) (name : String) (stop : Nat) (isAsync isGenerator : Bool)
    (list body : Tree) : List HarmlessFunction :=
  if isAsync || isGenerator || !list.areBareParameters || (names.usageOf name).writes != 0 ||
      (body.part 1).statementsAct names then []
  else [{ name, stop, isEmpty := (body.part 0).parts.isEmpty && (body.part 1).parts.isEmpty }]

/-- A function with a name, or a variable that holds a function, if the function is harmless. -/
def harmlessOf (names : Names) : Tree → List HarmlessFunction
  | .node (.function .declaration isAsync isGenerator ..) span
      [.node (.binding name) _ _, _, _, list, _, body] =>
    harmlessFunction names name span.stop isAsync isGenerator list body
  | .node (.declarator _) span
      [pattern, .node (.function .expression isAsync isGenerator ..) _ [_, _, _, list, _, body]] =>
    pattern.plainName?.toList.flatMap fun name =>
      harmlessFunction names name span.stop isAsync isGenerator list body
  | .node (.declarator _) span [pattern, .node (.arrow isAsync ..) _ [_, list, _, body]] =>
    pattern.plainName?.toList.flatMap fun name =>
      harmlessFunction names name span.stop isAsync false list body
  | .node (.labeled _) _ [body] => harmlessOf names body
  | .node .if _ [_, yes, no] => harmlessOf names yes ++ harmlessOf names no
  | _ => []

/-- The functions of a list of statements that are known to be harmless. -/
def harmlessInList (names : Names) : Tree → List HarmlessFunction
  | .node .statements _ ts =>
    ts.flatMap fun t =>
      match t.label with
      | .variableList .. => t.parts.flatMap (harmlessOf names)
      | _ => harmlessOf names t
  | _ => []

/-- The functions of a script that are known to be harmless. -/
def Tree.harmlessFunctions (names : Names) (program : Tree) : List HarmlessFunction :=
  program.gather (harmlessInList names)

end PackageRefs.Script
