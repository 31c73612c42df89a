/-
# Tests and choices

The shortest ways to write a negation, a choice between two expressions, and a chain of tests.

A test is only asked whether it holds, so it may be replaced by another expression that holds in the
same cases (`simplifiedTest`).  `choose` writes `test ? yes : no`; its rules are tried in turn, and
each keeps the order in which the parts are evaluated.
-/
import PackageRefs.Script.Compress.Effect

namespace PackageRefs.Script.Compress

/-! ## 1. What is known about a test -/

mutual

/-- Whether the value of an expression counts as true, if that is known beforehand; computing it may
still have effects. -/
def truth? (names : Names) : Tree → Option Bool
  | .node label span parts =>
    match names.constantOf? (.node label span parts) with
    | some c => some c.truth
    | none =>
      match label, parts with
      | .regex .., _ | .array, _ | .object, _ | .function .., _ | .arrow .., _ | .class .., _
      | .new _, _ => some true
      | .unary .voidOf, _ => some false
      | .unary .logicalNot, [e] => (truth? names e).map (!·)
      | .parenthesized, [e] => truth? names e
      | .assign .plain, [_, value] => truth? names value
      | .logical op, [l, r] =>
        match op, truth? names l, truth? names r with
        | .and, some false, _ | .and, _, some false => some false
        | .and, some true, some true => some true
        | .or, some true, _ | .or, _, some true => some true
        | .or, some false, some false => some false
        | _, _, _ => none
      | .sequence, first :: rest => lastTruth? names (truth? names first) rest
      | _, _ => none

/-- Whether the value of the last of several expressions counts as true, given that of the one before
them. -/
def lastTruth? (names : Names) (before : Option Bool) : List Tree → Option Bool
  | [] => before
  | e :: es => lastTruth? names (truth? names e) es

end

/-- Whether an expression without effects counts as true. -/
def quietTruth? (names : Names) (t : Tree) : Option Bool :=
  match truth? names t with
  | some b => if t.acts names then none else some b
  | none => none

/-- The truth value that a literal stands for. -/
def literalTruth? : Tree → Option Bool
  | .node (.bool b) _ _ => some b
  | .node (.unary .logicalNot) _ [.node (.number x) _ _] => some (x.isZero || x.isNaN)
  | _ => none

/-- The operator that holds where an equality does not. -/
def opposite? : BinaryOp → Option BinaryOp
  | .eq => some .ne
  | .ne => some .eq
  | .strictEq => some .strictNe
  | .strictNe => some .strictEq
  | _ => none

/-! ## 2. Logical operators -/

/-- Two expressions with a logical operator between them, grouped to the left. -/
def joinLogical (op : LogicalOp) (left : Tree) : Tree → Tree
  | .node (.logical inner) span [a, b] =>
    if inner == op then joinLogical op (joinLogical op left a) b
    else .make (.logical op) [left, .node (.logical inner) span [a, b]]
  | right => .make (.logical op) [left, right]

/-- Two expressions with a logical operator between them; what the left one does before its value
stays in front. -/
def andOr (op : LogicalOp) (left right : Tree) : Tree :=
  match left.items.getLast? with
  | some last => .sequenceOf (left.items.dropLast ++ [joinLogical op last right])
  | none => joinLogical op left right

/-! ## 3. Negations and tests -/

/-- The negation of an expression that is no sequence and cannot be made shorter as a test. -/
def negatedItem (e : Tree) : Tree :=
  match e with
  | .node (.unary .logicalNot) _ [inner] =>
    if inner.kind? == some .bool then inner else .logicalNot e
  | .node (.binary op) span [l, r] =>
    match opposite? op with
    | some other => .node (.binary other) span [l, r]
    | none => .logicalNot e
  | _ => .logicalNot e

/-- The negation of an expression that cannot be made shorter as a test. -/
def plainNegation (e : Tree) : Tree :=
  match e.items.getLast? with
  | some last => .sequenceOf (e.items.dropLast ++ [negatedItem last])
  | none => .logicalNot e

/-- A part of a test, and an expression that holds in the same cases. -/
abbrev TestPart := Tree × Tree

/-- A choice as a test, given its parts and shorter tests for what is chosen from. -/
def choiceTest (names : Names) (span : Span) (test yes no : Tree) : Tree :=
  match quietTruth? names yes, quietTruth? names no with
  | some true, _ => andOr .or test no
  | some false, _ => andOr .and (plainNegation test) no
  | none, some true => andOr .or (plainNegation test) yes
  | none, some false => andOr .and test yes
  | none, none => .node .conditional span [test, yes, no]

/-- An operator on single bits, whose value is a whole number. -/
def worksOnBits (t : Tree) : Bool :=
  match t.label with
  | .binary op =>
    match op with
    | .bitAnd | .bitOr | .bitXor | .shiftLeft | .shiftRight | .shiftRightZero => true
    | _ => false
  | .unary op => op == .bitNot
  | _ => false

/-- An expression that holds in the same cases as a node, given such expressions for its parts. -/
def nodeTest (names : Names) (label : Label) (span : Span) (parts : List TestPart) : Tree :=
  let whole := Tree.node label span (parts.map (·.1))
  match label, parts with
  | .unary .logicalNot, [(.node (.unary .logicalNot) s inner, _)] =>
    if (literalTruth? (.node (.unary .logicalNot) s inner)).isSome then whole
    else
      match inner with
      | [e] => e
      | _ => whole
  | .binary op, [(l, _), (.node (.number x) _ _, _)] =>
    if x.isZero && worksOnBits l && l.kind? == some .number then
      match op with
      | .ne | .strictNe => l
      | .eq | .strictEq => .logicalNot l
      | _ => whole
    else whole
  | .logical op, [(_, l), (_, r)] =>
    match op, quietTruth? names r with
    | .and, some true | .or, some false => l
    | .coalesce, _ => whole
    | _, _ => .node label span [l, r]
  | .conditional, [(test, _), (_, yes), (_, no)] => choiceTest names span test yes no
  | .sequence, _ =>
    match parts.getLast? with
    | some (_, last) => .sequenceOf ((parts.map (·.1)).dropLast ++ [last])
    | none => whole
  | _, _ => whole

/-- An expression that holds in the same cases. -/
def simplifiedTest (names : Names) (t : Tree) : Tree := t.evaluate (nodeTest names)

/-- The negation of an expression. -/
def negated (names : Names) (e : Tree) : Tree := plainNegation (simplifiedTest names e)

/-- A test that holds where another does not. -/
def oppositeTest (names : Names) (e : Tree) : Tree :=
  match e with
  | .node (.unary .logicalNot) _ [inner] => inner
  | _ => negated names e

/-- The expression as a truth value. -/
def asBool (names : Names) (e : Tree) : Tree :=
  if e.kind? == some .bool then e else .logicalNot (negated names e)

/-! ## 4. Access to what may be nothing -/

/-- Accesses and calls that begin with a name, with something in the place of the name and nothing done
if that is null or undefined. -/
def guardedBy? (name : String) (start : Tree) : Tree → Option Tree
  | .node (.member key optional) span [object] =>
    if object.identifierName? == some name then some (.node (.member key true) span [start])
    else (guardedBy? name start object).map fun t => .node (.member key optional) span [t]
  | .node (.index optional) span [object, key] =>
    if object.identifierName? == some name then some (.node (.index true) span [start, key])
    else (guardedBy? name start object).map fun t => .node (.index optional) span [t, key]
  | .node (.call optional isPure) span (callee :: rest) =>
    if callee.identifierName? == some name then some (.node (.call true isPure) span (start :: rest))
    else (guardedBy? name start callee).map fun t => .node (.call optional isPure) span (t :: rest)
  | .node .chain span [e] => (guardedBy? name start e).map fun t => .node .chain span [t]
  | _ => none

/-- The same as one chain. -/
def guardedChain? (name : String) (start t : Tree) : Option Tree :=
  (guardedBy? name start t).map fun t =>
    match t.label with
    | .chain => t
    | _ => .make .chain [t]

/-- The name that an expression gives the value of, also after assigning to it. -/
def valueName? (t : Tree) : Option String :=
  match t with
  | .node (.assign .plain) _ [target, _] => target.identifierName?
  | t => t.identifierName?

/-- The operands of an equality with null: the other one comes first. -/
def nullTest? : Tree → Option Tree
  | .node (.binary _) _ [x, .node .null _ _] => some x
  | .node (.binary _) _ [.node .null _ _, x] => some x
  | _ => none

/-! ## 5. Choices -/

/-- A choice whose parts are what is to be chosen from. -/
def plainChoice (test yes no : Tree) : Tree := .make .conditional [test, yes, no]

/-- Two calls of the same function that differ in their first argument at most; the test may be put
off until the function is known, since neither has effects. -/
def mergedCalls (names : Names) (test yes no : Tree) : Option Tree :=
  match yes, no with
  | .node (.call false isPure) span (f :: generics :: a :: as),
      .node (.call false _) _ (g :: others :: b :: bs) =>
    if f.same g && generics.isAbsent && others.isAbsent && !f.acts names && !test.acts names &&
        Tree.sameAll as bs then
      match a, b with
      | .node .spread s [x], .node .spread _ [y] =>
        some (.node (.call false isPure) span
          (f :: generics :: .node .spread s [plainChoice test x y] :: as))
      | .node .spread _ _, _ | _, .node .spread _ _ => none
      | _, _ => some (.node (.call false isPure) span (f :: generics :: plainChoice test a b :: as))
    else none
  | _, _ => none

/-- Two assignments to the same name. -/
def mergedAssignments (test yes no : Tree) : Option Tree :=
  match yes, no with
  | .node (.assign .plain) span [x, a], .node (.assign .plain) _ [y, b] =>
    if x.identifierName?.isSome && x.same y then
      some (.node (.assign .plain) span [x, plainChoice test a b])
    else none
  | _, _ => none

/-- A choice whose branches share one of what another choice, in one of them, is between. -/
def sharedChoice (test yes no : Tree) : Option Tree :=
  let inYes :=
    match yes with
    | .node .conditional _ [inner, a, b] =>
      if b.same no then some (plainChoice (andOr .and test inner) a no) else none
    | _ => none
  inYes <|>
    match no with
    | .node .conditional _ [inner, a, b] =>
      if a.same yes then some (plainChoice (andOr .or test inner) yes b) else none
    | _ => none

/-- A choice one branch of which is the other one after something else. -/
def sharedEnd (test yes no : Tree) : Option Tree :=
  let inNo :=
    match no with
    | .node .sequence _ [a, b] =>
      if b.same yes then some (.sequenceOf [andOr .or test a, yes]) else none
    | _ => none
  inNo <|>
    match yes with
    | .node .sequence _ [a, b] =>
      if b.same no then some (.sequenceOf [andOr .and test a, no]) else none
    | _ => none

/-- A choice one branch of which is the right side of a logical operator in the other one. -/
def sharedSide (test yes no : Tree) : Option Tree :=
  let inYes :=
    match yes with
    | .node (.logical .or) _ [a, b] =>
      if b.same no then some (joinLogical .or (andOr .and test a) no) else none
    | _ => none
  inYes <|>
    match no with
    | .node (.logical .and) _ [a, b] =>
      if b.same yes then some (joinLogical .and (andOr .or test a) yes) else none
    | _ => none

/-- A choice between the two truth values. -/
def truthChoice (names : Names) (test yes no : Tree) : Option Tree :=
  match literalTruth? yes, literalTruth? no with
  | some true, some false => some (asBool names test)
  | some false, some true => some (negated names test)
  | _, _ => none

/-- Rules about choosing between a name and something else, by that name. -/
def nameChoice (test yes no : Tree) : Option Tree :=
  match test with
  | .node (.identifier _) _ _ =>
    if test.same yes then some (joinLogical .or test no)
    else if test.same no then some (joinLogical .and test yes)
    else none
  | _ => none

/-- Rules about choosing by whether a variable of the script is null or undefined. -/
def nothingChoice (names : Names) (test yes no : Tree) : Option Tree :=
  match test with
  | .node (.binary .eq) _ _ =>
    match nullTest? test with
    | some x =>
      match (valueName? x).filter fun s => !names.isGlobal s with
      | some name =>
        if no.identifierName? == some name then some (joinLogical .coalesce x yes)
        else if yes.constant? == some .undefined then guardedChain? name x no
        else none
      | none => none
    | none => none
  | _ => none

/-- A choice between equal expressions. -/
def equalChoice (test yes no : Tree) : Option Tree :=
  if yes.same no then some (.andThen test yes) else none

/-- A choice, after everything that its test does before its value has been taken away. -/
def chooseBy (names : Names) (test yes no : Tree) : Tree :=
  let (test, yes, no) :=
    match test with
    | .node (.unary .logicalNot) _ [inner] => (inner, no, yes)
    | .node (.binary .ne) span parts => (.node (.binary .eq) span parts, no, yes)
    | .node (.binary .strictNe) span parts => (.node (.binary .strictEq) span parts, no, yes)
    | _ => (test, yes, no)
  match truth? names test with
  | some b =>
    let kept := if b then yes else no
    if test.acts names then .andThen test kept else kept
  | none =>
    (nameChoice test yes no <|> truthChoice names test yes no <|> sharedChoice test yes no
      <|> sharedEnd test yes no <|> sharedSide test yes no <|> mergedCalls names test yes no
      <|> mergedAssignments test yes no <|> nothingChoice names test yes no
      <|> equalChoice test yes no).getD (plainChoice test yes no)

/-- A choice between two expressions. -/
def choose (names : Names) (test yes no : Tree) : Tree :=
  let test := simplifiedTest names test
  match test.items.getLast? with
  | some last => .sequenceOf (test.items.dropLast ++ [chooseBy names last yes no])
  | none => plainChoice test yes no

end PackageRefs.Script.Compress
