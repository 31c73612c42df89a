/-
# Values in place of variables

A variable that is never written again may be replaced by its value in two cases.

* Its value is a constant, and it is read only once or the constant is short (`inlineConstants`).
* It is read only once, in the statement right after its declaration, and nothing that is evaluated
  between the two would notice that the value is computed later (`substituteInto`).
-/
import PackageRefs.Script.Compress.Effect
import PackageRefs.Script.Compress.Normalize

namespace PackageRefs.Script.Compress

open PackageRefs.Number

/-! ## 1. Constants -/

/-- The variables with a constant value that have been declared so far. -/
abbrev Known := List (String × Constant)

/-- The constant takes few characters wherever it is written. -/
def isShort : Constant → Bool
  | .number x =>
    match x.toInt? with
    | some n => -99 ≤ n && n ≤ 999
    | none => false
  | .string s => s.utf8ByteSize ≤ 3
  | .bigint _ => false
  | _ => true

/-- The constant that a variable holds wherever it is read. -/
def lastingValue? (names : Names) (kind : VariableKind) (d : Tree) : Option (String × Constant) :=
  match kind, d with
  | .let, .node (.declarator _) _ [pattern, value]
  | .const, .node (.declarator _) _ [pattern, value] =>
    let constant := if value.isAbsent then some Constant.undefined else value.constant?
    match pattern.plainName?, constant with
    | some name, some c =>
      if !names.isGlobal name && (names.usageOf name).writes == 0 then some (name, c) else none
    | _, _ => none
  | _, _ => none

/-- The declarators of a statement, with the kind of their variables. -/
def declarators : Tree → List (VariableKind × Tree)
  | .node (.variableList kind _) _ ds => ds.map (kind, ·)
  | .node (.exportNamed _) _ (.node (.variableList kind _) _ ds :: _) => ds.map (kind, ·)
  | _ => []

/-- The variables with a constant value that the statements of a list declare, and where their declarations
end. -/
def constantsInList (names : Names) : Tree → List (String × Constant × Nat)
  | .node .statements _ ts =>
    (ts.flatMap declarators).filterMap fun (kind, d) =>
      (lastingValue? names kind d).map fun (name, c) => (name, c, d.span.stop)
  | _ => []

/-- The variables that a statement declares, with the constants to be written in their places. -/
def declaredConstants (names : Names) (t : Tree) : Known :=
  ((declarators t).filterMap fun (kind, d) => lastingValue? names kind d).filter fun (name, c) =>
    (names.usageOf name).reads == 1 || isShort c

mutual

/-- The tree with constants in place of variables, given those declared before it. -/
def inlineConstants (names : Names) : Tree → StateM Known Tree
  | .node (.identifier name) span parts => do
    match (← get).lookup name with
    | some c => return c.toTree
    | none => return .node (.identifier name) span parts
  | .node .statements span parts => do
    return .node .statements span (← inlineInStatements names parts)
  | .node .literalType span parts => return .node .literalType span parts
  | .node label span parts => do return .node label span (← inlineInParts names label 0 parts)

/-- The parts of a node with constants in place of variables. -/
def inlineInParts (names : Names) (label : Label) (index : Nat) : List Tree → StateM Known (List Tree)
  | [] => return []
  | t :: ts => do
    let first ←
      if namesPlace label index && t.identifierName?.isSome then pure t
      else inlineConstants names t
    let others ← inlineInParts names label (index + 1) ts
    return first :: others

/-- Statements with constants in place of variables; each statement adds those that it declares. -/
def inlineInStatements (names : Names) : List Tree → StateM Known (List Tree)
  | [] => return []
  | t :: ts => do
    let first ← inlineConstants names t
    modify fun known => declaredConstants names first ++ known
    let others ← inlineInStatements names ts
    return first :: others

end

/-! ## 2. Values that are used once -/

/-- What comes of looking for a variable in an expression, in the order of evaluation. -/
inductive Search where
  /-- the variable was found, and the expression has the value in its place -/
  | found (t : Tree)
  /-- the variable is not there, and the value may be computed after the expression -/
  | passed
  /-- the value may not be computed later than here -/
  | stopped
  deriving Inhabited

mutual

/-- The expression is a literal, or made of literals; functions may be taken for literals. -/
def isLiteralValue (functions : Bool) : Tree → Bool
  | .node label _ parts =>
    match label, parts with
    | .null, _ | .bool _, _ | .number _, _ | .bigint _, _ | .string .., _ | .regex .., _ => true
    | .quasi .., _ | .elision, _ | .propertyName _, _ => true
    | .function .., _ | .arrow .., _ => functions
    | .template, ps => areLiteralValues functions ps
    | .array, ps => areLiteralValues functions ps
    | .object, ps => areLiteralValues functions ps
    | .property _ _, [key, value] => isLiteralValue functions key && isLiteralValue functions value
    | .propertyMethod _ _, [key, _] => functions && isLiteralValue functions key
    | .unary op, [e] => op != .deleteOf && op != .typeOf && isLiteralValue functions e
    | _, _ => false

/-- All expressions are literals, or made of literals. -/
def areLiteralValues (functions : Bool) : List Tree → Bool
  | [] => true
  | t :: ts => isLiteralValue functions t && areLiteralValues functions ts

end

/-- A value that is to take the place of a variable. -/
structure Replacement where
  name : String
  value : Tree
  /-- Computing the value has no effects. -/
  free : Bool
  /-- The value is a literal, which is the same wherever it stands. -/
  literal : Bool

/-- Looks through the parts of a node one by one. -/
def searchParts (rebuild : List Tree → Tree) (before : List Tree) :
    List (Tree × Search) → Option Search
  | [] => none
  | (t, s) :: rest =>
    match s with
    | .found new => some (.found (rebuild (before ++ new :: rest.map (·.1))))
    | .stopped => some .stopped
    | .passed => searchParts rebuild (before ++ [t]) rest

/-- Parts that are evaluated when the node is, whatever else happens, come first; the others count
only if the value is free.  The number is that of the former. -/
def certainParts (label : Label) (count : Nat) : Option Nat :=
  match label with
  | .unary .deleteOf => none
  | .unary _ | .spread | .await | .yield _ | .member _ false | .privateMember _ false | .chain
  | .property true _ => some count
  | .member .. | .privateMember .. | .index true | .logical _ | .call true _ => some 1
  | .property false _ | .binary _ | .sequence | .array | .object | .template | .index false
  | .call false _ | .new _ | .taggedTemplate | .importCall _ | .privateIn _ => some count
  | _ => none

/-- The node is no expression of its own, or only holds others. -/
def isHolder (label : Label) : Bool :=
  match label with
  | .property .. | .spread | .absent | .elision | .quasi .. | .propertyName _ | .chain => true
  | _ => false

/-- Looks for the variable in a node, given what came of looking in its parts. -/
def searchNode (names : Names) (r : Replacement) (label : Label) (span : Span)
    (parts : List (Tree × Search)) : Search :=
  let whole := Tree.node label span (parts.map (·.1))
  let rebuild (ts : List Tree) := Tree.node label span (ts ++ (parts.drop ts.length).map (·.1))
  let after : Search :=
    if isHolder label then .passed
    else if r.free && !whole.acts names then .passed
    else if r.literal || isLiteralValue true whole then .passed
    else .stopped
  match label, parts with
  | .identifier name, _ =>
    if name == r.name then .found r.value
    else if !names.isGlobal name && (names.usageOf name).writes == 0 then .passed
    else after
  | .assign op, [target, value] =>
    let targetActs :=
      match target.1.label with
      | .identifier _ => false
      | _ => true
    if targetActs || (op != .plain && !r.free) then .stopped
    else
      match value.2 with
      | .found new => .found (rebuild [target.1, new])
      | .stopped => .stopped
      | .passed => after
  | .conditional, [test, yes, no] =>
    match test.2 with
    | .found new => .found (rebuild [new, yes.1, no.1])
    | .stopped => .stopped
    | .passed =>
      if r.free then
        match yes.2, no.2 with
        | .found new, _ => .found (rebuild [test.1, new, no.1])
        | _, .found new => .found (rebuild [test.1, yes.1, new])
        | .passed, .passed => after
        | _, _ => .stopped
      else after
  | .call .., (callee, _) :: _ | .taggedTemplate, (callee, _) :: _ =>
    if callee.identifierName? == some r.name && (r.value.label matches .member .. | .index _) then
      .stopped
    else
      let certain := (certainParts label parts.length).getD 0
      (searchParts rebuild [] (if r.free then parts else parts.take certain)).getD after
  | _, _ =>
    match certainParts label parts.length with
    | none => after
    | some certain =>
      (searchParts rebuild [] (if r.free then parts else parts.take certain)).getD after

/-- Looks for the variable in an expression. -/
def search (names : Names) (r : Replacement) (t : Tree) : Search :=
  t.evaluate (searchNode names r)

/-- The first expression that a statement evaluates. -/
structure FirstExpression where
  expression : Tree
  /-- The expression stands in the scope of the statement itself, where only literals may move. -/
  inner : Bool
  /-- The statement with another expression in its place. -/
  rebuild : Tree → Tree

/-- The first expression that the head of a loop evaluates. -/
def firstOfHead? (head : Tree) (rebuild : Tree → Tree) : Option FirstExpression :=
  match head with
  | .node (.variableList kind isDeclare) span (.node (.declarator definite) s [pattern, value] :: ds) =>
    if value.isAbsent then none
    else
      some ⟨value, true, fun e =>
        rebuild (.node (.variableList kind isDeclare) span
          (.node (.declarator definite) s [pattern, e] :: ds))⟩
  | .node .absent _ _ | .node (.variableList _ _) _ _ => none
  | e => some ⟨e, true, rebuild⟩

/-- The first expression that a statement evaluates, if it evaluates one first. -/
def firstExpression? : Tree → Option FirstExpression
  | .node .expressionStatement span [e] =>
    some ⟨e, false, fun e => .node .expressionStatement span [e]⟩
  | .node .return span [e] =>
    if e.isAbsent then none else some ⟨e, false, fun e => .node .return span [e]⟩
  | .node .throw span [e] => some ⟨e, false, fun e => .node .throw span [e]⟩
  | .node .if span [test, yes, no] => some ⟨test, false, fun e => .node .if span [e, yes, no]⟩
  | .node .switch span (subject :: cases) =>
    some ⟨subject, false, fun e => .node .switch span (e :: cases)⟩
  | .node .for span (head :: rest) => firstOfHead? head fun e => .node .for span (e :: rest)
  | .node .forIn span [left, right, body] =>
    some ⟨right, true, fun e => .node .forIn span [left, e, body]⟩
  | .node (.forOf isAwait) span [left, right, body] =>
    some ⟨right, true, fun e => .node (.forOf isAwait) span [left, e, body]⟩
  | .node (.variableList kind isDeclare) span (.node (.declarator definite) s [pattern, value] :: ds) =>
    if value.isAbsent then none
    else
      some ⟨value, false, fun e =>
        .node (.variableList kind isDeclare) span (.node (.declarator definite) s [pattern, e] :: ds)⟩
  | _ => none

/-- The value of a variable that is read once and never written again. -/
def replacement? (names : Names) (d : Tree) : Option Replacement :=
  match d with
  | .node (.declarator _) _ [pattern, value] =>
    match pattern.plainName? with
    | some name =>
      if !names.place.runsText && names.isOwn name && names.usageOf name == ⟨1, 0⟩ &&
          !value.isAbsent then
        some { name, value, free := !value.acts names, literal := isLiteralValue true value }
      else none
    | none => none
  | _ => none

/-- Takes variables off the end of a declaration whose values go into the statement after it. -/
def substituteAll (names : Names) (t : Tree) : List Tree → Tree × List Tree
  | [] => (t, [])
  | d :: ds =>
    match replacement? names d, firstExpression? t with
    | some r, some first =>
      if first.inner && !isLiteralValue false r.value then (t, d :: ds)
      else
        match search names r first.expression with
        | .found new => substituteAll names (first.rebuild new) ds
        | _ => (t, d :: ds)
    | _, _ => (t, d :: ds)

/-- A statement with the values of the variables declared right before it in their places. -/
def substituteInto (names : Names) (t : Tree) : List Tree → Tree × List Tree
  | .node (.variableList kind false) span ds :: rest =>
    match kind with
    | .using | .awaitUsing => (t, .node (.variableList kind false) span ds :: rest)
    | _ =>
      let (t, kept) := substituteAll names t ds.reverse
      if kept.isEmpty then substituteInto names t rest
      else (t, .node (.variableList kind false) span kept.reverse :: rest)
  | before => (t, before)

end PackageRefs.Script.Compress
