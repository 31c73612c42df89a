/-
# Expressions without use

`Tree.remains` is what is left of an expression whose value is not used: nothing if it has no effects,
and otherwise the parts that have some, in the order in which they are evaluated.

A conversion that comparing a value, or making it a key, would ask for is taken to have no effect of
its own.  One that adding to a text or writing into a template asks for may have: it stays, with all
text around it gone.
-/
import PackageRefs.Script.Compress.Condition

namespace PackageRefs.Script

open Compress (simplifiedTest andOr nullTest? guardedChain?)

/-- Expressions one after the other, if there are any. -/
def joined (es : List Tree) : Option Tree := if es.isEmpty then none else some (.sequenceOf es)

/-- A part of an expression, and what is left of it when its value is not used. -/
abbrev Remaining := Tree × Option Tree

/-- What is left of several parts. -/
def allRemaining (parts : List Remaining) : List Tree := parts.filterMap (·.2)

/-! ## 1. Lists of expressions -/

/-- The part goes over the values of an expression. -/
def Tree.isSpread (t : Tree) : Bool := t.label == .spread

/-- What is left of an array. -/
def arrayRemains (span : Span) (parts : List Remaining) : Option Tree :=
  let kept := allRemaining parts
  if kept.any Tree.isSpread then some (.node .array span kept) else joined kept

/-- What is left of the arguments of a call that has no effects of its own. -/
def argumentsRemain (args : List Remaining) : List Tree :=
  args.filterMap fun (t, rest) =>
    rest.map fun e => if t.isSpread then .make .array [e] else e

/-- Objects that are only gone over, as one expression. -/
def goneOver (objects : List Tree) : List Tree :=
  if objects.isEmpty then [] else [.make .object objects]

/-- What is left of the properties of an object, given those before them whose objects are gone
over. -/
def propertiesRemain (before : List Tree) : List Remaining → List Tree
  | [] => goneOver before
  | (t, rest) :: more =>
    if t.isSpread then propertiesRemain (before ++ [t]) more
    else goneOver before ++ rest.toList ++ propertiesRemain [] more

/-- A template that consists of expressions only. -/
def bareTemplate (es : List Tree) : List Tree :=
  if es.isEmpty then []
  else
    let quasi := Tree.make (.quasi "" (some "")) []
    [.make .template (quasi :: es.flatMap fun e => [e, quasi])]

/-- What is left of the expressions of a template, given those before them whose conversion to a text
may have effects. -/
def piecesRemain (before : List Tree) : List Remaining → List Tree
  | [] => bareTemplate before
  | (t, rest) :: more =>
    if t.isQuasi then piecesRemain before more
    else if !t.isPlain then piecesRemain (before ++ [t]) more
    else
      match rest with
      | some e => bareTemplate before ++ e :: piecesRemain [] more
      | none => piecesRemain before more

/-! ## 2. Sums -/

/-- A sum with the texts in it made empty, and whether it is a text. -/
def bareSum (names : Names) : Tree → Tree × Bool
  | .node (.binary .add) span [l, r] =>
    let empty := (Constant.string "").toTree
    let (left, isText) := bareSum names l
    if isText then
      let left := if left.acts names then left else empty
      if r.isPlain && !r.acts names then (left, true)
      else (.node (.binary .add) span [left, r], true)
    else if r.isTextLike then
      (.node (.binary .add) span [left, if r.acts names then r else empty], true)
    else (.node (.binary .add) span [left, r], false)
  | t => (t, t.isTextLike)

/-- What is left of a sum. -/
def sumRemains (names : Names) (sum : Tree) : Option Tree :=
  let (bare, _) := bareSum names sum
  match bare.label with
  | .string .. => none
  | _ => some bare

/-! ## 3. Logical operators -/

/-- What is left of a logical operator whose right side is needed. -/
def logicalRemains (names : Names) (op : LogicalOp) (span : Span) (left right : Tree) : Tree :=
  let left := if op == .coalesce then left else simplifiedTest names left
  let whole := Tree.node (.logical op) span [left, right]
  match op, left with
  | .and, .node (.binary .ne) _ _ | .or, .node (.binary .eq) _ _ =>
    match nullTest? left with
    | some x =>
      ((x.identifierName?.filter fun s => !names.isGlobal s).bind fun name =>
        guardedChain? name x right).getD whole
    | none => whole
  | .and, .node (.binary .eq) _ _ | .or, .node (.binary .ne) _ _ =>
    match nullTest? left with
    | some x => .node (.logical .coalesce) span [x, right]
    | none => whole
  | _, _ => whole

/-! ## 4. Classes -/

/-- What making a class evaluates, if nothing else happens then. -/
def classRemains (names : Names) (parts : List Tree) : Option (List Tree) :=
  match parts with
  | [marks, _, _, parent, _, _, body] =>
    let keeps :=
      !marks.parts.isEmpty || (parent.label matches .arrow ..) || body.parts.any keepsClass
    if keeps then none
    else some (parent.present?.toList.filter (Tree.acts names) ++ body.parts.flatMap keyOf)
  | _ => none
where
  /-- Making the class does something with the member. -/
  keepsClass (member : Tree) : Bool :=
    match member.label, member.parts with
    | .methodDefinition .., marks :: _ => !marks.parts.isEmpty
    | .field _ _ modifiers, [marks, _, _, value] =>
      !marks.parts.isEmpty || (modifiers.isStatic && !value.isAbsent && value.acts names)
    | .staticBlock, [statements] => !statements.parts.isEmpty
    | _, _ => true
  /-- The key of a member, if evaluating it has effects. -/
  keyOf (member : Tree) : List Tree :=
    match member.label, member.parts with
    | .methodDefinition _ true _, _ :: key :: _ => if key.acts names then [key] else []
    | .field true _ _, _ :: key :: _ => if key.acts names then [key] else []
    | _, _ => []

/-! ## 5. Functions called where they are written -/

/-- What is left of calling a function without parameters that is written in the place of the call: nothing
of one without statements, and of an arrow function the only expression that it evaluates. -/
def writtenCallRemains : Tree → Option (Option Tree)
  | .node (.function .expression ..) _ [_, _, _, list, _, body] =>
    if list.parts.isEmpty && hasNone body then some none else none
  | .node (.arrow isAsync _ _ _) _ [_, list, _, body] =>
    if !list.parts.isEmpty then none
    else if hasNone body then some none
    else
      match isAsync || !(body.part 0).parts.isEmpty, (body.part 1).parts with
      | false, [.node .expressionStatement _ [e]] => some (some e)
      | false, [.node .return _ [e]] => some (if e.isAbsent then none else some e)
      | _, _ => none
  | _ => none
where
  /-- The body has neither directives nor statements. -/
  hasNone (body : Tree) : Bool := (body.part 0).parts.isEmpty && (body.part 1).parts.isEmpty

/-! ## 6. All expressions -/

/-- What is left of a node whose value is not used, given what is left of its parts. -/
def nodeRemains (names : Names) (label : Label) (span : Span) (parts : List Remaining) :
    Option Tree :=
  let whole := Tree.node label span (parts.map (·.1))
  let ifActing := if whole.acts names then some whole else none
  match label, parts with
  | .parenthesized, [e] => e.2
  | .sequence, _ => joined (allRemaining parts)
  | .unary op, [e] =>
    match op with
    | .typeOf => if e.1.identifierName?.isSome then none else e.2
    | .voidOf | .logicalNot => e.2
    | .plus | .minus | .bitNot | .deleteOf => ifActing
  | .binary op, [l, r] =>
    match op with
    | .strictEq | .strictNe | .eq | .ne | .lt | .le | .gt | .ge =>
      joined (l.2.toList ++ r.2.toList)
    | .add => sumRemains names whole
    | _ => ifActing
  | .logical op, [l, r] =>
    match r.2 with
    | none => l.2
    | some right => some (logicalRemains names op span l.1 right)
  | .conditional, [test, yes, no] =>
    match yes.2, no.2 with
    | none, none => test.2
    | some yes, none => some (andOr .and test.1 yes)
    | none, some no => some (andOr .or test.1 no)
    | some yes, some no => some (.node .conditional span [test.1, yes, no])
  | .array, _ => arrayRemains span parts
  | .object, _ => joined (propertiesRemain [] parts)
  | .property computed _, [key, value] =>
    joined ((if computed then key.2.toList else []) ++ value.2.toList)
  | .propertyMethod _ computed, [key, _] => if computed then key.2 else none
  | .template, _ => joined (piecesRemain [] parts)
  | .assign _, [target, value] =>
    match target.1.identifierName? with
    | some name => if names.isNeverRead name span.start then value.2 else some whole
    | none => some whole
  | .call optional isPure, callee :: _ :: args =>
    let harmless := isPure ||
      callee.1.identifierName?.any fun name => (names.harmlessAt? name span.start).isSome
    if harmless then joined (argumentsRemain args)
    else
      match if args.isEmpty && !optional then writtenCallRemains callee.1 else none with
      | some rest => rest
      | none => ifActing
  | .new true, _ :: _ :: args => joined (argumentsRemain args)
  | .class .., _ =>
    match classRemains names (parts.map (·.1)) with
    | some es => joined es
    | none => some whole
  | _, _ => ifActing

/-- What is left of an expression whose value is not used. -/
def Tree.remains (names : Names) (t : Tree) : Option Tree :=
  t.evaluate (nodeRemains names)

end PackageRefs.Script
