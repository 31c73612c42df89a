/-
# A first pass over a tree before compression

Brings expressions and statements that say the same into one form, so that the later rules need to
know that form only.

* Parentheses go; the writer puts them where they are needed.
* The global names `undefined`, `Infinity` and `NaN` become the values that they stand for.
* A `while` becomes a `for`, and `const` becomes `let` below the top of a script, but not where code is run
  from a text.
* A call of a function that a comment declares to have no effect has the mark of such a call, and so has
  a construction by it or by a global maker that does nothing else.
* Statements that do nothing and `debugger` go out of lists of statements, and a directive that asks for
  strict code goes where the code around is strict.
-/
import PackageRefs.Script.Compress.KnownGlobal
import PackageRefs.Script.Compress.Names

namespace PackageRefs.Script.Compress

open PackageRefs.Number

/-! ## 1. Single nodes -/

/-- A part of a node as it was, and its new form. -/
abbrev Part := Tree × Tree

/-- The value that a global name stands for. -/
def namedValue? : String → Option Tree
  | "undefined" => some Tree.undefined
  | "Infinity" => some (.ofNumber (.infinite false))
  | "NaN" => some (.ofNumber .nan)
  | _ => none

/-- A declaration of variables that are never written again, with `let` in place of `const`. -/
def relaxed (names : Names) : Tree → Tree
  | .node (.variableList .const isDeclare) span ds =>
    let bound := ds.flatMap fun d => (d.part 0).boundNames
    let kind := if bound.all fun name => (names.usageOf name).writes == 0 then .let else .const
    .node (.variableList kind isDeclare) span ds
  | t => t

/-- A statement with its declaration relaxed, also one that is exported. -/
def relaxedStatement (names : Names) : Tree → Tree
  | .node (.exportNamed typeOnly) span (declaration :: rest) =>
    .node (.exportNamed typeOnly) span (relaxed names declaration :: rest)
  | t => relaxed names t

/-- A node that holds statements, with its declarations relaxed. -/
def relaxedList (names : Names) : Tree → Tree
  | .node .statements span parts => .node .statements span (parts.map (relaxedStatement names))
  | t => t

/-- The statement does nothing by itself. -/
def isIdle (t : Tree) : Bool := t.label == .emptyStatement || t.label == .debugger

/-- A name in this part of a node is no expression with a value. -/
def namesPlace (label : Label) (index : Nat) : Bool :=
  match label, index with
  | .exportSpecifier _, _ | .element, 0 | .element, 4 | .tagMember _, _ | .typeReference, 0
  | .typeQuery, 0 | .qualifiedName _, _ | .unary .deleteOf, 0 => true
  | _, _ => label.holdsTarget index

/-- What is deleted, in its new form: a name keeps its form, also at the end of a sequence. -/
def deletedForm (old new : Tree) : Tree :=
  match old.withoutParentheses with
  | .node (.identifier name) span _ => .node (.identifier name) span []
  | .node .sequence _ es =>
    match es.getLast?.map Tree.withoutParentheses, new with
    | some (.node (.identifier name) span _), .node .sequence s news =>
      .node .sequence s (news.dropLast ++ [.node (.identifier name) span []])
    | _, _ => new
  | _ => new

/-- The new form of a node's parts. -/
def normalParts (label : Label) (parts : List Part) : List Tree :=
  parts.mapIdx fun i (old, new) =>
    if label == .unary .deleteOf then deletedForm old new
    else if namesPlace label i && old.identifierName?.isSome then old
    else new

/-- A node in its normal form, given its parts and their normal forms. -/
def normalNode (names : Names) (label : Label) (span : Span) (parts : List Part) : Tree :=
  let news := normalParts label parts
  let node := Tree.node label span news
  let runsText := names.dynamic && node.anyNode Tree.isDynamic
  match label, news with
  | .parenthesized, [e] => e
  | .identifier name, _ => if names.isGlobal name then (namedValue? name).getD node else node
  | .unary .voidOf, [e] =>
    match e.identifierName? with
    | some name => if names.isGlobal name then node else Tree.undefined
    | none => node
  | .call optional false, callee :: _ =>
    if callee.identifierName?.any names.declaredHarmless.contains then
      .node (.call optional true) span news
    else node
  | .new false, callee :: _ :: args =>
    let isPure := callee.identifierName?.any names.declaredHarmless.contains ||
      KnownGlobal.isConstruction names.isGlobal callee args
    .node (.new isPure) span news
  | .while, [test, body] => .node .for span [.absent, test, .absent, body]
  | .statements, _ => .node label span (news.filter fun t => !isIdle t)
  | .block, _ | .functionBody, _ | .case, _ | .staticBlock, _ | .namespaceBody, _ =>
    .node label span (news.map fun t => if runsText then t else relaxedList names t)
  | .for, first :: rest | .forIn, first :: rest | .forOf _, first :: rest =>
    if runsText then node else .node label span (relaxed names first :: rest)
  | _, _ => node

/-! ## 2. Strict code -/

/-- Directives without the one that asks for strict code. -/
def withoutStrictMark : Tree → Tree
  | .node label span parts => .node label span (parts.filter (·.label != .directive "use strict"))

mutual

/-- The tree with directives that ask for strict code only where the code around is not strict. -/
def withNeededMarks (isStrict : Bool) : Tree → Tree
  | .node label span [directives, statements] =>
    match label with
    | .program _ | .functionBody | .namespaceBody =>
      let kept := if isStrict then withoutStrictMark directives else directives
      .node label span [kept, withNeededMarks (isStrict || directives.asksForStrict) statements]
    | _ =>
      .node label span [withNeededMarks isStrict directives, withNeededMarks isStrict statements]
  | .node label span parts =>
    .node label span (withNeededMarksIn (isStrict || label matches .class ..) parts)

/-- Trees with directives that ask for strict code only where the code around is not strict. -/
def withNeededMarksIn (isStrict : Bool) : List Tree → List Tree
  | [] => []
  | t :: ts => withNeededMarks isStrict t :: withNeededMarksIn isStrict ts

end

/-- A tree in normal form. -/
def normalize (names : Names) (t : Tree) : Tree :=
  withNeededMarks names.isModule (t.evaluate (normalNode names))

end PackageRefs.Script.Compress
