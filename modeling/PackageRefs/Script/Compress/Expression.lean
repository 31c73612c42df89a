/-
# Shorter expressions

`shortExpression` applies the rules for single expressions (see `Operation`, `Literal` and `Call`), and
those for functions, classes and sequences.  Each rule takes a node whose parts are already short, and
gives a node that has the same value and effects.
-/
import PackageRefs.Script.Compress.Call

namespace PackageRefs.Script.Compress

open PackageRefs.Number

/-! ## 1. Functions and classes -/

/-- An arrow function whose only statement gives a value back. -/
def foldArrow (label : Label) (span : Span) (parts : List Tree) : Tree :=
  match label, parts with
  | .arrow isAsync expressionBody wrapped isPure, [generics, list, type, body] =>
    match expressionBody, body with
    | false, .node .functionBody s [directives, .node .statements t [.node .return _ [e]]] =>
      if directives.parts.isEmpty && !e.isAbsent then
        let body := .node .functionBody s [directives, .node .statements t [.asStatement e]]
        .node (.arrow isAsync true wrapped isPure) span [generics, list, type, body]
      else .node label span parts
    | _, _ => .node label span parts
  | _, _ => .node label span parts

/-- The name of a function or a class, if it is used. -/
def usedName (names : Names) (name : Tree) : Tree :=
  match name.label with
  | .binding s => if Names.isNumbered s && names.isUnused s then .absent else name
  | _ => name

/-- The private names that a tree uses as properties. -/
def usedPrivateNames (t : Tree) : List String :=
  t.gather fun t =>
    match t.label with
    | .privateMember name _ | .privateIn name => [name]
    | _ => []

/-- Members of a class without those private ones that are not used and do nothing, and without blocks of
no statements. -/
def usedMembers (names : Names) (members : List Tree) : List Tree :=
  let used := members.flatMap usedPrivateNames
  members.filter fun m =>
    match m.label, m.parts with
    | .methodDefinition .., [marks, .node (.privateName name) _ _, _] =>
      used.contains name || !marks.parts.isEmpty
    | .field .., [marks, .node (.privateName name) _ _, _, value] =>
      used.contains name || !marks.parts.isEmpty || (!value.isAbsent && value.acts names)
    | .staticBlock, [statements] => !statements.parts.isEmpty
    | _, _ => true

/-! ## 2. Sequences -/

/-- A sequence. -/
def foldSequence (names : Names) (es : List Tree) : Tree :=
  let es := es.flatMap Tree.items
  match es.getLast? with
  | some last =>
    .sequenceOf ((es.dropLast.filterMap (Tree.remains names)).flatMap Tree.items ++ [last])
  | none => .make .sequence es

/-! ## 3. All expressions -/

/-- The rules for an expression whose parts are short already, given what is done with it. -/
def shortExpression (names : Names) (purpose : Purpose) : Tree → Tree
  | .node label span parts =>
    let parts := continuedChain label parts
    match label, parts with
    | .bool b, _ => .ofBool b
    | .unary op, [e] => foldUnary names op span e
    | .binary op, [l, r] => foldBinary names op span l r
    | .logical op, [l, r] => foldLogical names op span l r
    | .conditional, [test, yes, no] => choose names test yes no
    | .sequence, es => foldSequence names es
    | .index optional, [object, key] => foldIndex names purpose optional span object key
    | .chain, [e] => foldChain span e
    | .array, _ => foldArray span parts
    | .object, _ => foldObject names span parts
    | .classBody, _ => .node .classBody span (usedMembers names parts)
    | .member name optional, [object] => foldMember names purpose name optional span object
    | .call optional isPure, _ => foldCall names optional isPure span parts
    | .new isPure, _ => foldNew names isPure span parts
    | .template, _ => foldTemplate names span parts
    | .assign op, [target, value] => foldAssign names op span target value
    | .arrow .., _ => foldArrow label span parts
    | .function .expression .., name :: rest => .node label span (usedName names name :: rest)
    | .class false .., marks :: name :: rest =>
      .node label span (marks :: usedName names name :: rest)
    | .property computed shorthand, [key, value] =>
      let (computed, key) := shortKey .property computed key
      .node (.property computed shorthand) span [key, value]
    | .propertyMethod kind computed, [key, value] =>
      let (computed, key) := shortKey (if kind == .method then .free else .property) computed key
      .node (.propertyMethod kind computed) span [key, value]
    | .patternProperty computed shorthand, [key, value] =>
      let (computed, key) := shortKey .free computed key
      .node (.patternProperty computed shorthand) span [key, value]
    | .targetProperty computed shorthand, [key, value] =>
      let (computed, key) := shortKey .free computed key
      .node (.targetProperty computed shorthand) span [key, value]
    | .methodDefinition kind computed modifiers, [marks, key, value] =>
      let (computed, key) := shortKey (.method modifiers.isStatic) computed key
      .node (.methodDefinition kind computed modifiers) span [marks, key, value]
    | .field computed accessor modifiers, [marks, key, type, value] =>
      let (computed, key) := shortKey (.field modifiers.isStatic) computed key
      .node (.field computed accessor modifiers) span [marks, key, type, value]
    | _, _ => .node label span parts

end PackageRefs.Script.Compress
