/-
# Expressions as targets of assignments

What stands before `=` is read as an expression first.  When the `=` comes, the expression is turned
into a target: a name or an access stays as it is, an array or an object becomes a pattern, and
anything else cannot be assigned to.
-/
import PackageRefs.Script.Parser.State
import PackageRefs.Script.Traversal

namespace PackageRefs.Script

/-- The kinds of syntax that hold a place for a value. -/
def Label.isPlace : Label → Bool
  | .identifier _ | .member _ false | .privateMember _ false | .index false => true
  | _ => false

/-- An expression as a target that is no pattern. -/
def Tree.simpleTarget? : Tree → Option Tree
  | .node .parenthesized _ [inner] => inner.simpleTarget?
  | .node .asType s [e, t] => (e.simpleTarget?).map fun e => .node .asType s [e, t]
  | .node .satisfies s [e, t] => (e.simpleTarget?).map fun e => .node .satisfies s [e, t]
  | .node .typeAssertion s [t, e] => (e.simpleTarget?).map fun e => .node .typeAssertion s [t, e]
  | .node .nonNull s [e] => (e.simpleTarget?).map fun e => .node .nonNull s [e]
  | t => if t.label.isPlace then some t else none

/-- Values given to short properties, each under the place of its property. -/
abbrev ShortDefaults := List (Nat × Tree)

/-- An expression as a target that is no pattern, or what is wrong with it. -/
def Tree.asPlace (t : Tree) : Except Diagnostic Tree :=
  match t.simpleTarget? with
  | some t => .ok t
  | none => .error .notAssignable

mutual

/-- An expression as a target, or what is wrong with it. -/
def Tree.asTarget (defaults : ShortDefaults) : Tree → Except Diagnostic Tree
  | .node .array s parts => do return .node .arrayTarget s (← elementsAsTargets defaults parts)
  | .node .object s parts => do return .node .objectTarget s (← propertiesAsTargets defaults parts)
  | .node .parenthesized _ [inner] =>
    match inner.label with
    | .array | .object => .error .notAssignable
    | _ => inner.asPlace
  | t => t.asPlace

/-- An element of an array, or the value of a property, as a target with or without a default. -/
def Tree.asTargetWithDefault (defaults : ShortDefaults) : Tree → Except Diagnostic Tree
  | .node (.assign .plain) s [left, right] => .ok (.node .targetDefault s [left, right])
  | t => t.asTarget defaults

/-- The elements of an array as targets; only the last may be spread. -/
def elementsAsTargets (defaults : ShortDefaults) : List Tree → Except Diagnostic (List Tree)
  | [] => .ok []
  | .node .elision s _ :: r => do return .node .elision s [] :: (← elementsAsTargets defaults r)
  | [.node .spread s [e]] => do return [.node .rest s [← e.asTarget defaults]]
  | .node .spread _ _ :: _ => .error .spreadLast
  | e :: r => do
    let first ← e.asTargetWithDefault defaults
    let others ← elementsAsTargets defaults r
    return first :: others

/-- The properties of an object as targets; only the last may be spread. -/
def propertiesAsTargets (defaults : ShortDefaults) : List Tree → Except Diagnostic (List Tree)
  | [] => .ok []
  | [.node .spread s [e]] => do return [.node .rest s [← e.asTarget defaults]]
  | .node .spread _ _ :: _ => .error .spreadLast
  | .node (.property computed shorthand) s [k, v] :: r => do
    let value ←
      match shorthand, defaults.lookup s.start with
      | true, some d => .ok (.node .targetDefault s [v, d])
      | _, _ => v.asTargetWithDefault defaults
    let others ← propertiesAsTargets defaults r
    return .node (.targetProperty computed shorthand) s [k, value] :: others
  | _ :: _ => .error .notAssignable

end

/-- The node is an object as a target that puts the rest of its properties into another pattern. -/
def Tree.restsInPattern (t : Tree) : Bool :=
  t.label == .objectTarget && t.parts.any fun p =>
    p.label == .rest && ((p.part 0).label == .objectTarget || (p.part 0).label == .arrayTarget)

namespace Parser

/-- Turns an expression into a target, or gives up.  The defaults of short properties inside it are
in their right place now. -/
def target (e : Tree) : Parser Tree := do
  let defaults ← read State.shortDefaults
  match e.asTarget defaults with
  | .ok t =>
    let isOutside (d : Nat × Tree) : Bool := d.1 < e.span.start || e.span.stop ≤ d.1
    modify fun s => { s with shortDefaults := s.shortDefaults.filter isOutside }
    let commas ← read State.restCommas
    let isClosedByComma (n : Tree) : Bool :=
      (n.label == .arrayTarget || n.label == .objectTarget) && commas.contains n.span.start
    complainIf (t.anyNode Tree.restsInPattern) .restOfPatternTarget
    complainIf (!commas.isEmpty && t.anyNode isClosedByComma) .restTrailingComma
    return t
  | .error d => fatal d

/-- Turns an expression into a target that is no pattern, or gives up. -/
def simpleTarget (e : Tree) : Parser Tree := do
  match e.asPlace with
  | .ok t => return t
  | .error d => fatal d

end Parser

end PackageRefs.Script
