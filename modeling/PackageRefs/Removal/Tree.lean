/-
# Taking references out of a tree

Removal works on statement lists and on expressions.

* In a statement list, a variable that is set by a matching `require` is dropped from its
  declaration, a declaration that lost all its variables is dropped, and so is a matching import and
  a statement that only calls `require`.
* Anywhere else, a matching call of `require` becomes `void 0`, so that the expression around it
  stays whole.

The number that comes with the new tree counts variables, statements and calls that went.
-/
import PackageRefs.Reference.Node

namespace PackageRefs.Script.Tree

/-- The expression `void 0` in the place of another. -/
def voidZero (span : Span) : Tree :=
  node (.unary .voidOf) span [node (.number .zero) span []]

/-- The node is a call of `require`, perhaps in parentheses, whose source is to go. -/
def isTarget (goes : String → Bool) (t : Tree) : Bool := t.requiredBy?.any goes

mutual

/-- The tree without the references that are to go, and how many went.  The call right inside an
optional chain stays, as `void 0` cannot take its place there. -/
def remove (goes : String → Bool) : Tree → Tree × Nat
  | node .statements span parts =>
    let (kept, count) := removeFromStatements goes parts
    (node .statements span kept, count)
  | node .chain span [node inner innerSpan parts] =>
    let (kept, count) := removeFromParts goes parts
    (node .chain span [node inner innerSpan kept], count)
  | node label span parts =>
    if (node label span parts).isTarget goes then (voidZero span, 1)
    else
      let (kept, count) := removeFromParts goes parts
      (node label span kept, count)

/-- The parts of a node without the references that are to go. -/
def removeFromParts (goes : String → Bool) : List Tree → List Tree × Nat
  | [] => ([], 0)
  | t :: ts =>
    let (first, count) := remove goes t
    let (others, more) := removeFromParts goes ts
    (first :: others, count + more)

/-- The statements of a list without the references that are to go. -/
def removeFromStatements (goes : String → Bool) : List Tree → List Tree × Nat
  | [] => ([], 0)
  | node (.variableList kind isDeclare) span ds :: ts =>
    let (kept, count) := removeFromDeclarators goes ds
    let (others, more) := removeFromStatements goes ts
    match kept with
    | [] => (others, count + more)
    | _ => (node (.variableList kind isDeclare) span kept :: others, count + more)
  | t :: ts =>
    let (first, count) := remove goes t
    let (others, more) := removeFromStatements goes ts
    if t.statementSource?.any goes then (others, more + 1) else (first :: others, count + more)

/-- The variables of a declaration without those that are to go. -/
def removeFromDeclarators (goes : String → Bool) : List Tree → List Tree × Nat
  | [] => ([], 0)
  | d :: ds =>
    let (first, count) := remove goes d
    let (others, more) := removeFromDeclarators goes ds
    if d.declaratorSource?.any goes then (others, more + 1) else (first :: others, count + more)

end

end PackageRefs.Script.Tree
