/-
# Going over trees

Ways to go over a whole tree: `mapUp` replaces every node after its parts, `evaluate` computes a
value of every node from those of its parts, `anyNode` and `gather` look at every node.  `same`
compares trees without regard to where they stand.
-/
import PackageRefs.Script.Tree

namespace PackageRefs.Script

namespace Tree

/-! ## 1. From the leaves to the root -/

mutual

/-- Replaces every node of the tree, a node's parts before the node itself. -/
def mapUp (f : Tree → Tree) : Tree → Tree
  | node label span parts => f (node label span (mapUpAll f parts))

/-- Replaces every node of several trees. -/
def mapUpAll (f : Tree → Tree) : List Tree → List Tree
  | [] => []
  | t :: ts => mapUp f t :: mapUpAll f ts

end

mutual

/-- A value computed from the leaves to the root: that of a node from its label, its place in the
text, and its parts with their values. -/
def evaluate {α : Type} (f : Label → Span → List (Tree × α) → α) : Tree → α
  | node label span parts => f label span (evaluateAll f parts)

/-- Several trees with their values. -/
def evaluateAll {α : Type} (f : Label → Span → List (Tree × α) → α) :
    List Tree → List (Tree × α)
  | [] => []
  | t :: ts => (t, evaluate f t) :: evaluateAll f ts

end

mutual

/-- Some node of the tree has the property. -/
def anyNode (p : Tree → Bool) : Tree → Bool
  | node label span parts => p (node label span parts) || anyNodeOf p parts

/-- Some node of one of the trees has the property. -/
def anyNodeOf (p : Tree → Bool) : List Tree → Bool
  | [] => false
  | t :: ts => t.anyNode p || anyNodeOf p ts

end

mutual

/-- What the nodes of the tree give, in reading order. -/
def gather {α : Type} (f : Tree → List α) : Tree → List α
  | node label span parts => f (node label span parts) ++ gatherAll f parts

/-- What the nodes of several trees give, in reading order. -/
def gatherAll {α : Type} (f : Tree → List α) : List Tree → List α
  | [] => []
  | t :: ts => t.gather f ++ gatherAll f ts

end

mutual

/-- The trees are the same, wherever they stand in a text. -/
def same : Tree → Tree → Bool
  | node l _ ps, node k _ qs => l == k && sameAll ps qs

/-- The trees of two lists are the same one by one. -/
def sameAll : List Tree → List Tree → Bool
  | [], [] => true
  | t :: ts, u :: us => t.same u && sameAll ts us
  | _, _ => false

end

/-! ## 2. Making nodes -/

/-- A node that stands nowhere in the text. -/
def make (label : Label) (parts : List Tree) : Tree := node label ⟨0, 0⟩ parts

/-- A number literal. -/
def ofNumber (x : PackageRefs.Number.Binary64) : Tree := make (.number x) []

/-- The expression `void 0`, the shortest one that is undefined. -/
def undefined : Tree := make (.unary .voidOf) [ofNumber .zero]

/-- The operator `!` before an expression. -/
def logicalNot (e : Tree) : Tree := make (.unary .logicalNot) [e]

/-- A truth value as written in the fewest characters: `!0` or `!1`. -/
def ofBool (b : Bool) : Tree :=
  logicalNot (ofNumber (if b then .zero else .ofNat 1))

/-- An expression as a statement. -/
def asStatement (e : Tree) : Tree := make .expressionStatement [e]

/-- A statement that does nothing. -/
def emptyStatement : Tree := make .emptyStatement []

/-- The expressions of a sequence, or the expression itself. -/
def items : Tree → List Tree
  | node .sequence _ es => es
  | e => [e]

/-- One expression after the other, for the value of the last. -/
def sequenceOf (es : List Tree) : Tree :=
  match es.flatMap items with
  | [e] => e
  | es => make .sequence es

/-- One expression after another, for the value of the second. -/
def andThen (first second : Tree) : Tree := sequenceOf [first, second]

/-- The statements of a block, or the statement itself; none if it is missing. -/
def statementList : Tree → List Tree
  | node .block _ [node .statements _ ts] => ts
  | node .emptyStatement _ _ | node .absent _ _ => []
  | t => [t]

/-- A block of statements. -/
def blockOf (ts : List Tree) : Tree := make .block [make .statements ts]

end Tree

end PackageRefs.Script
