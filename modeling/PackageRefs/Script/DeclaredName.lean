/-
# Declared names

The names that patterns bind and that declarations introduce, in the order in which they stand, and
the scope that each of them belongs to.  A pattern may bind many names or none.
-/
import PackageRefs.Script.Tree

namespace PackageRefs.Script

/-! ## 1. Names that a statement declares -/

mutual

/-- The names that a pattern binds. -/
def Tree.boundNames : Tree → List String
  | .node (.binding name) _ _ => [name]
  | .node .patternDefault _ [pattern, _] => pattern.boundNames
  | .node (.typedPattern _) _ [pattern, _] => pattern.boundNames
  | .node (.patternProperty _ _) _ [_, pattern] => pattern.boundNames
  | .node (.parameter _) _ [_, pattern] => pattern.boundNames
  | .node .objectPattern _ parts => boundNamesOfAll parts
  | .node .arrayPattern _ parts => boundNamesOfAll parts
  | .node .rest _ parts => boundNamesOfAll parts
  | .node .parameters _ parts => boundNamesOfAll parts
  | .node .importSpecifiers _ parts => boundNamesOfAll parts
  | .node .importDefault _ parts => boundNamesOfAll parts
  | .node .importNamespace _ parts => boundNamesOfAll parts
  | .node (.importNamed _) _ parts => boundNamesOfAll parts
  | _ => []

/-- The names that several patterns bind. -/
def boundNamesOfAll : List Tree → List String
  | [] => []
  | t :: ts => t.boundNames ++ boundNamesOfAll ts

end

/-- The name that a pattern is, perhaps with a type. -/
def Tree.plainName? : Tree → Option String
  | .node (.binding name) _ _ => some name
  | .node (.typedPattern _) _ [.node (.binding name) _ _, _] => some name
  | _ => none

/-- The names of functions that are declared in the place of a statement, without a block around
them. -/
def Tree.looseFunctionNames : Tree → List String
  | .node (.function .declaration ..) _ (name :: _) => name.boundNames
  | .node (.labeled _) _ [body] => body.looseFunctionNames
  | .node .if _ [_, yes, no] => yes.looseFunctionNames ++ no.looseFunctionNames
  | _ => []

/-- The names that a declaration statement declares in the scope that it stands in. -/
def Tree.declaredNames : Tree → List String
  | .node (.variableList _ _) _ ds => ds.flatMap fun d => (d.part 0).boundNames
  | .node (.function .declaration ..) _ (name :: _) => name.boundNames
  | .node (.class true ..) _ (_ :: name :: _) => name.boundNames
  | .node (.importDeclaration ..) _ (specifiers :: _) => specifiers.boundNames
  | .node (.exportNamed _) _ (declaration :: _) => declaration.declaredNames
  | .node .exportDefault _ [declaration] => declaration.declaredNames
  | .node (.enum ..) _ (name :: _) => name.boundNames
  | .node (.namespace ..) _ (name :: _) => name.boundNames
  | .node .importEquals _ (name :: _) => name.boundNames
  | .node .interface _ (name :: _) => name.boundNames
  | .node (.typeAlias _) _ (name :: _) => name.boundNames
  | .node (.labeled name) span parts => (Tree.node (.labeled name) span parts).looseFunctionNames
  | .node .if span parts => (Tree.node .if span parts).looseFunctionNames
  | _ => []

/-! ## 2. Names that are declared deeper inside -/

/-- The node begins a function or another body that keeps its variables to itself. -/
def Tree.keepsVariables (t : Tree) : Bool :=
  match t.label with
  | .function .. | .arrow .. | .class .. | .staticBlock | .namespaceBody => true
  | _ => false

mutual

/-- The names that `var` declares anywhere in a tree, outside the functions in it. -/
def Tree.hoistedNames : Tree → List String
  | .node (.variableList .var isDeclare) span ds =>
    (Tree.node (.variableList .var isDeclare) span ds).declaredNames ++ hoistedNamesOfAll ds
  | .node label span parts =>
    if (Tree.node label span parts).keepsVariables then [] else hoistedNamesOfAll parts

/-- The names that `var` declares anywhere in several trees. -/
def hoistedNamesOfAll : List Tree → List String
  | [] => []
  | t :: ts => t.hoistedNames ++ hoistedNamesOfAll ts

end

/-- The names that a list of statements declares in the scope of its function or of the script. -/
def scopeNames (statements : List Tree) : List String :=
  (statements.flatMap fun t =>
    t.declaredNames ++ t.hoistedNames).eraseDups

/-- The names that a list of statements declares in the scope of its block. -/
def blockNames (statements : List Tree) : List String :=
  (statements.flatMap fun t =>
    match t.label with
    | .variableList .var _ => []
    | _ => t.declaredNames).eraseDups

end PackageRefs.Script
