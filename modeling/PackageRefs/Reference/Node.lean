/-
# References in a tree

A script refers to a package in two ways: an import declaration names its source, and a call of
`require` with a string as its first argument names it too.  `importSource?` and `requireSource?`
decide this for one node; both the search for references and their removal ask them, so the two
agree on what a reference is.

`references` lists the references of a tree in reading order.
-/
import PackageRefs.Script.Tree

namespace PackageRefs

open PackageRefs.Script

/-- How a script refers to a package. -/
inductive ReferenceKind where
  | import | require
  deriving DecidableEq, Inhabited, Repr

/-- The word that makes the reference. -/
def ReferenceKind.text : ReferenceKind → String
  | .import => "import"
  | .require => "require"

/-- A reference to a package: how it is made, and the text that names the package. -/
structure Reference where
  kind : ReferenceKind
  request : String
  deriving DecidableEq, Inhabited, Repr

/-- How the text of a reference is compared with a package's name. -/
inductive MatchMode where
  | exact | substring
  deriving DecidableEq, Inhabited, Repr

/-- The first list occurs in the second without a gap. -/
def occursIn (part : List Char) : List Char → Bool
  | [] => part.isEmpty
  | c :: r => part.isPrefixOf (c :: r) || occursIn part r

/-- The text of a reference counts as the target. -/
def MatchMode.accepts (mode : MatchMode) (source target : String) : Bool :=
  match mode with
  | exact => source == target
  | substring => occursIn target.toList source.toList

namespace Script.Tree

/-! ## 1. Single nodes -/

/-- The source of an import declaration. -/
def importSource? : Tree → Option String
  | node (.importDeclaration ..) _ [_, source, _] => source.stringValue?
  | _ => none

/-- The string given to a call of `require` as its first argument. -/
def requireSource? : Tree → Option String
  | node (.call ..) _ (callee :: _ :: argument :: _) =>
    if callee.identifierName? == some "require" then argument.stringValue? else none
  | _ => none

/-- The source that an expression, without the parentheses around it, names by calling `require`. -/
def requiredBy? (t : Tree) : Option String := t.withoutParentheses.requireSource?

/-- The source that a variable is initialised with. -/
def declaratorSource? : Tree → Option String
  | node (.declarator _) _ [_, value] => value.requiredBy?
  | _ => none

/-- What a statement is as far as references go. -/
inductive StatementKind where
  | import | call | other
  deriving DecidableEq, Inhabited, Repr

/-- The name of the kind. -/
def StatementKind.text : StatementKind → String
  | .import => "import"
  | .call => "call"
  | .other => "other"

/-- What a statement is as far as references go. -/
def statementKind : Tree → StatementKind
  | node (.importDeclaration ..) _ _ => .import
  | node .expressionStatement _ [e] =>
    match e.withoutParentheses.label with
    | .call .. => .call
    | _ => .other
  | _ => .other

/-- The source that a statement names as a whole: an import, or a statement that only calls
`require`. -/
def statementSource? : Tree → Option String
  | node .expressionStatement _ [e] => e.requiredBy?
  | t => t.importSource?

/-! ## 2. Whole trees -/

/-- The reference that the node itself makes. -/
def ownReference? (t : Tree) : Option Reference :=
  match t.importSource? with
  | some source => some ⟨.import, source⟩
  | none => t.requireSource?.map (⟨.require, ·⟩)

mutual

/-- The references in a tree, in reading order. -/
def references : Tree → List Reference
  | node label span parts =>
    (node label span parts).ownReference?.toList ++ referencesIn parts

/-- The references in several trees. -/
def referencesIn : List Tree → List Reference
  | [] => []
  | t :: ts => t.references ++ referencesIn ts

end

end Script.Tree

end PackageRefs
