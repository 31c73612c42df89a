/-
# Scopes and distinct names

Which names a node declares for the trees below it, and a form of a script in which no two variables
share a name.

`Tree.numbered` gives each variable that is not declared at the top of a script a name of its own: the
old one with `#` and a number behind it.  No name that can be written has such a mark, so a numbered
name is never mistaken for another one.  Names at the top keep their form, since other scripts may use
them, and so do names that the script does not declare.
-/
import PackageRefs.Script.Compress.Names

namespace PackageRefs.Script

/-! ## 1. Scopes -/

/-- The statements of a body. -/
def Tree.bodyStatements : Tree → List Tree
  | .node .functionBody _ [_, statements] => statements.parts
  | .node .namespaceBody _ [_, statements] => statements.parts
  | .node .staticBlock _ [statements] => statements.parts
  | .node .block _ [statements] => statements.parts
  | .node .case _ [_, statements] => statements.parts
  | _ => []

/-- The names of type parameters. -/
def Tree.typeParameterNames (generics : Tree) : List String :=
  generics.parts.filterMap fun t =>
    match t.label with
    | .typeParameter name .. => some name
    | _ => none

/-- The names that a type infers, outside of the types that choose in it. -/
def Tree.inferredNames (bound : Tree) : List String :=
  bound.gather fun t =>
    match t with
    | .node .inferType _ [parameter] =>
      match parameter.label with
      | .typeParameter name .. => [name]
      | _ => []
    | _ => []

/-- The name of a member of an enumeration. -/
def Tree.memberName? : Tree → Option String
  | .node (.enumMember _) _ (key :: _) =>
    match key.label with
    | .propertyName name | .string name _ => some name
    | _ => none
  | _ => none

/-- The names that the head of a loop declares for the loop. -/
def loopNames (head : Tree) : List String :=
  match head.label with
  | .variableList .var _ => []
  | .variableList .. => head.declaredNames
  | _ => []

/-- The names that a node declares for the trees below it, in reading order. -/
def Tree.ownNames : Tree → List String
  | .node label _ parts =>
    match label, parts with
    | .function role .., [name, generics, _, list, _, body] =>
      ((if role == .expression then name.boundNames else []) ++ generics.typeParameterNames ++
        list.boundNames ++ scopeNames body.bodyStatements).eraseDups
    | .arrow .., [generics, list, _, body] =>
      (generics.typeParameterNames ++ list.boundNames ++ scopeNames body.bodyStatements).eraseDups
    | .block, _ => blockNames (Tree.node .block ⟨0, 0⟩ parts).bodyStatements
    | .for, head :: _ => loopNames head
    | .forIn, head :: _ => loopNames head
    | .forOf _, head :: _ => loopNames head
    | .switch, _ :: cases => blockNames (cases.flatMap Tree.bodyStatements)
    | .catch, pattern :: _ => pattern.boundNames
    | .class isDeclaration .., _ :: name :: generics :: _ =>
      (if isDeclaration then [] else name.boundNames) ++ generics.typeParameterNames
    | .staticBlock, _ => scopeNames (Tree.node .staticBlock ⟨0, 0⟩ parts).bodyStatements
    | .namespace .., [_, .node (.namespace ..) _ (inner :: _)] => inner.boundNames
    | .namespaceBody, _ => scopeNames (Tree.node .namespaceBody ⟨0, 0⟩ parts).bodyStatements
    | .enum .., _ :: members => members.filterMap Tree.memberName?
    | .interface, _ :: generics :: _ | .typeAlias _, _ :: generics :: _
    | .functionType, generics :: _ | .constructorType _, generics :: _
    | .callSignature, generics :: _ | .constructSignature, generics :: _
    | .methodSignature .., _ :: generics :: _ => generics.typeParameterNames
    | .mappedType key _ _, _ => [key]
    | .conditionalType, _ :: bound :: _ => bound.inferredNames
    | _, _ => []

/-- Names below a node that hide those from outside and keep their form: the parameters in the type of
a function. -/
def Tree.hidingNames : Tree → List String
  | .node label _ parts =>
    match label with
    | .functionType | .constructorType _ | .callSignature | .constructSignature
    | .methodSignature .. =>
      parts.flatMap fun t => if t.label == .parameters then t.boundNames else []
    | _ => []

/-- The part of a node that belongs to the scope around it: the name that it declares there, or what it
evaluates before it begins. -/
def belongsOutside (label : Label) (index : Nat) : Bool :=
  match label, index with
  | .function .declaration .., 0 | .class true .., 1 | .enum .., 0 | .interface, 0
  | .typeAlias _, 0 | .namespace .., 0 | .conditionalType, 0 | .conditionalType, 3 => true
  | _, _ => false

/-- The part of a node is a name that stands for no variable. -/
def isNoVariable (label : Label) (index : Nat) : Bool :=
  match label, index with
  | .typePredicate _, 0 => true
  | _, _ => false

/-- The part of a node is the name of a member of an enumeration, which the other members may use like
that of a variable. -/
def isMemberName (label : Label) (index : Nat) : Bool :=
  match label, index with
  | .enumMember _, 0 => true
  | _, _ => false

/-! ## 2. Distinct names -/

/-- The names that are in force, each with its distinct form. -/
abbrev Scope := List (String × String)

/-- The form of a name in a scope. -/
def Scope.resolve (scope : Scope) (name : String) : String := (scope.lookup name).getD name

/-- Names that keep their form wherever they are declared. -/
def keptNames : List String := ["arguments", "exports"]

/-- A name with the next number. -/
def freshName (name : String) : StateM Nat (String × String) := do
  if keptNames.contains name then return (name, name)
  else
    let n ← get
    set (n + 1)
    return (name, name ++ "#" ++ toString n)

/-- The label with the names in it in their distinct form. -/
def Label.resolved (scope : Scope) : Label → Label
  | .identifier name => .identifier (scope.resolve name)
  | .binding name => .binding (scope.resolve name)
  | .typeParameter name isIn isOut isConst =>
    .typeParameter (scope.resolve name) isIn isOut isConst
  | .mappedType key optional isReadonly => .mappedType (scope.resolve key) optional isReadonly
  | label => label

/-- The name of a member of an enumeration with a change. -/
def Tree.withMemberName (change : String → String) : Tree → Tree
  | .node (.propertyName name) span parts => .node (.propertyName (change name)) span parts
  | .node (.string name lone) span parts => .node (.string (change name) lone) span parts
  | t => t

/-- A short form of a property, which holds only while the name of the variable is that of the
property. -/
def Tree.withoutShortForm : Tree → Tree
  | .node (.targetProperty computed _) span parts => .node (.targetProperty computed false) span parts
  | t => t

/-- Some variable below the node has another name than it had. -/
def renamesTarget (old new : List Tree) : Bool := !Tree.sameAll old new

mutual

/-- The tree with distinct names, in a scope. -/
def Tree.numberedIn (scope : Scope) : Tree → StateM Nat Tree
  | .node label span parts => do
    let fresh ← (Tree.node label span parts).ownNames.mapM freshName
    let hidden := (Tree.node label span parts).hidingNames.map fun name => (name, name)
    let inside := fresh ++ hidden ++ scope
    let news ← numberedParts scope inside label 0 parts
    let around := if label matches .mappedType .. then inside else scope
    let t := Tree.node (label.resolved around) span news
    return if renamesTarget parts news then t.withoutShortForm else t

/-- The parts of a node with distinct names, given the scopes around and inside the node. -/
def numberedParts (outside inside : Scope) (label : Label) (index : Nat) :
    List Tree → StateM Nat (List Tree)
  | [] => return []
  | t :: ts => do
    let first ←
      if isNoVariable label index then pure t
      else if isMemberName label index then pure (t.withMemberName inside.resolve)
      else t.numberedIn (if belongsOutside label index then outside else inside)
    let others ← numberedParts outside inside label (index + 1) ts
    return first :: others

end

/-- A script with distinct names. -/
def Tree.numbered (program : Tree) : Tree := ((program.numberedIn []).run 0).1

end PackageRefs.Script
