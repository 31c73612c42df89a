/-
# How names are used

What compression has to know about the names of a script: which of them the script declares, and how
often each is read and written.

Names are taken to be distinct here: every variable that is not declared at the top of the script has
a name of its own (see `Script.Scope`), so a name says which variable is meant.
-/
import PackageRefs.Script.Constant
import PackageRefs.Script.DeclaredName
import Std.Data.HashMap

namespace PackageRefs.Script

/-! ## 1. Uses -/

/-- What an expression or a target does with a variable. -/
inductive Access where
  | read | write | readWrite
  deriving DecidableEq, Inhabited, Repr

/-- The use of a target that an operator assigns to. -/
def AssignOp.access : AssignOp → Access
  | .plain => .write
  | _ => .readWrite

/-- The part of a node with this index is a target, or holds some: it is written to. -/
def Label.holdsTarget (label : Label) (index : Nat) : Bool :=
  match label, index with
  | .assign _, 0 | .update .., 0 | .forIn, 0 | .forOf _, 0 | .targetProperty .., 1
  | .targetDefault, 0 | .arrayTarget, _ | .rest, _ => true
  | _, _ => false

mutual

/-- The names that a tree uses, in reading order; the first argument says what the tree's place does
with it. -/
def Tree.uses (place : Access) : Tree → List (String × Access)
  | .node (.identifier name) _ _ => [(name, place)]
  | .node (.assign op) _ [target, value] => target.uses op.access ++ value.uses .read
  | .node (.update _ _) _ [target] => target.uses .readWrite
  | .node .forIn _ [left, right, body] =>
    left.uses .write ++ (right.uses .read ++ body.uses .read)
  | .node (.forOf _) _ [left, right, body] =>
    left.uses .write ++ (right.uses .read ++ body.uses .read)
  | .node .arrayTarget _ parts => usesOfAll place parts
  | .node .objectTarget _ parts => usesOfAll place parts
  | .node .rest _ parts => usesOfAll place parts
  | .node (.targetProperty _ _) _ [key, target] => key.uses .read ++ target.uses place
  | .node .targetDefault _ [target, value] => target.uses place ++ value.uses .read
  | .node _ _ parts => usesOfAll .read parts

/-- The names that several trees use. -/
def usesOfAll (place : Access) : List Tree → List (String × Access)
  | [] => []
  | t :: ts => t.uses place ++ usesOfAll place ts

end

/-! ## 2. A summary -/

/-- How often a name is used. -/
structure Usage where
  reads : Nat := 0
  writes : Nat := 0
  deriving DecidableEq, Inhabited, Repr

namespace Usage

/-- One more use. -/
def count (u : Usage) : Access → Usage
  | .read => { u with reads := u.reads + 1 }
  | .write => { u with writes := u.writes + 1 }
  | .readWrite => { reads := u.reads + 1, writes := u.writes + 1 }

end Usage

/-- A function whose calls have no effect beside those of their arguments. -/
structure HarmlessFunction where
  name : String
  /-- Where the function's text ends; it is known to be harmless from there on. -/
  stop : Nat
  /-- The function has no statements, so a call gives no value. -/
  isEmpty : Bool
  deriving DecidableEq, Inhabited, Repr

/-- What holds for the code at a place in a script. -/
structure Surroundings where
  /-- The code stands in no block and in no function. -/
  atTop : Bool := true
  isStrict : Bool := false
  /-- Below the innermost node here that may declare variables, code is run from a text. -/
  runsText : Bool := false
  /-- The innermost function here is an asynchronous generator. -/
  isAsyncGenerator : Bool := false

/-- What is known about the names of a script. -/
structure Names where
  isModule : Bool
  /-- Code that is run from a text may use any name. -/
  dynamic : Bool
  /-- The names declared at the top of the script. -/
  top : List String
  /-- The names that the script exports. -/
  exported : List String
  usage : Std.HashMap String Usage
  /-- Where the declarations of variables by their name alone end in the text. -/
  declarations : Std.HashMap String Nat := {}
  /-- The names of functions that a comment declares to have no effect. -/
  declaredHarmless : List String := []
  harmless : List HarmlessFunction := []
  /-- The constants that variables hold wherever they are read, and where their declarations end. -/
  constants : Std.HashMap String (Constant × Nat) := {}
  /-- The place in the script where the names are asked for. -/
  place : Surroundings := {}

namespace Names

/-- The name is one that was given to a single variable below the top of the script. -/
def isNumbered (name : String) : Bool := name.contains '#'

/-- How often a name is used. -/
def usageOf (names : Names) (name : String) : Usage := names.usage.getD name {}

/-- The script does not declare the name. -/
def isGlobal (names : Names) (name : String) : Bool :=
  !isNumbered name && !names.top.contains name

/-- What uses the name belongs to the script, as far as it is written, so that its declaration may be
changed.  Other scripts may use what stands at the top of one that is no module. -/
def isOwn (names : Names) (name : String) : Bool :=
  (isNumbered name || ((names.isModule || !names.place.atTop) && names.top.contains name)) &&
    !names.exported.contains name

/-- Nothing uses the name of a variable. -/
def isUnused (names : Names) (name : String) : Bool :=
  !names.dynamic && names.isOwn name && names.usageOf name == {}

/-- Nothing uses the name of a function or a class that is declared here. -/
def isUnusedHere (names : Names) (name : String) : Bool :=
  !names.place.runsText && names.isOwn name && names.usageOf name == {}

/-- The function that a call at a place in the text refers to by name, if it is known to be harmless
there. -/
def harmlessAt? (names : Names) (name : String) (pos : Nat) : Option HarmlessFunction :=
  names.harmless.find? fun f => f.name == name && f.stop ≤ pos

/-- The constant that a variable, declared before this place in the text, holds. -/
def constantAt? (names : Names) (name : String) (pos : Nat) : Option Constant :=
  (names.constants.get? name).bind fun (c, stop) => if stop ≤ pos then some c else none

/-- The constant that is the value of an expression, which may be a variable. -/
def constantOf? (names : Names) (t : Tree) : Option Constant :=
  match t with
  | .node (.identifier name) span _ => names.constantAt? name span.start
  | t => t.constant?

/-- The name is one of a variable, declared before this place in the text, that nothing reads. -/
def isNeverRead (names : Names) (name : String) (pos : Nat) : Bool :=
  !names.dynamic && names.isOwn name && (names.usageOf name).reads == 0 &&
    (names.declarations.get? name).any (· ≤ pos)

end Names

/-- The node runs code from a text. -/
def Tree.isDynamic : Tree → Bool
  | .node (.call ..) _ (.node (.identifier "eval") _ _ :: _) => true
  | _ => false

/-- The directives ask for strict code. -/
def Tree.asksForStrict (directives : Tree) : Bool :=
  directives.parts.any fun t => t.label == .directive "use strict"

/-- What holds for the code inside a node, given what holds for the code around it. -/
def Surroundings.inside (place : Surroundings) (dynamic : Bool) (t : Tree) :
    Surroundings :=
  let enter (isStrict isAsyncGenerator : Bool) : Surroundings :=
    { atTop := false, isStrict, isAsyncGenerator, runsText := dynamic && t.anyNode Tree.isDynamic }
  match t.label, t.parts with
  | .function _ isAsync isGenerator .., [_, _, _, _, _, body] =>
    enter (place.isStrict || (body.part 0).asksForStrict) (isAsync && isGenerator)
  | .arrow .., [_, _, _, body] => enter (place.isStrict || (body.part 0).asksForStrict) false
  | .class .., _ => enter true place.isAsyncGenerator
  | .staticBlock, _ => enter place.isStrict false
  | .block, _ | .for, _ | .forIn, _ | .forOf _, _ | .switch, _ | .catch, _ | .namespaceBody, _ =>
    enter place.isStrict place.isAsyncGenerator
  | _, _ => place

/-- The names with the place inside a node. -/
def Names.inside (names : Names) (t : Tree) : Names :=
  { names with place := names.place.inside names.dynamic t }

/-- The names that a statement exports. -/
def Tree.exportedNames : Tree → List String
  | .node (.exportNamed _) _ [declaration, specifiers, source, _] =>
    declaration.declaredNames ++
      if source.isAbsent then specifiers.parts.flatMap fun s => (s.part 0).identifierName?.toList
      else []
  | .node .exportDefault _ [declaration] => declaration.declaredNames
  | .node .exportAssignment _ [e] => e.identifierName?.toList
  | _ => []

/-- The name of a function that a comment declares to have no effect. -/
def Tree.harmlessNames : Tree → List String
  | .node (.function _ _ _ _ _ true) _ (name :: _) => name.boundNames
  | .node (.declarator _) _ [pattern, .node (.function _ _ _ _ _ true) _ _]
  | .node (.declarator _) _ [pattern, .node (.arrow _ _ _ true) _ _] => pattern.plainName?.toList
  | _ => []

/-- The names of variables that are declared by their name alone and may be written again, and where their
declarations end. -/
def Tree.declarationEnds : Tree → List (String × Nat)
  | .node (.variableList kind _) _ ds =>
    if kind != .var && kind != .let then []
    else
      ds.flatMap fun d => (d.part 0).plainName?.toList.map fun name => (name, d.span.stop)
  | _ => []

/-- The statements of a script. -/
def Tree.programStatements : Tree → List Tree
  | .node (.program _) _ [_, statements] => statements.parts
  | _ => []

/-- What is known about the names of a script. -/
def Names.of (isModule : Bool) (program : Tree) : Names :=
  let statements := program.programStatements
  let dynamic := program.anyNode Tree.isDynamic
  { isModule
    dynamic
    place := { isStrict := isModule || (program.part 0).asksForStrict, runsText := dynamic }
    top := scopeNames statements
    exported := statements.flatMap Tree.exportedNames
    declaredHarmless := program.gather Tree.harmlessNames
    declarations := .ofList (program.gather Tree.declarationEnds)
    usage := (program.uses .read).foldl
      (fun usage (name, access) => usage.alter name fun u => some ((u.getD {}).count access)) {} }

end PackageRefs.Script
