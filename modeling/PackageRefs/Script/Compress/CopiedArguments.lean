/-
# Loops that copy the arguments of a function

Before arguments could be spread into an array, a function that takes any number of them copied them
one by one:

    for (var n = arguments.length, list = Array(n), i = 0; i < n; i++) list[i] = arguments[i];

`copiedArguments?` recognises such a loop, also one that leaves out the first arguments, and gives the
declaration `var list = [...arguments]` that does the same.  It holds only in strict code, where an
argument and the parameter for it are different things, and only if the number and the place are used
nowhere else.
-/
import PackageRefs.Script.Compress.Effect

namespace PackageRefs.Script.Compress

open PackageRefs.Number

namespace CopyLoop

/-! ## 1. The parts of the loop -/

/-- The names in such a loop. -/
structure Variables where
  /-- the number of arguments, if it has a name of its own -/
  count : Option String
  /-- the array that the arguments are copied to -/
  list : String
  /-- the place of the argument that is copied -/
  place : String

/-- The expression is the variable. -/
def isVariable (name : String) (t : Tree) : Bool := t.identifierName? == some name

/-- The expression is the name of the arguments. -/
def isArguments (t : Tree) : Bool := isVariable "arguments" t

/-- The expression is the number of arguments. -/
def isCount (count : Option String) : Tree → Bool
  | .node (.member "length" false) _ [object] => count.isNone && isArguments object
  | t => count.any fun name => isVariable name t

/-- The expression is the number literal. -/
def isNumber (x : Binary64) (t : Tree) : Bool := t.label == .number x

/-- The expression is the place of an argument, counted from the first one that is copied. -/
def isOffsetPlace (place : String) (skipped : Binary64) : Tree → Bool
  | .node (.binary .sub) _ [a, k] =>
    !skipped.isZero && isVariable place a && isNumber skipped k
  | t => skipped.isZero && isVariable place t

/-- The expression is how many arguments are copied: `n`, or `n > k ? n - k : 0`. -/
def isSize (count : String) (skipped : Binary64) : Tree → Bool
  | .node .conditional _
      [.node (.binary .gt) _ [a, j], .node (.binary .sub) _ [b, k], zero] =>
    isVariable count a && isVariable count b && isNumber skipped j && isNumber skipped k &&
      isNumber .zero zero
  | t => skipped.isZero && isVariable count t

/-- The expression makes the array to copy to. -/
def isNewList (names : Names) (count : Option String) (skipped : Binary64) : Tree → Bool
  | .node .array _ [] => true
  | .node (.call false _) _ [maker, _, size] =>
    isVariable "Array" maker && names.isGlobal "Array" &&
      count.any fun name => isSize name skipped size
  | _ => false

/-- The variable that a declarator declares with a value. -/
def declared? (d : Tree) : Option (String × Tree) :=
  (d.part 0).plainName?.map fun name => (name, d.part 1)

/-- The variables that the head of the loop declares, the value of the array, and how many arguments are
left out. -/
def declared (ds : List Tree) : Option (Variables × Tree × Binary64) :=
  match ds.mapM declared? with
  | some [(count, number), (list, array), (place, .node (.number skipped) _ _)] =>
    if isCount none number then some (⟨some count, list, place⟩, array, skipped) else none
  | some [(list, array), (place, .node (.number skipped) _ _)] =>
    some (⟨none, list, place⟩, array, skipped)
  | _ => none

/-- The statement copies an argument. -/
def copies (v : Variables) (skipped : Binary64) : Tree → Bool
  | .node .expressionStatement _ [.node (.assign .plain) _
      [.node (.index false) _ [list, here], .node (.index false) _ [source, place]]] =>
    isVariable v.list list && isOffsetPlace v.place skipped here && isArguments source &&
      isVariable v.place place
  | _ => false

/-- The test and the step go over the places of all arguments. -/
def goesOverAll (v : Variables) : Tree → Tree → Bool
  | .node (.binary .lt) _ [place, count], .node (.update true _) _ [target] =>
    isVariable v.place place && isCount v.count count && isVariable v.place target
  | _, _ => false

/-- All uses of the name are in the tree. -/
def isUsedOnlyIn (names : Names) (t : Tree) (name : String) : Bool :=
  let inside := ((t.uses .read).filter (·.1 == name)).foldl (fun u use => u.count use.2) ({} : Usage)
  names.usageOf name == inside

/-! ## 2. The declaration in its place -/

/-- The arguments from one on, as an array. -/
def argumentsFrom (skipped : Binary64) : Tree :=
  let all := Tree.make .array [.make .spread [.make (.identifier "arguments") []]]
  if skipped.isZero then all
  else .make (.call false false) [.make (.member "slice" false) [all], .absent, .ofNumber skipped]

end CopyLoop

open CopyLoop in
/-- The declaration that does the same as a loop, if the loop copies the arguments of a function. -/
def copiedArguments? (names : Names) (span : Span) (parts : List Tree) : Option Tree :=
  match parts with
  | [.node (.variableList .var isDeclare) s ds, test, step, body] =>
    match declared ds with
    | some (v, array, skipped) =>
      if names.place.isStrict && names.isGlobal "arguments" && isNewList names v.count skipped array &&
          goesOverAll v test step && copies v skipped body &&
          (v.place :: v.count.toList).all (isUsedOnlyIn names (.node .for span parts)) then
        some (.node (.variableList .var isDeclare) s
          [.make (.declarator false) [.make (.binding v.list) [], argumentsFrom skipped]])
      else none
    | none => none
  | _ => none

end PackageRefs.Script.Compress
