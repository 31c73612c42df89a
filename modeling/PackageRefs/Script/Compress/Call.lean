/-
# Shorter calls and constructions

The rules for calls whose parts are short already.

Calls of methods of constants, and of global functions with constants, are computed.  Some global
functions have a shorter form: `Math.pow(a, b)` is `a ** b`, and `Array.of(a)` is `[a]`.  What
`Object(f)` gives may be called as `f` itself, without an object that is passed to it.
-/
import PackageRefs.Script.Compress.Literal

namespace PackageRefs.Script.Compress

open PackageRefs.Number

/-- The constants that are the values of expressions, if all are. -/
def constants? (names : Names) (es : List Tree) : Option (List Constant) :=
  es.mapM names.constantOf?

/-! ## 1. Joining lists and texts -/

/-- The argument may be put at the end of an array: it is a literal or an array itself. -/
def appended? (e : Tree) : Option (List Tree) :=
  match e.label with
  | .array => some e.parts
  | .null | .bool _ | .number _ | .bigint _ | .string .. | .regex .. => some [e]
  | _ => none

/-- An array with arguments put at its end, and those that could not be. -/
def appendAll : List Tree → List Tree → List Tree × List Tree
  | elements, [] => (elements, [])
  | elements, e :: es =>
    match appended? e with
    | some more => appendAll (elements ++ more) es
    | none => (elements, e :: es)

/-- The pieces of a template that a text and expressions make together. -/
def piecesOf (text : String) : List Tree → List Tree
  | [] => [quasiOf text]
  | e :: es =>
    match e.stringValue? with
    | some s => piecesOf (text ++ s) es
    | none => quasiOf text :: e :: piecesOf "" es

/-- A template is not longer than the call that joins texts. -/
def templatePays (args : List Tree) : Bool :=
  let texts := (args.filter fun e => e.stringValue?.isSome).length
  3 * (args.length - texts) ≤ 9 + args.length + 2 * texts

/-- A call that joins something with its arguments. -/
def foldConcat (names : Names) (span : Span) (object generics : Tree) (args : List Tree) : Option Tree :=
  match object with
  | .node .array s elements =>
    let (elements, rest) := appendAll elements args
    if rest.isEmpty then some (.node .array s elements)
    else if rest.length == args.length then none
    else
      some (.node (.call false false) span
        (.make (.member "concat" false) [.node .array s elements] :: generics :: rest))
  | .node (.string text false) _ _ =>
    if args.isEmpty || args.any Tree.isSpread || !templatePays args then none
    else some (foldTemplate names span (piecesOf text args))
  | _ => none

/-- A chain of calls that join something as one call. -/
def joinedConcat (callee : Tree) (args : List Tree) : Tree × List Tree :=
  match callee with
  | .node (.member "concat" false) span
      [.node (.call false _) _ (.node (.member "concat" false) s [object] :: generics :: earlier)] =>
    let isStart := object.label == .array || object.stringValue?.isSome
    if generics.isAbsent && isStart then
      (.node (.member "concat" false) s [object], earlier ++ args)
    else (.node (.member "concat" false) span callee.parts, args)
  | t => (t, args)

/-- A call in a chain of calls that join something; it waits for the last of them. -/
def innerConcat (isPure : Bool) (span : Span) (callee generics : Tree) (args : List Tree) : Tree :=
  let (callee, args) := joinedConcat callee (openedArguments args)
  .node (.call false isPure) span (callee :: generics :: args)

/-! ## 2. Global functions -/

/-- The expression as a number. -/
def asNumber (e : Tree) : Tree :=
  if e.kind? == some .number then e else .make (.unary .plus) [e]

/-- An array made by a call or a construction, given the arguments.  Of several arguments, those that are
spread are lost. -/
def foldArrayMaker (span : Span) : List Tree → Option Tree
  | [] => some (.node .array span [])
  | [e] =>
    let made := Tree.node (.call false false) span [.make (.identifier "Array") [], .absent, e]
    match e.label with
    | .spread => none
    | .number x =>
      match x.toInt? with
      | some n =>
        if 0 ≤ n && n ≤ 6 then
          some (.node .array span (List.replicate n.toNat (.make .elision [])))
        else some made
      | none => some made
    | _ => some (if (appended? e).isSome then .node .array span [e] else made)
  | es => some (.node .array span (es.filter fun e => !e.isSpread))

/-- A global function by its name, or as a property of the global object of browsers. -/
def globalName? (names : Names) : Tree → Option String
  | .node (.identifier name) _ _ => if names.isGlobal name then some name else none
  | .node (.member name false) _ [.node (.identifier "window") _ _] =>
    if names.isGlobal "window" then some name else none
  | _ => none

/-- An array or an object made by a call or a construction of its maker. -/
def foldMaker (names : Names) (span : Span) (callee : Tree) (args : List Tree) : Option Tree :=
  match globalName? names callee, args with
  | some "Object", [] => some (.node .object span [])
  | some "Array", _ => foldArrayMaker span args
  | _, _ => none

/-- Functions that take their first argument as a text. -/
def textFunctions : List String :=
  ["encodeURI", "encodeURIComponent", "decodeURI", "decodeURIComponent", "parseFloat", "parseInt"]

/-- Functions that take their argument as a number. -/
def numberFunctions : List String := ["Number", "isNaN", "isFinite"]

/-- What a global function is given by an expression, if it is known. -/
def given? (names : Names) (name : String) (e : Tree) : Option Constant :=
  match names.constantOf? e, e with
  | some c, _ => some c
  | none, .node (.string s _) _ _ =>
    if name == "encodeURI" || name == "encodeURIComponent" then some (.string s) else none
  | none, e =>
    if textFunctions.contains name then (quietText? names e).map Constant.string
    else if numberFunctions.contains name then (quietNumber? names e).map Constant.number
    else none

/-- A call of a global function by its name. -/
def foldGlobalCall (names : Names) (name : String) (args : List Tree) : Option Tree :=
  match name, args with
  | "Boolean", [e] => if e.isSpread then none else some (asBool names e)
  | _, _ =>
    ((args.mapM (given? names name)).bind (Constant.globalFunction? name)).map Constant.toTree

/-- A call of a function that a global name holds as a property. -/
def foldGlobalMethod (names : Names) (space name : String) (span : Span) (args : List Tree) :
    Option Tree :=
  match space, name, args with
  | "Math", "pow", [x, y] =>
    if x.isSpread || y.isSpread then none
    else some (.node (.binary .pow) span [asNumber x, asNumber y])
  | "Array", "of", _ => some (.node .array span args)
  | _, _, _ => ((constants? names args).bind (Constant.globalMethod? space name)).map Constant.toTree

/-! ## 3. Calls -/

/-- Methods that change nothing but letters, or the blanks at an end. -/
def spellingMethods : List String := ["toLowerCase", "toUpperCase", "trim", "trimStart", "trimEnd"]

/-- The constant whose method is called; a variable counts only for some methods. -/
def methodObject? (names : Names) (name : String) (object : Tree) : Option Constant :=
  if spellingMethods.contains name then names.constantOf? object else object.constant?

/-- A call of a method. -/
def foldMethodCall (names : Names) (name : String) (span : Span) (object generics : Tree)
    (args : List Tree) : Option Tree :=
  let known :=
    match methodObject? names name object, constants? names args with
    | some c, some values => (c.method? name values).map Constant.toTree
    | _, _ => none
  match known, object.identifierName? with
  | some t, _ => some t
  | none, some space =>
    if names.isGlobal space then foldGlobalMethod names space name span args else none
  | none, none => if name == "concat" then foldConcat names span object generics args else none

/-- Calling the expression directly is not the same as calling its value. -/
def passesReceiver (t : Tree) : Bool :=
  match t.label with
  | .member .. | .index _ | .privateMember .. | .chain => true
  | .identifier name => name == "eval"
  | _ => false

/-- What is called or deleted, in a shorter form: where it was only a value, it must not become the
access to a property of an object. -/
def asValue (old new : Tree) : Tree :=
  if passesReceiver new && !passesReceiver old then .make .sequence [.ofNumber .zero, new] else new

/-- The function that is called where `Object` is called to make an object of it. -/
def calledObject? (names : Names) : Tree → Option Tree
  | .node (.call false _) _ [.node (.identifier "Object") _ _, _, e] =>
    if names.isGlobal "Object" && !e.isSpread then some e else none
  | _ => none

/-- What is called, given the arguments: the maker of objects need not be looked for in the global object
of browsers. -/
def shortCallee (names : Names) (callee : Tree) (args : List Tree) : Tree :=
  if args.isEmpty && globalName? names callee == some "Object" then .make (.identifier "Object") []
  else callee

/-- A call of a name that the script declares: a function without statements gives undefined. -/
def foldOwnCall (names : Names) (name : String) (whole : Tree) (args : List Tree) : Tree :=
  match names.harmlessAt? name whole.span.start with
  | some f =>
    if f.isEmpty && !args.any Tree.isSpread then
      .sequenceOf (args.filterMap (Tree.remains names) ++ [Tree.undefined])
    else whole
  | none => whole

/-- A call that is made whatever its function is. -/
def foldPlainCall (names : Names) (isPure : Bool) (span : Span) (callee generics : Tree)
    (args : List Tree) : Tree :=
  let (callee, args) := joinedConcat callee args
  let whole := Tree.node (.call false isPure) span (callee :: generics :: args)
  match foldMaker names span callee args, calledObject? names callee, callee with
  | some t, _, _ => t
  | none, some e, _ =>
    .node (.call false isPure) span (asValue callee e :: generics :: args)
  | none, none, .node (.member name false) _ [object] =>
    (foldMethodCall names name span object generics args).getD whole
  | none, none, .node (.identifier name) _ _ =>
    if names.isGlobal name then (foldGlobalCall names name args).getD whole
    else foldOwnCall names name whole args
  | none, none, _ => whole

/-- A call. -/
def foldCall (names : Names) (optional isPure : Bool) (span : Span) (parts : List Tree) : Tree :=
  match parts with
  | callee :: generics :: args =>
    let args := openedArguments args
    let callee := shortCallee names callee args
    if optional || !generics.isAbsent then
      .node (.call optional isPure) span (callee :: generics :: args)
    else foldPlainCall names isPure span callee generics args
  | _ => .node (.call optional isPure) span parts

/-! ## 4. Constructions -/

/-- Makers that do the same when they are called without `new`. -/
def callableMakers : List String :=
  ["Function", "RegExp", "AggregateError"] ++ KnownGlobal.errorMakers

/-- The maker gives what it is given only if that is a value of its own kind already. -/
def makesAnew (name : String) (args : List Tree) : Bool :=
  match name, args with
  | "RegExp", e :: _ => e.constant?.isSome || (e.label matches .regex ..)
  | _, _ => true

/-- A construction. -/
def foldNew (names : Names) (isPure : Bool) (span : Span) (parts : List Tree) : Tree :=
  match parts with
  | callee :: generics :: args =>
    let args := openedArguments args
    let whole := Tree.node (.new isPure) span (callee :: generics :: args)
    match generics.isAbsent, foldMaker names span callee args, callee.identifierName? with
    | true, some t, _ => t
    | true, none, some name =>
      if !names.isGlobal name then whole
      else if callableMakers.contains name && makesAnew name args then
        .node (.call false isPure) span (callee :: generics :: args)
      else
        match args with
        | [e] =>
          if KnownGlobal.typedArrays.contains name && e.label == .number .zero then
            .node (.new isPure) span [callee, generics]
          else whole
        | _ => whole
    | _, _, _ => whole
  | _ => .node (.new isPure) span parts

end PackageRefs.Script.Compress
