/-
# Global functions without effects

Functions and makers that every script finds under a global name and that do nothing but give a value.
A call of one of them has only the effects of its arguments.

Functions that change an object that they are given, or that run code of one, are not among them.
-/
import PackageRefs.Script.Compress.Kind

namespace PackageRefs.Script.KnownGlobal

/-- Kinds of errors. -/
def errorMakers : List String :=
  ["Error", "EvalError", "RangeError", "ReferenceError", "SyntaxError", "TypeError", "URIError"]

/-- Makers of collections, which go over what they are given. -/
def collections : List String := ["Map", "Set", "WeakMap", "WeakSet"]

/-- Makers that do nothing else when they are called as functions. -/
def callableMakers : List String :=
  ["Date", "Boolean", "Number", "Object", "RegExp", "String", "Symbol"] ++ errorMakers

/-- Functions that do nothing else. -/
def functions : List String :=
  ["decodeURI", "decodeURIComponent", "encodeURI", "encodeURIComponent", "escape", "unescape",
    "isFinite", "isNaN", "parseFloat", "parseInt"] ++ callableMakers

/-- The mathematical functions. -/
def mathematical : List String :=
  ["abs", "acos", "acosh", "asin", "asinh", "atan", "atan2", "atanh", "cbrt", "ceil", "clz32", "cos",
    "cosh", "exp", "expm1", "floor", "fround", "hypot", "imul", "log", "log10", "log1p", "log2", "max",
    "min", "pow", "random", "round", "sign", "sin", "sinh", "sqrt", "tan", "tanh", "trunc"]

/-- Makers of arrays of numbers of one width. -/
def typedArrays : List String :=
  ["Int8Array", "Uint8Array", "Uint8ClampedArray", "Int16Array", "Uint16Array", "Int32Array",
    "Uint32Array", "Float16Array", "Float32Array", "Float64Array", "BigInt64Array",
    "BigUint64Array"]

/-- Functions that do nothing else, as properties of a global name. -/
def methods : String → List String
  | "Array" => ["isArray", "of"]
  | "ArrayBuffer" => ["isView"]
  | "BigInt" => ["asIntN", "asUintN"]
  | "Date" => ["UTC", "now", "parse"]
  | "Math" => mathematical
  | "Number" => ["isFinite", "isInteger", "isNaN", "isSafeInteger", "parseFloat", "parseInt"]
  | "Object" =>
    ["create", "getOwnPropertyDescriptor", "getOwnPropertyDescriptors", "getOwnPropertyNames",
      "getOwnPropertySymbols", "getPrototypeOf", "hasOwn", "is", "isExtensible", "isFrozen",
      "isSealed", "keys"]
  | "String" => ["fromCharCode", "fromCodePoint", "raw"]
  | "Symbol" => ["for", "keyFor"]
  | "URL" => ["canParse"]
  | space => if typedArrays.contains space then ["of"] else []

/-- A function that does nothing else, given which names are global. -/
def isFunction (isGlobal : String → Bool) : Tree → Bool
  | .node (.identifier name) _ _ => functions.contains name && isGlobal name
  | .node (.member name false) _ [.node (.identifier space) _ _] =>
    (methods space).contains name && isGlobal space
  | _ => false

/-- All makers of objects. -/
def makers : List String :=
  ["AggregateError", "Array", "ArrayBuffer", "BigInt", "Boolean", "DataView", "Date",
    "FinalizationRegistry", "Function", "Number", "Object", "Promise", "Proxy", "RegExp",
    "SharedArrayBuffer", "String", "Symbol"] ++ errorMakers ++ collections ++ typedArrays

/-- How a maker takes what it is given. -/
structure Acceptance where
  /-- It may be given nothing. -/
  nothing : Bool
  /-- It may be given an array, whatever is in it. -/
  arrays : Bool
  /-- The kinds of single values that it refuses. -/
  refused : List Kind

/-- How the makers that do nothing else take what they are given. -/
def acceptance? (name : String) : Option Acceptance :=
  if name == "AggregateError" then some ⟨false, true, [.undefined, .null, .bool, .number, .bigint]⟩
  else if collections.contains name then some ⟨true, false, [.bool, .number, .bigint]⟩
  else if name == "ArrayBuffer" || name == "Date" then some ⟨true, true, [.bigint]⟩
  else if ["Boolean", "Number", "Object", "RegExp", "String"].contains name ||
      errorMakers.contains name then some ⟨true, true, []⟩
  else none

/-- The expression is a name of the list that is global. -/
def isOneOf (known : List String) (isGlobal : String → Bool) (t : Tree) : Bool :=
  t.identifierName?.any fun name => known.contains name && isGlobal name

/-- The kind of the value of an argument: the instances of the known makers are objects. -/
def kindOfArgument? (isGlobal : String → Bool) : Tree → Option Kind
  | .node (.new isPure) span (callee :: rest) =>
    if isOneOf makers isGlobal callee then some .object
    else (Tree.node (.new isPure) span (callee :: rest)).kind?
  | t => t.kind?

/-- A construction by a maker that does nothing else, given which names are global.  A maker may be given
nothing or one value of a kind that is known, and that it does not refuse; an empty array is never
refused. -/
def isConstruction (isGlobal : String → Bool) (callee : Tree) (args : List Tree) : Bool :=
  match (callee.identifierName?.filter isGlobal).bind acceptance?, args with
  | some accepted, [] => accepted.nothing
  | some accepted, [e] =>
    if e.label == .array then e.parts.isEmpty || accepted.arrays
    else (kindOfArgument? isGlobal e).any fun kind => !accepted.refused.contains kind
  | _, _ => false

end PackageRefs.Script.KnownGlobal
