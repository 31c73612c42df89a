/-
# Shorter literals and accesses

The rules for arrays, objects, templates and keys, and for reading a property whose value is known.

**Arrays and objects.**  What is spread is written in place where it is a literal itself.  A long array
of texts is written as one text that is split.
-/
import PackageRefs.Script.Compress.Operation
import PackageRefs.Script.Constant.Method

namespace PackageRefs.Script.Compress

open PackageRefs.Number PackageRefs.Text

/-! ## 1. Keys -/

/-- Characters of names that some readers of scripts do not know as such. -/
def isDoubtfulNamePart (c : Char) : Bool := c == '\u30fb' || c == '\uff65'

/-- The text is a name that may follow a dot. -/
def isName (s : String) : Bool :=
  match s.toList with
  | c :: r => isNameStart c && r.all fun c => isNamePart c && !isDoubtfulNamePart c
  | [] => false

/-- The whole number of 32 bits that a text is the usual form of. -/
def wholeOfText? (s : String) : Option Int :=
  match s.toInt? with
  | some n =>
    if toString n == s && -2147483648 ≤ n && n < 2147483648 then some n else none
  | none => none

/-- The text of an expression that is only a text, also one in back quotes. -/
def plainText? (t : Tree) : Option String :=
  match t.constant? with
  | some (.string s) => some s
  | _ => none

/-- What a key is the key of. -/
inductive KeyPlace where
  /-- a value of an object, or one of its accessors -/
  | property
  /-- a method of an object, or a part of a pattern -/
  | free
  | method (isStatic : Bool)
  | field (isStatic : Bool)
  deriving DecidableEq, Inhabited, Repr

/-- The name means something else in this place if it is not computed, or nothing that is allowed. -/
def KeyPlace.reserves (place : KeyPlace) (computed : Bool) (name : String) : Bool :=
  match place with
  | .property => name == "__proto__"
  | .free => false
  | .method isStatic => computed && name == (if isStatic then "prototype" else "constructor")
  | .field isStatic =>
    computed && (name == "constructor" || (isStatic && name == "prototype"))

/-- A key of an object or a class, and whether it is computed. -/
def shortKey (place : KeyPlace) (computed : Bool) (key : Tree) : Bool × Tree :=
  match key.label with
  | .number x => (computed && x.isNegative, key)
  | _ =>
    match plainText? key with
    | some s =>
      if place.reserves computed s then (computed, key)
      else if isName s then (false, .node (.propertyName s) key.span [])
      else
        match wholeOfText? s with
        | some (.ofNat n) => (false, .ofNumber (.ofNat n))
        | _ => (false, (Constant.string s).toTree)
    | none => (computed, key)

/-! ## 2. Accesses -/

/-- What is done with an access. -/
inductive Purpose where
  /-- its value is used -/
  | value
  /-- it is written to -/
  | target
  /-- it is called, or stands before a template: the object of the access counts -/
  | callee
  deriving DecidableEq, Inhabited, Repr

/-- What a node does with its part of this index. -/
def Purpose.ofPart (label : Label) (index : Nat) : Purpose :=
  match label, index with
  | .call .., 0 | .taggedTemplate, 0 => .callee
  | _, _ => if label.holdsTarget index then .target else .value

/-- The element of an array at a place, if evaluating the others does nothing. -/
def elementAt? (names : Names) (elements : List Tree) (n : Nat) : Option Tree :=
  match (elements.takeWhile fun e => !e.isSpread)[n]? with
  | some e =>
    if elements.any (Tree.acts names) then none
    else some (if e.label == .elision then Tree.undefined else e)
  | none => none

/-- Access by a number. -/
def numberedAccess? (names : Names) (object : Tree) (n : Nat) : Option Tree :=
  match object, plainText? object with
  | _, some s =>
    match Constant.unitAt? s n with
    | some u =>
      if 0xd800 ≤ u && u < 0xe000 then none
      else some (Constant.string (Char.ofNat u).toString).toTree
    | none => none
  | .node .array _ elements, none => elementAt? names elements n
  | _, _ => none

/-- Access by an index that is a constant. -/
def foldIndex (names : Names) (purpose : Purpose) (optional : Bool) (span : Span)
    (object key : Tree) : Tree :=
  let whole := Tree.node (.index optional) span [object, key]
  let value? (n : Nat) := if purpose == .value then numberedAccess? names object n else none
  match key.label, plainText? key with
  | .number x, _ =>
    match x.toInt? with
    | some (.ofNat n) => if optional then whole else (value? n).getD whole
    | _ => whole
  | _, some s =>
    if isName s then .node (.member s optional) span [object]
    else if optional then whole
    else
      match wholeOfText? s with
      | some (.ofNat n) =>
        (value? n).getD
          (.node (.index false) span [object, .ofNumber (.ofNat n)])
      | some n => .node (.index false) span [object, .ofNumber (.ofInt n)]
      | none => whole
  | _, none => whole

/-- The values of the properties of the global name of numbers. -/
def numberProperty? (name : String) : Option Tree :=
  let power (n : Int) := Tree.make (.binary .pow) [.ofNumber (.ofNat 2), .ofNumber (.ofInt n)]
  let greatest := Tree.make (.binary .sub) [power 53, .ofNumber (.ofNat 1)]
  match name with
  | "POSITIVE_INFINITY" => some (.ofNumber (.infinite false))
  | "NEGATIVE_INFINITY" => some (.ofNumber (.infinite true))
  | "NaN" => some (.ofNumber .nan)
  | "MAX_SAFE_INTEGER" => some greatest
  | "MIN_SAFE_INTEGER" => some (.make (.unary .minus) [greatest])
  | "EPSILON" => some (power (-52))
  | _ => none

/-- The length of a text or an array. -/
def length? (names : Names) (object : Tree) : Option Tree :=
  let text? :=
    match names.constantOf? object with
    | some (.string s) => some s
    | _ => plainText? object
  match object, text? with
  | _, some s => some (.ofNumber (.ofNat (Constant.units s).length))
  | .node .array _ es, none =>
    if object.acts names || es.any Tree.isSpread then none else some (.ofNumber (.ofNat es.length))
  | _, _ => none

/-- The pattern means the same to every reader of regular expressions: the groups in it are of the oldest
kinds.  What is escaped or in a class opens no group; the flag says whether a class is open. -/
def hasPlainGroups (inClass : Bool) : List Char → Bool
  | '\\' :: _ :: r => hasPlainGroups inClass r
  | '[' :: r => hasPlainGroups true r
  | ']' :: r => hasPlainGroups false r
  | '(' :: '?' :: c :: r =>
    (inClass || c == ':' || c == '=' || c == '!') && hasPlainGroups inClass (c :: r)
  | _ :: r => hasPlainGroups inClass r
  | [] => true

/-- The text of the pattern of a regular expression, if neither a flag nor a group in it is one of those
that were added to the language later. -/
def patternText? : Tree → Option String
  | .node (.regex pattern flags) _ _ =>
    if (flags.all fun c => c == 'g' || c == 'i' || c == 'm') && hasPlainGroups false pattern.toList then
      some pattern
    else none
  | _ => none

/-- Access to a property whose value is known. -/
def foldMember (names : Names) (purpose : Purpose) (name : String) (optional : Bool) (span : Span)
    (object : Tree) : Tree :=
  let whole := Tree.node (.member name optional) span [object]
  if optional || purpose == .target then whole
  else if name == "source" then
    ((patternText? object).map fun s => (Constant.string s).toTree).getD whole
  else if object.identifierName? == some "Number" && names.isGlobal "Number" then
    if purpose == .value then (numberProperty? name).getD whole else whole
  else if name == "length" then (length? names object).getD whole
  else whole

/-- What an optional access or call is made on: a chain of accesses goes on with it. -/
def withoutChain : Tree → Tree
  | .node .chain _ [e] => e
  | t => t

/-- An optional access or call on a chain, as a part of that chain. -/
def continuedChain (label : Label) (parts : List Tree) : List Tree :=
  match label, parts with
  | .member _ true, first :: rest | .privateMember _ true, first :: rest
  | .index true, first :: rest | .call true _, first :: rest => withoutChain first :: rest
  | _, _ => parts

/-- A chain of accesses.  If its last access is optional and made on what is null or undefined, it gives
undefined, and what was to be accessed is not computed. -/
def foldChain (span : Span) (e : Tree) : Tree :=
  let whole := Tree.node .chain span [e]
  let object? :=
    match e with
    | .node (.member _ true) _ [object] | .node (.privateMember _ true) _ [object]
    | .node (.index true) _ [object, _] => some object
    | .node (.call true _) _ (callee :: _) => some callee
    | _ => none
  match object? with
  | some object =>
    if object.kind? == some .null || object.kind? == some .undefined then Tree.undefined
    else whole
  | none => whole

/-! ## 3. Arrays -/

/-- The elements of an array as arguments: a hole is undefined. -/
def asArguments (elements : List Tree) : List Tree :=
  elements.map fun e => if e.label == .elision then Tree.undefined else e

/-- Arguments with the arrays that are spread among them opened. -/
def openedArguments (args : List Tree) : List Tree :=
  args.flatMap fun
    | .node .spread _ [.node .array _ elements] => asArguments elements
    | t => [t]

/-- The texts of an array, if it holds nothing else. -/
def textsOf? (elements : List Tree) : Option (List String) := elements.mapM Tree.stringValue?

/-- A separator that none of the texts holds; none is needed between single characters. -/
def separator? (texts : List String) : Option String :=
  if texts.all (·.utf8ByteSize == 1) then some ""
  else [".", ",", "(", ")", " "].find? fun s => !texts.any (·.contains s)

/-- The fewest texts in an array for which splitting one text pays. -/
def leastTexts : Nat := 26

/-- An array. -/
def foldArray (span : Span) (elements : List Tree) : Tree :=
  let whole := Tree.node .array span elements
  if elements.length < leastTexts then whole
  else
    match textsOf? elements with
    | some texts =>
      match separator? texts with
      | some s =>
        .node (.call false true) span
          [.make (.member "split" false) [(Constant.string (s.intercalate texts)).toTree], .absent,
            (Constant.string s).toTree]
      | none => whole
    | none => whole

/-! ## 4. Objects -/

/-- The property sets the prototype of the object. -/
def setsPrototype : Tree → Bool
  | .node (.property false _) _ [key, _] =>
    match key.label with
    | .propertyName name | .string name _ => name == "__proto__"
    | _ => false
  | _ => false

/-- The property may be written in another object: it is no accessor, and does not set a prototype that
has effects when it is computed. -/
def isMovable (names : Names) : Tree → Bool
  | .node (.property computed shorthand) span [key, value] =>
    !setsPrototype (.node (.property computed shorthand) span [key, value]) || !value.acts names
  | .node (.propertyMethod kind _) _ _ => kind == .method
  | _ => true

/-- A value without properties that are gone over. -/
def isBare (t : Tree) : Bool :=
  match t.constant? with
  | some (.string _) => false
  | some _ => true
  | none =>
    match t.label with
    | .function .. | .arrow .. | .regex .. => true
    | .array => t.parts.isEmpty
    | _ => false

/-- The properties in the place of one.  The prototype of an object that is spread is lost. -/
def openedProperty (names : Names) : Tree → List Tree
  | .node .spread span [.node .object s properties] =>
    if properties.all (isMovable names) then properties.filter fun p => !setsPrototype p
    else [.node .spread span [.node .object s properties]]
  | .node .spread span [e] => if isBare e then [] else [.node .spread span [e]]
  | t => [t]

/-- An object with the objects that are spread in it opened. -/
def foldObject (names : Names) (span : Span) (properties : List Tree) : Tree :=
  .node .object span (properties.flatMap (openedProperty names))

end PackageRefs.Script.Compress
