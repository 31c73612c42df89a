/-
# Syntax trees

A program is a tree of nodes of one type.  A node has a label, which says what kind of syntax it is
and holds what belongs to the node alone, a span of the text, and its parts in the order in which
they are read.  An optional part that is missing is the node `Tree.absent`, so a part's place among
its siblings says what it is; the layout of each label's parts is in its comment.

**Why one type.**  Expressions, patterns, statements and types nest in each other without end, and
nearly every question asked here -- which packages does a program mention, what is left when one is
taken away -- is asked of a node and all nodes below it.  With one type such a question is one
recursion over `Tree` and `List Tree`, whatever the kinds of syntax in between.

Statement lists have a node of their own, `Label.statements`: a program, a block, a function body, a
case and a namespace all hold one, and removal works on it.
-/
import PackageRefs.Number.Binary64
import PackageRefs.Script.Operator

namespace PackageRefs.Script

open PackageRefs.Number (Binary64)

/-- A stretch of source text, counted in characters. -/
structure Span where
  start : Nat
  stop : Nat
  deriving DecidableEq, Inhabited, Repr

/-- How variables are declared. -/
inductive VariableKind where
  | var | let | const | using | awaitUsing
  deriving DecidableEq, Inhabited, Repr

/-- The declaring words. -/
def VariableKind.text : VariableKind → String
  | var => "var"
  | «let» => "let"
  | const => "const"
  | «using» => "using"
  | awaitUsing => "await using"

/-- Where a function stands. -/
inductive FunctionRole where
  | declaration | expression | method
  deriving DecidableEq, Inhabited, Repr

/-- What a method of a class or an object does. -/
inductive MethodKind where
  | constructor | method | get | set
  deriving DecidableEq, Inhabited, Repr

/-- The words written before a member of a class or before a constructor's parameter. -/
structure Modifiers where
  access : Option String := none
  isStatic : Bool := false
  isAbstract : Bool := false
  isOverride : Bool := false
  isReadonly : Bool := false
  isDeclare : Bool := false
  isOptional : Bool := false
  isDefinite : Bool := false
  deriving DecidableEq, Inhabited, Repr

/-- A modifier of a mapped type: absent, plain, or with a sign before it. -/
inductive MappedModifier where
  | none | plain | plus | minus
  deriving DecidableEq, Inhabited, Repr

/-- The kind of a node.  The parts of a node are listed after its label in square brackets; a
question mark means that the part may be `absent`. -/
inductive Label where
  /-- a missing part -/
  | absent
  /-- a hole in an array -/
  | elision
  /-- several nodes that fill one place [node, …] -/
  | group
  -- literals
  | null
  | bool (value : Bool)
  | number (value : Binary64)
  | bigint (digits : String)
  | regex (pattern flags : String)
  /-- When `lone`, U+FFFD and four hexadecimal digits stand for a lone surrogate. -/
  | string (value : String) (lone : Bool)
  /-- [quasi, expression, quasi, …, quasi] -/
  | template
  | quasi (raw : String) (cooked : Option String)
  -- names
  | identifier (name : String)
  | binding (name : String)
  | propertyName (name : String)
  | privateName (name : String)
  | this
  | super
  | metaProperty (object property : String)
  -- expressions
  /-- [element, …] -/
  | array
  /-- [property, …] -/
  | object
  /-- [key, value] -/
  | property (computed shorthand : Bool)
  /-- [key, function] -/
  | propertyMethod (kind : MethodKind) (computed : Bool)
  /-- [expression] -/
  | spread
  /-- [name?, type parameters?, this parameter?, parameters, return type?, body?] -/
  | function (role : FunctionRole) (isAsync isGenerator isDeclare wrapped isPure : Bool)
  /-- [type parameters?, parameters, return type?, body] -/
  | arrow (isAsync expressionBody wrapped isPure : Bool)
  /-- [directives, statements] -/
  | functionBody
  /-- [parameter, …] -/
  | parameters
  /-- [decorators, pattern] -/
  | parameter (modifiers : Modifiers)
  /-- [type?] -/
  | thisParameter
  /-- [decorators, name?, type parameters?, parent?, parent's type arguments?, implemented, members] -/
  | class (isDeclaration isAbstract isDeclare : Bool)
  /-- [member, …] -/
  | classBody
  /-- [decorators, key, function] -/
  | methodDefinition (kind : MethodKind) (computed : Bool) (modifiers : Modifiers)
  /-- [decorators, key, type?, value?] -/
  | field (computed accessor : Bool) (modifiers : Modifiers)
  /-- [statements] -/
  | staticBlock
  /-- [expression] -/
  | decorator
  /-- [callee, type arguments?, argument, …] -/
  | call (optional isPure : Bool)
  /-- [callee, type arguments?, argument, …] -/
  | new (isPure : Bool)
  /-- [object] -/
  | member (name : String) (optional : Bool)
  /-- [object] -/
  | privateMember (name : String) (optional : Bool)
  /-- [object, index] -/
  | index (optional : Bool)
  /-- [chain of accesses and calls] -/
  | chain
  /-- [source, options?] -/
  | importCall (phase : Option String)
  /-- [tag, type arguments?, template] -/
  | taggedTemplate
  /-- [operand] -/
  | unary (op : UnaryOp)
  /-- [target] -/
  | update (increment before : Bool)
  /-- [left, right] -/
  | binary (op : BinaryOp)
  /-- [left, right] -/
  | logical (op : LogicalOp)
  /-- [target, value] -/
  | assign (op : AssignOp)
  /-- [test, then, else] -/
  | conditional
  /-- [expression, …] -/
  | sequence
  /-- [expression] -/
  | parenthesized
  /-- [expression?] -/
  | yield (delegate : Bool)
  /-- [expression] -/
  | await
  /-- [expression] -/
  | privateIn (name : String)
  -- patterns of declarations and targets of assignments
  /-- [property, …] -/
  | objectPattern
  /-- [element, …] -/
  | arrayPattern
  /-- [key, pattern] -/
  | patternProperty (computed shorthand : Bool)
  /-- [pattern, value] -/
  | patternDefault
  /-- [pattern] -/
  | rest
  /-- [pattern, type?] -/
  | typedPattern (optional : Bool)
  /-- [property, …] -/
  | objectTarget
  /-- [element, …] -/
  | arrayTarget
  /-- [key, target] -/
  | targetProperty (computed shorthand : Bool)
  /-- [target, value] -/
  | targetDefault
  -- statements
  /-- [directives, statements] -/
  | program (hashbang : Option String)
  /-- [directive, …] -/
  | directives
  | directive (raw : String)
  /-- [statement, …] -/
  | statements
  /-- [expression] -/
  | expressionStatement
  | emptyStatement
  | debugger
  /-- [statements] -/
  | block
  /-- [test, then, else?] -/
  | if
  /-- [start?, test?, step?, body] -/
  | for
  /-- [left, right, body] -/
  | forIn
  /-- [left, right, body] -/
  | forOf (isAwait : Bool)
  /-- [test, body] -/
  | while
  /-- [body, test] -/
  | doWhile
  /-- [expression?] -/
  | return
  /-- [expression] -/
  | throw
  | break (label : Option String)
  | continue (label : Option String)
  /-- [body] -/
  | labeled (name : String)
  /-- [subject, case, …] -/
  | switch
  /-- [test?, statements] -/
  | case
  /-- [block, handler?, finalizer?] -/
  | try
  /-- [pattern?, block] -/
  | catch
  /-- [object, body] -/
  | with
  /-- [declarator, …] -/
  | variableList (kind : VariableKind) (isDeclare : Bool)
  /-- [pattern, value?] -/
  | declarator (definite : Bool)
  -- modules
  /-- [specifiers?, source, attributes?] -/
  | importDeclaration (typeOnly : Bool) (phase : Option String)
  /-- [specifier, …] -/
  | importSpecifiers
  /-- [binding] -/
  | importDefault
  /-- [binding] -/
  | importNamespace
  /-- [imported name, binding] -/
  | importNamed (typeOnly : Bool)
  /-- [attribute, …] -/
  | importAttributes (keyword : String)
  /-- [key, value] -/
  | importAttribute
  /-- [declaration?, specifiers, source?, attributes?] -/
  | exportNamed (typeOnly : Bool)
  /-- [local name, exported name] -/
  | exportSpecifier (typeOnly : Bool)
  /-- [exported name?, source, attributes?] -/
  | exportAll (typeOnly : Bool)
  /-- [declaration or expression] -/
  | exportDefault
  -- markup
  /-- [name, type arguments?, attributes, children, closing name?] -/
  | element
  /-- [child, …] -/
  | fragment
  /-- [name, value?] -/
  | tagAttribute
  /-- [expression] -/
  | spreadAttribute
  /-- a name written in small letters or with hyphens -/
  | tagName (name : String)
  | namespacedName (space name : String)
  /-- [object] -/
  | tagMember (name : String)
  | markupText (text : String)
  | markupString (text : String)
  /-- [expression?] -/
  | container
  /-- [expression] -/
  | spreadChild
  -- type annotations on expressions
  /-- [expression, type] -/
  | asType
  /-- [expression, type] -/
  | satisfies
  /-- [type, expression] -/
  | typeAssertion
  /-- [expression] -/
  | nonNull
  /-- [expression, type arguments] -/
  | instantiation
  -- types
  | keywordType (text : String)
  | thisType
  /-- [name, type arguments?] -/
  | typeReference
  /-- [left] -/
  | qualifiedName (name : String)
  /-- [name, type arguments?] -/
  | typeQuery
  /-- [type] -/
  | arrayType
  /-- [type, index] -/
  | indexedAccessType
  /-- [type] -/
  | optionalType
  /-- [type] -/
  | nullableType (postfixed : Bool)
  /-- [type] -/
  | nonNullableType (postfixed : Bool)
  /-- [type] -/
  | restType
  /-- [element, …] -/
  | tupleType
  /-- [type] -/
  | namedTupleMember (name : String) (optional : Bool)
  /-- [type, …] -/
  | unionType
  /-- [type, …] -/
  | intersectionType
  /-- [tested, bound, then, else] -/
  | conditionalType
  /-- [type parameter] -/
  | inferType
  /-- [type] -/
  | parenthesizedType
  /-- [type] -/
  | typeOperator (text : String)
  /-- [literal] -/
  | literalType
  /-- [quasi, type, quasi, …, quasi] -/
  | templateType
  /-- [type parameters?, this parameter?, parameters, return type] -/
  | functionType
  /-- [type parameters?, parameters, return type] -/
  | constructorType (isAbstract : Bool)
  /-- [member, …] -/
  | typeLiteral
  /-- [argument, options?, qualifier?, type arguments?] -/
  | importType
  /-- [key's bound, name type?, type?] -/
  | mappedType (key : String) (optional readonly : MappedModifier)
  /-- [subject, type?] -/
  | typePredicate (asserts : Bool)
  /-- [parameter, …] -/
  | typeParameters
  /-- [bound?, default?] -/
  | typeParameter (name : String) (isIn isOut isConst : Bool)
  /-- [type, …] -/
  | typeArguments
  /-- [key, type?] -/
  | propertySignature (computed optional isReadonly : Bool)
  /-- [key, type parameters?, this parameter?, parameters, return type?] -/
  | methodSignature (kind : MethodKind) (computed optional : Bool)
  /-- [type parameters?, this parameter?, parameters, return type?] -/
  | callSignature
  /-- [type parameters?, parameters, return type?] -/
  | constructSignature
  /-- [key's type, value's type] -/
  | indexSignature (key : String) (isReadonly : Bool)
  -- declarations of types
  /-- [name, type parameters?, parents, members] -/
  | interface
  /-- [expression, type arguments?] -/
  | heritage
  /-- [name, type parameters?, type] -/
  | typeAlias (isDeclare : Bool)
  /-- [name, member, …] -/
  | enum (isConst isDeclare : Bool)
  /-- [key, value?] -/
  | enumMember (computed : Bool)
  /-- [name, body?] -/
  | namespace (keyword : String) (isDeclare : Bool)
  /-- [directives, statements] -/
  | namespaceBody
  /-- [name, reference] -/
  | importEquals
  /-- [source] -/
  | externalModule
  /-- [expression] -/
  | exportAssignment
  | exportAsNamespace (name : String)
  deriving DecidableEq, Inhabited

/-- A node: what it is, where it stands, and its parts in reading order. -/
inductive Tree where
  | node (label : Label) (span : Span) (parts : List Tree)
  deriving Inhabited

namespace Tree

/-- What the node is. -/
def label : Tree → Label
  | node l _ _ => l

/-- Where the node stands. -/
def span : Tree → Span
  | node _ s _ => s

/-- The parts of the node. -/
def parts : Tree → List Tree
  | node _ _ ps => ps

/-- The part that is not there. -/
def absent : Tree := node .absent ⟨0, 0⟩ []

/-- The node stands for a missing part. -/
def isAbsent (t : Tree) : Bool := t.label == .absent

/-- The part if it is there. -/
def present? (t : Tree) : Option Tree := if t.isAbsent then none else some t

/-- An optional part as a node. -/
def ofOption (t : Option Tree) : Tree := t.getD absent

/-- The part at a place, or a missing one. -/
def part (t : Tree) (i : Nat) : Tree := t.parts.getD i absent

mutual

/-- The number of nodes on the longest way down. -/
def height : Tree → Nat
  | node _ _ ps => heightOfAll ps + 1

/-- The greatest height of several trees. -/
def heightOfAll : List Tree → Nat
  | [] => 0
  | t :: ts => max t.height (heightOfAll ts)

end

/-- The expression without the parentheses around it. -/
def withoutParentheses : Tree → Tree
  | node .parenthesized _ [inner] => inner.withoutParentheses
  | t => t

/-- The name, if the node is a plain reference to a name. -/
def identifierName? : Tree → Option String
  | node (.identifier name) _ _ => some name
  | _ => none

/-- The value, if the node is a string literal. -/
def stringValue? : Tree → Option String
  | node (.string value _) _ _ => some value
  | _ => none

end Tree

end PackageRefs.Script
