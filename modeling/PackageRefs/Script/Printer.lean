/-
# Writing a script

`print` turns a tree back into text.  `written` decides by the label of a node which rule applies;
the rules reach the parts of a node through the writer that they are given, so the height of the
tree bounds how deep they nest.
-/
import PackageRefs.Script.Printer.Markup
import PackageRefs.Script.Printer.Module

namespace PackageRefs.Script

namespace Printer

/-! ## 1. Expressions -/

/-- Writes an expression or a part of one; the answer is `none` for other syntax. -/
def expression? (pr : Writer) (t : Tree) (place : Place) : Option Print :=
  match t with
  | .node label span parts =>
    match label, parts with
    | .null, _ => some (word "null")
    | .bool value, _ => some (word (if value then "true" else "false"))
    | .number x, _ => some (number x place.level)
    | .bigint digits, _ => some (word (digits ++ "n"))
    | .regex pattern flags, _ => some (regex pattern flags)
    | .string value lone, _ => some (string value lone true)
    | .template, _ => some (template pr parts)
    | .identifier name, _ | .binding name, _ | .propertyName name, _ => some (word name)
    | .privateName name, _ => some (do char '#'; raw name)
    | .this, _ => some (word "this")
    | .super, _ => some (word "super")
    | .metaProperty object name, _ => some (do word object; char '.'; raw name)
    | .array, _ => some (array pr parts)
    | .object, _ => some (object pr parts)
    | .property computed shorthand, [k, v] => some (property pr computed shorthand k v)
    | .propertyMethod kind computed, [k, f] => some (method pr kind computed false k f)
    | .spread, [e] => some (do raw "..."; pr e .item)
    | .function role isAsync isGenerator isDeclare inside isPure, _ =>
      some do
        when isPure (harmlessNote ' ')
        function pr role isAsync isGenerator isDeclare inside parts
    | .arrow isAsync isExpression inside isPure, _ =>
      some do
        when isPure (harmlessNote ' ')
        arrow pr isAsync isExpression inside parts place
    | .class isDeclaration isAbstract isDeclare, _ =>
      some (Printer.class pr isDeclaration isAbstract isDeclare parts)
    | .call optional isPure, _ => some (call pr optional isPure span parts place)
    | .new isPure, _ => some (construction pr isPure span parts place)
    | .member name optional, [object] => some (access pr name optional object place)
    | .privateMember name optional, [object] => some (access pr ("#" ++ name) optional object place)
    | .index optional, [object, index] => some (indexAccess pr optional object index place)
    | .chain, [e] => some (wrapped (Precedence.postfixed.rank ≤ place.level.rank) (pr e place))
    | .importCall phase, [source, options] => some (importCall pr phase span source options place)
    | .taggedTemplate, [tag, args, quasi] =>
      some do
        pr tag (.under .postfixed)
        unless args.isAbsent do pr args .free
        pr quasi .free
    | .unary op, [e] => some (unary pr op e place)
    | .update increment before, [e] => some (update pr increment before e place)
    | .binary op, [l, r] => some (binary pr op l r place)
    | .logical op, [l, r] => some (logical pr op l r place)
    | .assign op, [target, value] => some (assignment pr op target value place)
    | .conditional, [test, yes, no] => some (conditional pr test yes no place)
    | .sequence, _ => some (sequence pr parts place)
    | .parenthesized, [e] => some (pr e place)
    | .yield delegate, [e] => some (yieldExpression pr delegate e place)
    | .await, [e] => some (await pr e place)
    | .privateIn name, [e] =>
      some (wrapped (Precedence.compare.rank ≤ place.level.rank) do
        char '#'
        raw name
        raw " in "
        pr e (.under .equals))
    | .asType, [e, type] => some (asType pr e type place)
    | .satisfies, [e, type] => some (satisfies pr e type place)
    | .typeAssertion, [type, e] => some (typeAssertion pr type e place)
    | .nonNull, [e] => some (nonNull pr e place)
    | .instantiation, [e, args] => some (do pr e place; pr args .free)
    | .element, _ => some (element pr parts)
    | .fragment, _ => some (fragment pr parts)
    | .tagName name, _ => some (raw name)
    | .namespacedName space name, _ => some (do raw space; char ':'; raw name)
    | .tagMember name, [object] => some (do pr object .free; char '.'; raw name)
    | .markupText text, _ => some (raw text)
    | .markupString text, _ => some (attributeText text)
    | .container, [e] => some (container pr span e)
    | .spreadChild, [e] => some (do raw "\x7b..."; pr e .item; char '\x7d')
    | .parameter m, [marks, pattern] => some (parameter pr m marks pattern)
    | .thisParameter, [type] => some (do raw "this"; wideAnnotation pr type)
    | .objectPattern, _ => some (objectPattern pr parts)
    | .arrayPattern, _ => some (elements pr parts)
    | .patternProperty computed _, [k, v] => some (patternProperty pr computed k v)
    | .patternDefault, [pattern, value] => some (withDefault pr pattern value)
    | .rest, [pattern] => some (do raw "..."; pr pattern .item)
    | .typedPattern optional, [pattern, type] =>
      some (do pr pattern .free; when optional (char '?'); annotation pr type)
    | .objectTarget, _ =>
      some (do char '\x7b'; separated comma (pr · .item) parts; char '\x7d')
    | .arrayTarget, _ => some (elements pr parts)
    | .targetProperty computed shorthand, [k, v] => some (targetProperty pr computed shorthand k v)
    | .targetDefault, [target, value] => some (withDefault pr target value)
    | _, _ => none

/-! ## 2. Types -/

/-- Writes a type or a part of one; the answer is `none` for other syntax. -/
def type? (pr : Writer) (t : Tree) : Option Print :=
  match t with
  | .node label _ parts =>
    match label, parts with
    | .keywordType text, _ => some (raw text)
    | .thisType, _ => some (raw "this")
    | .typeReference, [name, args] =>
      some (do pr name .free; unless args.isAbsent do pr args .free)
    | .heritage, [name, args] => some (do pr name .free; unless args.isAbsent do pr args .free)
    | .qualifiedName name, [left] => some (do pr left .free; char '.'; raw name)
    | .typeQuery, [name, args] =>
      some (do raw "typeof "; pr name .free; unless args.isAbsent do pr args .free)
    | .arrayType, [type] => some (do pr type .free; raw "[]")
    | .indexedAccessType, [type, index] =>
      some (do pr type .free; char '['; pr index .free; char ']')
    | .optionalType, [type] => some (do pr type .free; char '?')
    | .nullableType postfixed, [type] => some (markedType '?' postfixed (pr type .free))
    | .nonNullableType postfixed, [type] => some (markedType '!' postfixed (pr type .free))
    | .restType, [type] => some (do raw "..."; pr type .free)
    | .tupleType, _ => some (do char '['; separated comma (pr · .free) parts; char ']')
    | .namedTupleMember name optional, [type] =>
      some (do raw name; when optional (char '?'); annotation pr type)
    | .unionType, _ => some (joinedTypes pr '|' parts)
    | .intersectionType, _ => some (joinedTypes pr '&' parts)
    | .conditionalType, [tested, bound, yes, no] => some (conditionalType pr tested bound yes no)
    | .inferType, [parameter] => some (do raw "infer "; pr parameter .free)
    | .parenthesizedType, [type] => some (do char '('; pr type .free; char ')')
    | .typeOperator text, [type] => some (do raw text; char ' '; pr type .free)
    | .literalType, [literal] => some (pr literal .free)
    | .templateType, _ => some (template pr parts)
    | .functionType, [generics, this, list, type] => some (functionType pr generics this list type)
    | .constructorType isAbstract, [generics, list, type] =>
      some do
        when isAbstract (raw "abstract ")
        raw "new "
        functionType pr generics .absent list type
    | .typeLiteral, _ => some (membersOnLines pr parts)
    | .importType, [argument, options, qualifier, args] =>
      some (importType pr argument options qualifier args)
    | .mappedType name optional readonly, [bound, renamed, type] =>
      some (mappedType pr name optional readonly bound renamed type)
    | .typePredicate asserts, [subject, type] => some (typePredicate pr asserts subject type)
    | .typeParameters, _ => some (typeParameters pr parts)
    | .typeParameter name isIn isOut isConst, [bound, default] =>
      some (typeParameter pr name isIn isOut isConst bound default)
    | .typeArguments, _ => some (angled pr nothing parts)
    | .propertySignature computed optional isReadonly, [k, type] =>
      some (propertySignature pr computed optional isReadonly k type)
    | .methodSignature kind computed optional, [k, generics, this, list, type] =>
      some (methodSignature pr kind computed optional k generics this list type)
    | .callSignature, [generics, this, list, type] => some (signature pr generics this list type)
    | .constructSignature, [generics, list, type] =>
      some (do raw "new "; signature pr generics .absent list type)
    | .indexSignature name isReadonly, [keyType, type] =>
      some (indexSignature pr name isReadonly keyType type)
    | .enumMember computed, [k, value] => some (enumMember pr computed k value)
    | .externalModule, [source] => some (do raw "require("; plainString pr source; char ')')
    | _, _ => none

/-! ## 3. Statements -/

/-- Writes a declaration that may also stand behind `export`, up to its end. -/
def declaration? (pr : Writer) (t : Tree) (place : Place) : Option Print :=
  match t with
  | .node label _ parts =>
    match label, parts with
    | .variableList kind isDeclare, _ =>
    some (variableList pr kind isDeclare parts { place with sameLine := false })
    | .function .declaration isAsync isGenerator isDeclare inside _, _ =>
      some (function pr .declaration isAsync isGenerator isDeclare inside parts)
    | .class true isAbstract isDeclare, _ => some (Printer.class pr true isAbstract isDeclare parts)
    | .interface, [name, generics, parents, members] =>
      some (interface pr name generics parents members)
    | .typeAlias isDeclare, [name, generics, type] => some (typeAlias pr isDeclare name generics type)
    | .enum isConst isDeclare, name :: members => some (enum pr isConst isDeclare name members)
    | .namespace keyword isDeclare, [name, body] =>
      some (Printer.namespace pr keyword isDeclare place.noCall name body)
    | .importEquals, [name, reference] => some (importEquals pr name reference)
    | _, _ => none

/-- Writes a statement behind its comments and its indentation; the answer is `none` for other
syntax. -/
def statement? (pr : Writer) (t : Tree) : Option Print :=
  match t with
  | .node label _ parts =>
    match label, parts with
    | .emptyStatement, _ => some (do char ';'; newline)
    | .debugger, _ => some (jump pr "debugger" .absent)
    | .block, _ => some (do block pr t; newline)
    | .if, [test, yes, no] => some (ifStatement pr test yes no)
    | .for, [first, test, step, inner] => some (forStatement pr first test step inner)
    | .forIn, [left, right, inner] => some (forInStatement pr left right inner)
    | .forOf isAwait, [left, right, inner] => some (forOfStatement pr isAwait left right inner)
    | .while, [test, inner] =>
      some (do word "while"; space; inParentheses pr test; body pr inner false)
    | .doWhile, [inner, test] => some (doStatement pr inner test)
    | .return, [value] => some (jump pr "return" value)
    | .throw, [value] => some (jump pr "throw" value)
    | .break label, _ => some (labelJump "break" label)
    | .continue label, _ => some (labelJump "continue" label)
    | .switch, subject :: cases => some (switchStatement pr subject cases)
    | .try, [inner, handler, finalizer] => some (tryStatement pr inner handler finalizer)
    | .with, [object, inner] =>
      some (do word "with"; inParentheses pr object; body pr inner false)
    | .importDeclaration typeOnly phase, [specifiers, source, list] =>
      some (importDeclaration pr typeOnly phase specifiers source list)
    | .exportNamed typeOnly, [declaration, specifiers, source, list] =>
      some (if declaration.isAbsent then exportNames pr typeOnly specifiers source list
        else exportDeclaration pr declaration)
    | .exportAll typeOnly, [name, source, list] => some (exportAll pr typeOnly name source list)
    | .exportDefault, [inner] => some (exportDefault pr inner)
    | .exportAssignment, [e] => some (do raw "export = "; pr e .free; endStatement)
    | .exportAsNamespace name, _ => some (do raw "export as namespace "; raw name; endStatement)
    | _, _ => none

/-- The statement declares a function whose calls have no effect. -/
def declaresHarmless : Tree → Bool
  | .node (.function .declaration _ _ _ _ isPure) _ _ => isPure
  | .node (.exportNamed _) _ (.node (.function .declaration _ _ _ _ isPure) _ _ :: _) => isPure
  | .node .exportDefault _ [.node (.function .declaration _ _ _ _ isPure) _ _] => isPure
  | _ => false

/-- Writes a statement with its comments and its indentation. -/
def statementLine (pr : Writer) (t : Tree) (place : Place) : Print := do
  commentsAt t.span.start
  when (declaresHarmless t) do
    indent
    harmlessNote '\n'
  match t with
  | .node .expressionStatement _ [e] => expressionStatement pr e
  | .node (.labeled name) _ [inner] =>
    expressionIndent
    word name
    char ':'
    body pr inner false
  | _ =>
    match declaration? pr t place with
    | some p =>
      indent
      p
      if endsLikeStatement t then endStatement else newline
    | none =>
      indent
      match statement? pr t with
      | some p => p
      | none => nothing

/-- The rule for a tree, given a writer for its parts. -/
def written (pr : Writer) : Writer := fun t place =>
  match t with
  | .node .absent _ _ | .node .elision _ _ => nothing
  | .node (.declarator definite) _ [pattern, value] => declarator pr definite pattern value place
  | _ =>
    if place.sameLine then
      match declaration? pr t place with
      | some p => p
      | none => (statement? pr t).getD nothing
    else
      match type? pr t with
      | some p => p
      | none =>
        match t, place.noIn with
        | .node (.variableList kind isDeclare) _ parts, true =>
          variableList pr kind isDeclare parts { noIn := true }
        | _, _ =>
          match t.label with
          | .function .declaration .. | .class true .. => statementLine pr t place
          | _ => (expression? pr t place).getD (statementLine pr t place)

/-- Writes trees up to the given height. -/
def writer : Nat → Writer
  | 0, _, _ => nothing
  | fuel + 1, t, place => written (writer fuel) t place

/-- Writes a whole script. -/
def program (t : Tree) : Print := do
  let pr := writer (t.height + 1)
  commentsAt 0
  match t with
  | .node (.program hashbang) span [directives, list] =>
    match hashbang with
    | some line =>
      raw "#!"
      raw line
      char '\n'
    | none => nothing
    directivesAndStatements pr directives list
    settleSemicolon
    commentsAt span.stop
  | _ => nothing

end Printer

/-- The text of a script in a style.  Comments are written in the spacious style. -/
def print (style : Style) (dialect : Dialect) (comments : List Comment) (t : Tree) : String :=
  let kept := comments.filter fun c =>
    style == .spacious && !(c.content == .harmlessCall || c.content == .harmlessFunction)
  let start : Output := { style, markup := dialect.jsx, comments := kept }
  String.ofList ((Printer.program t).run start).2.text.reverse

end PackageRefs.Script
