/-
# What can be wrong with a script

The complaints of the reader of scripts, one constructor for each cause.  `Diagnostic.message` is
the only place that holds their wording.
-/

namespace PackageRefs.Script

/-- A complaint about a script. -/
inductive Diagnostic where
  | unexpectedToken
  | conflictMarker
  | reservedName (word : String)
  | expected (wanted found : String)
  | expectedEither (first second found : String)
  | missingSemicolon
  | unterminatedString
  | unterminatedComment
  | unterminatedRegex
  | constWithoutValue
  | patternWithoutValue
  | usingWithoutValue
  | returnOutsideFunction
  | yieldOutsideGenerator
  | awaitOutsideAsync
  | awaitAsName
  | yieldAsName
  | awaitOutsideForOf
  | notAssignable
  | defaultOutsidePattern
  | charactersAfterNumber
  | invalidEscape
  | escapeInTemplate
  | invalidUnicodeEscape
  | invalidCharacter (c : Char)
  | unexpectedEnd
  | repeatedFlag (flag : Char)
  | unknownFlag (flag : Char)
  | exclusiveFlags
  | escapedKeyword
  | mixedCoalesce
  | unaryBeforePower
  | emptyParentheses
  | parenthesesTrailingComma
  | optionalTemplate
  | optionalNew
  | spreadLast
  | restLastInPattern
  | restLastInParameters
  | restTrailingComma
  | restInitializer
  | restOptional
  | restOfPattern
  | restOfPatternTarget
  | lexicalInSingleStatement
  | asyncInSingleStatement
  | generatorInSingleStatement
  | classInSingleStatement
  | newlineBeforeArrow
  | newlineAfterThrow
  | handlerExpected
  | mismatchedTag (name : String)
  | mismatchedFragment
  | strayInMarkup (c : Char)
  | asyncForOf
  | letForOf
  | flowSource
  | typeScriptOnly (what : String)
  | invalidMetaProperty (object property : String)
  | superNotAllowed
  | privateConstructor
  | accessOfPrivate
  | staticPrototype
  | accessorAsConstructor
  | asyncConstructor
  | generatorConstructor
  | optionalConstructor
  | genericConstructor
  | thisParameterOfConstructor
  | constructorField
  | getterWithParameters
  | setterParameters
  | setterRest
  | setterDefault
  | modifierNotAllowed (word : String)
  | modifierMisplaced (word where_ : String)
  | modifierRepeated (word : String)
  | readonlyMethod
  | optionalDefiniteField
  | optionalAccessor
  | definiteWithValue
  | definiteWithoutType
  | decoratorExpression
  | decoratorMisplaced
  | decoratorsTwice
  | usingInCase
  | usingForIn (isAwait : Bool)
  | usingExported
  | clauseRepeated (word : String)
  | clauseOrder
  | interfaceImplements
  | computedMember
  | numericMember
  | loneSurrogateInName
  | abstractMethodWithBody (name : String)
  | abstractAccessorWithBody
  | abstractFieldWithValue (name : String)
  | importNeedsArgument
  | importArguments
  | importInNew
  | privateInPrivate
  | bodyOfDeclared
  | exportedStringWithoutSource
  | reservedLocalExport
  | typeModifierTwice (isImport : Bool)
  | thisParameterOnArrow
  | emptyTypeParameters
  | emptyTypeArguments
  | returnTypeOfSetter
  | optionalRestMember
  | optionalTupleMember
  | readonlyOfOther
  | newTargetName
  | duplicateExport (name : String)
  | duplicateDefaultExport
  | other (text : String)
  deriving DecidableEq, Inhabited, Repr

namespace Diagnostic

/-- The wording of a complaint. -/
def message : Diagnostic → String
  | unexpectedToken => "Unexpected token"
  | conflictMarker => "Encountered diff marker"
  | reservedName word =>
    "Identifier expected. '" ++ word ++ "' is a reserved word that cannot be used here."
  | expected wanted found => "Expected `" ++ wanted ++ "` but found `" ++ found ++ "`"
  | expectedEither first second found =>
    "Expected `" ++ first ++ "` or `" ++ second ++ "` but found `" ++ found ++ "`"
  | missingSemicolon =>
    "Expected a semicolon or an implicit semicolon after a statement, but found none"
  | unterminatedString => "Unterminated string"
  | unterminatedComment => "Unterminated multiline comment"
  | unterminatedRegex => "Unterminated regular expression"
  | constWithoutValue => "Missing initializer in const declaration"
  | patternWithoutValue => "Missing initializer in destructuring declaration"
  | usingWithoutValue => "Using declarations must have an initializer."
  | returnOutsideFunction => "A 'return' statement can only be used within a function body."
  | yieldOutsideGenerator => "A 'yield' expression is only allowed in a generator body."
  | awaitOutsideAsync =>
    "`await` is only allowed within async functions and at the top levels of modules"
  | awaitAsName => "Cannot use `await` as an identifier in an async context"
  | yieldAsName => "Cannot use `yield` as an identifier in a generator context"
  | awaitOutsideForOf => "await can only be used in conjunction with `for...of` statements"
  | notAssignable => "Cannot assign to this expression"
  | defaultOutsidePattern => "Invalid assignment in object literal"
  | charactersAfterNumber => "Invalid characters after number"
  | invalidEscape => "Invalid escape sequence"
  | escapeInTemplate => "Bad escape sequence in untagged template literal"
  | invalidUnicodeEscape => "Invalid Unicode escape sequence"
  | invalidCharacter c => "Invalid Character `" ++ c.toString ++ "`"
  | unexpectedEnd => "Unexpected end of file"
  | repeatedFlag flag =>
    "Flag " ++ flag.toString ++ " is mentioned twice in regular expression literal"
  | unknownFlag flag => "Unexpected flag " ++ flag.toString ++ " in regular expression literal"
  | exclusiveFlags =>
    "The 'u' and 'v' regular expression flags cannot be enabled at the same time"
  | escapedKeyword => "Keywords cannot contain escape characters"
  | mixedCoalesce => "Logical expressions and coalesce expressions cannot be mixed"
  | unaryBeforePower => "Unexpected exponentiation expression"
  | emptyParentheses => "Empty parenthesized expression"
  | parenthesesTrailingComma => "Parenthesized expressions may not have a trailing comma."
  | optionalTemplate => "Tagged template expressions are not permitted in an optional chain"
  | optionalNew => "Invalid optional chain from new expression."
  | spreadLast => "Spread must be last element"
  | restLastInPattern => "A rest element must be last in a destructuring pattern"
  | restLastInParameters => "A rest parameter must be last in a parameter list"
  | restTrailingComma => "A rest parameter or binding pattern may not have a trailing comma."
  | restInitializer => "A rest parameter cannot have an initializer"
  | restOptional => "A rest parameter cannot be optional"
  | restOfPattern => "Invalid rest element"
  | restOfPatternTarget => "Invalid rest operator's argument."
  | lexicalInSingleStatement =>
    "Lexical declaration cannot appear in a single-statement context"
  | asyncInSingleStatement =>
    "Async functions can only be declared at the top level or inside a block"
  | generatorInSingleStatement =>
    "Generators can only be declared at the top level or inside a block"
  | classInSingleStatement => "Invalid class declaration"
  | newlineBeforeArrow => "Line terminator not permitted before arrow"
  | newlineAfterThrow => "Illegal newline after throw"
  | handlerExpected => "Missing catch or finally clause"
  | mismatchedTag name => "Expected corresponding JSX closing tag for '" ++ name ++ "'."
  | strayInMarkup c =>
    let name := if c == '>' then "gt" else "rbrace"
    "Unexpected token. Did you mean `\x7b'" ++ c.toString ++ "'\x7d` or `&" ++ name ++ ";`?"
  | mismatchedFragment => "Expected corresponding closing tag for JSX fragment."
  | asyncForOf => "The left-hand side of a `for...of` statement may not be `async`"
  | letForOf => "The left-hand side of a `for...of` statement may not start with `let`"
  | flowSource => "Flow is not supported"
  | typeScriptOnly what => what ++ " can only be used in TypeScript files."
  | invalidMetaProperty object property =>
    "The only valid meta property for " ++ object ++ " is " ++ object ++ "." ++ property
  | superNotAllowed => "'super' can only be used with function calls or in property accesses"
  | privateConstructor => "Classes can't have an element named '#constructor'"
  | accessOfPrivate => "An accessibility modifier cannot be used with a private identifier."
  | staticPrototype => "Classes may not have a static property named 'prototype'"
  | accessorAsConstructor => "Constructor can't have get/set modifier"
  | asyncConstructor => "Constructor can't be an async method"
  | generatorConstructor => "Constructor can't be a generator"
  | optionalConstructor => "Constructor can't be optional"
  | genericConstructor => "Type parameters cannot appear on a constructor declaration"
  | thisParameterOfConstructor => "A constructor cannot have a 'this' parameter."
  | constructorField => "Classes can't have a field named 'constructor'"
  | getterWithParameters => "A 'get' accessor must not have any formal parameters."
  | setterParameters => "A 'set' accessor must have exactly one parameter."
  | setterRest => "A 'set' accessor cannot have rest parameter."
  | setterDefault => "A 'set' accessor cannot have an initializer."
  | modifierNotAllowed word => "'" ++ word ++ "' modifier cannot be used here."
  | modifierMisplaced word where_ => "'" ++ word ++ "' modifier cannot " ++ where_ ++ "."
  | modifierRepeated word =>
    if word == "public" || word == "private" || word == "protected" then
      "Accessibility modifier already seen."
    else "'" ++ word ++ "' modifier already seen."
  | readonlyMethod =>
    "'readonly' modifier can only appear on a property declaration or index signature."
  | optionalDefiniteField => "A property cannot be both optional and definite."
  | optionalAccessor => "An 'accessor' property cannot be declared optional."
  | definiteWithValue =>
    "Declarations with initializers cannot also have definite assignment assertions."
  | definiteWithoutType =>
    "Declarations with definite assignment assertions must also have type annotations."
  | decoratorExpression =>
    "Expression must be enclosed in parentheses to be used as a decorator."
  | decoratorMisplaced => "Decorators are not valid here."
  | decoratorsTwice =>
    "Decorators may not appear after 'export' or 'export default' if they also appear before 'export'."
  | usingInCase => "Using declaration cannot appear in the bare case statement."
  | usingForIn isAwait =>
    "The left-hand side of a for...in statement cannot be an " ++
      (if isAwait then "await " else "") ++ "using declaration."
  | usingExported => "Using declarations cannot be exported directly."
  | clauseRepeated word => "'" ++ word ++ "' clause already seen"
  | clauseOrder => "'extends' clause must precede 'implements' clause"
  | interfaceImplements => "Interface declaration cannot have 'implements' clause."
  | computedMember => "Computed property names are not allowed in enums."
  | numericMember => "An enum member cannot have a numeric name."
  | loneSurrogateInName => "An export name cannot include a unicode lone surrogate"
  | abstractMethodWithBody name =>
    "Method '" ++ name ++ "' cannot have an implementation because it is marked abstract."
  | abstractAccessorWithBody => "An abstract accessor cannot have an implementation."
  | abstractFieldWithValue name =>
    "Property '" ++ name ++ "' cannot have an initializer because it is marked abstract."
  | importInNew => "Cannot use new with dynamic import"
  | privateInPrivate => "Unexpected private identifier"
  | bodyOfDeclared => "An implementation cannot be declared in ambient contexts."
  | importNeedsArgument => "import() requires a specifier."
  | importArguments =>
    "Dynamic imports can only accept a module specifier and an optional set of attributes as " ++
      "arguments"
  | exportedStringWithoutSource =>
    "A string literal cannot be used as an exported binding without `from`"
  | reservedLocalExport =>
    "A reserved word cannot be used as an exported binding without `from`"
  | typeModifierTwice isImport =>
    let word := if isImport then "import" else "export"
    "The 'type' modifier cannot be used on a named " ++ word ++ " when '" ++ word ++
      " type' is used on its " ++ word ++ " statement."
  | thisParameterOnArrow => "An arrow function cannot have a 'this' parameter."
  | emptyTypeParameters => "Type parameter list cannot be empty."
  | emptyTypeArguments => "Type argument list cannot be empty."
  | returnTypeOfSetter => "A 'set' accessor cannot have a return type annotation."
  | optionalRestMember => "A tuple member cannot be both optional and rest."
  | optionalTupleMember =>
    "A labeled tuple element is declared as optional with a question mark after the name and " ++
      "before the colon, rather than after the type."
  | readonlyOfOther =>
    "'readonly' type modifier is only permitted on array and tuple literal types."
  | newTargetName => "The only valid meta property for new is new.target"
  | duplicateExport name => "Duplicated export '" ++ name ++ "'"
  | duplicateDefaultExport => "Duplicated default export"
  | other text => text

end Diagnostic

end PackageRefs.Script
