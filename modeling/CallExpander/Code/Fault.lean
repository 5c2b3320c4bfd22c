import CallExpander.Code.Point
import CallExpander.Text.Letter
import CallExpander.Text.Quoted

/-!
What can be wrong with program text, and how it is reported.
-/

namespace CallExpander.Code

open CallExpander.Text

/-- What is wrong with a program text. -/
inductive Problem where
  -- characters and literals
  | character (c : Char)
  | noDigits (base : Nat)
  | noExponent
  | nameAfterNumber
  | separator
  | legacyOctal
  | legacyOctalNumber
  | legacyDecimal
  | legacyComment
  | conflictMarker
  | badEscape (wanted : String)
  | badUnicodeEscape
  | openEscape
  | noUnicodeEscape
  | characterInName
  | escapedWord (word : String)
  | openString
  | openTemplate
  | openPattern
  | patternFlags
  | patternFlagTwice (flag : Char)
  | openComment
  | openMarkup
  | strayInMarkup (first second : String)
  -- what was wanted
  | unexpectedEnd
  | expressionExpected
  | expected (wanted found : String)
  | unexpected (found wanted : String)
  | statementEnd
  | semicolon
  | identifierExpected
  | nameExpected
  | danglingComma
  -- names
  | reservedName (name : String)
  | reservedBinding
  | awaitAsName
  | reservedShorthand
  | reservedImport
  | reservedArguments
  | argumentsInField
  | spaceBehindHash
  | className
  | interfaceName
  -- targets and patterns
  | assignmentTarget
  | notAssignable
  | notPattern
  | notPlace
  | notExpression
  | defaultInObject
  | restNotLast
  | commaBehindRest
  | restWithoutName
  -- functions
  | restParameterNotLast
  | restParameterOptional
  | restParameterDefault
  | optionalWithDefault
  | optionalPattern
  | annotationBehindDefault
  | parameterModifier
  | parameterPropertyPattern
  | defaultWithoutBody
  | getterParameter
  | setterParameter
  | setterRest
  | setterWithoutParameter
  | strictDirective
  | bodyInDeclaration
  | lineBreakBeforeArrow
  | arrowNotAllowed
  | awaitOutside
  | awaitInParameters
  | awaitStar
  | yieldInParameters
  | newTarget
  | superAccess
  | superCall
  | optionalSuper
  -- classes
  | constructorTwice
  | constructorAccessor
  | constructorField
  | constructorAsync
  | constructorGenerator
  | constructorPrivate
  | constructorModifier (word : String)
  | constructorTypeParameters
  | constructorType
  | noTypeParameters
  | noTypeArguments
  | readonlyMethod
  | readonlyAccessor
  | optionalAccessor
  | privateModifier (word : String)
  | privateAccess
  | declareMember
  | modifierOrder (first second : String)
  | modifierTwice (word : String)
  | modifierClash (first second : String)
  | modifierHere
  | asyncHere
  | abstractHere
  | abstractOutside
  | abstractBody
  | abstractValue
  | overrideWithoutBase
  | baseTwice
  | baseBehindInterfaces
  | manyBases
  | interfacesTwice
  | interfaceBase
  -- operators
  | nullishMix
  | powerOfUnary
  | deleteName
  | deleteOperand
  | chainedTemplate
  | chainedConstructor
  | nonNull (word : String)
  | emptyParentheses
  | spreadInParentheses
  | computedSequence
  | optionalProperty
  | importHere
  | commaInImport
  -- statements
  | constWithoutValue
  | patternWithoutValue
  | noVariables
  | returnOutside
  | breakOutside
  | breakLabel
  | continueOutside
  | continueLabel
  | labelTwice (label : String)
  | labelledFunction
  | labelledGenerator
  | declarationHere
  | withStrict
  | withTyped
  | manyDefaults
  | lineBreakAfterThrow
  | oneVariable
  | loopInitializer
  | loopTyped
  | loopPattern
  | asyncOf
  | awaitLoop
  | usingDisabled
  | usingHere
  | usingName
  | usingValue
  | usingInLoop
  -- modules
  | moduleItemHere
  | moduleItemNested
  | importString (text : String)
  | exportString
  | exportWithoutSource (name : String)
  | typeImportTwice
  | typeExportTwice
  -- types
  | modifierOnTypeParameter (word : String)
  | varianceModifier (word : String)
  | constTypeParameter (word : String)
  | indexParameter
  | requiredBehindOptional
  | privateInInterface
  | importTypeText
  | enumComputed
  | enumNumeric
  | declareTwice
  -- markup
  | closingTag (name : String)
  | emptyAttribute
  | attributeValue
  | tooDeep
  deriving Repr, DecidableEq, Inhabited

/-- The digits of a base, as messages name them. -/
def digitsName : Nat → String
  | 2 => "a binary"
  | 8 => "an octal"
  | 16 => "a hexadecimal"
  | _ => "a decimal"

/-- A character in a message's quotes. Marks that join the character before them are written by
their code. -/
def quotedChar (c : Char) : String :=
  if c == '\'' then "'\\''"
  else if c == '"' then "'\"'"
  else if inRanges markRanges c.toNat then "'\\u\x7b" ++ hexDigits c.toNat ++ "\x7d'"
  else "'" ++ quoteChar c ++ "'"

namespace Problem

/-- The message of a problem with characters and literals. -/
def lexicalMessage : Problem → String
  | character c => "Unexpected character " ++ quotedChar c
  | noDigits base => "Expected " ++ digitsName base ++ " digit"
  | noExponent => "Expected +, - or decimal digit after e"
  | nameAfterNumber => "Identifier cannot follow number"
  | separator => "A numeric separator is only allowed between two digits"
  | legacyOctal => "Legacy octal escape is not permitted in strict mode"
  | legacyOctalNumber =>
    "Legacy octal literals are not available when targeting ECMAScript 5 and higher"
  | legacyDecimal => "Legacy decimal escape is not permitted in strict mode"
  | legacyComment => "Legacy comments cannot be used in module code"
  | conflictMarker => "Merge conflict marker encountered."
  | badEscape wanted => "Bad character escape sequence, expected " ++ wanted
  | badUnicodeEscape => "Invalid unicode escape"
  | openEscape => "Invalid string escape"
  | noUnicodeEscape => "Expected unicode escape"
  | characterInName => "Invalid character in identifier"
  | escapedWord word => "Unexpected escape sequence in reserved word: " ++ word
  | openString => "Unterminated string constant"
  | openTemplate => "Unterminated template"
  | openPattern => "Unterminated regexp literal"
  | patternFlags => "Unknown regular expression flags."
  | patternFlagTwice flag => "Duplicated regular expression flag '" ++ flag.toString ++ "'."
  | openComment => "Unterminated block comment"
  | openMarkup => "Unterminated JSX contents"
  | strayInMarkup first second =>
    "Unexpected token. Did you mean `" ++ first ++ "` or `" ++ second ++ "`?"
  | _ => ""

/-- The message of a problem with a name, a target or a function. -/
def bindingMessage : Problem → String
  | reservedName name => "`" ++ name ++ "` cannot be used as an identifier in strict mode"
  | reservedBinding =>
    "'eval' and 'arguments' cannot be used as a binding identifier in strict mode"
  | awaitAsName => "`await` cannot be used as an identifier in an async context"
  | reservedShorthand => "cannot use a reserved word as a shorthand property"
  | reservedImport => "cannot import as reserved word"
  | reservedArguments => "Invalid use of 'arguments' in strict mode"
  | argumentsInField => "'arguments' is only allowed in functions and class methods"
  | spaceBehindHash => "Unexpected space between # and identifier"
  | className => "Invalid class name"
  | interfaceName => "interface name is invalid"
  | assignmentTarget => "Invalid assignment target"
  | notAssignable => "Cannot assign to this"
  | notPattern => "Not a pattern"
  | notPlace =>
    "The left-hand side of an assignment expression must be a variable or a property access."
  | notExpression => "Not an expression"
  | defaultInObject => "assignment property is invalid syntax"
  | restNotLast => "Rest element must be final element"
  | commaBehindRest => "Trailing comma isn't permitted after a rest element"
  | restWithoutName => "`...` must be followed by an identifier in declaration contexts"
  | restParameterNotLast => "A rest parameter must be last in a parameter list"
  | restParameterOptional => "A rest parameter cannot be optional"
  | restParameterDefault => "A rest parameter cannot have an initializer"
  | optionalWithDefault => "Parameter cannot have question mark and initializer"
  | optionalPattern =>
    "A binding pattern parameter cannot be optional in an implementation signature."
  | annotationBehindDefault => "Type annotations must come before default assignments"
  | parameterModifier => "A parameter property is only allowed in a constructor implementation"
  | parameterPropertyPattern =>
    "Typescript parameter property must be an identifier or assignment pattern"
  | defaultWithoutBody =>
    "A parameter initializer is only allowed in a function or constructor implementation"
  | getterParameter => "A `get` accessor cannot have parameters"
  | setterParameter => "A `set` accessor must have exactly one parameter"
  | setterRest => "Rest pattern is not allowed in setter"
  | setterWithoutParameter => "Setter should have exactly one parameter"
  | strictDirective =>
    "Illegal 'use strict' directive in function with non-simple parameter list."
  | bodyInDeclaration => "An implementation cannot be declared in ambient contexts"
  | lineBreakBeforeArrow => "Unexpected line break between arrow head and arrow"
  | arrowNotAllowed => "An arrow function is not allowed here"
  | awaitOutside => "await isn't allowed in non-async function"
  | awaitInParameters => "`await` expressions cannot be used in a parameter initializer."
  | awaitStar =>
    "await* has been removed from the async functions proposal. Use Promise.all() instead."
  | yieldInParameters => "'yield' cannot be used as a parameter within generator"
  | newTarget =>
    "'new.target' is only allowed in the body of a function declaration, function expression, "
      ++ "or class."
  | superAccess => "Invalid access to super"
  | superCall => "Invalid `super()`"
  | optionalSuper => "Super call cannot be optional"
  | _ => ""

def classMessage : Problem → String
  | constructorTwice => "A class can only have one constructor"
  | constructorAccessor => "Class constructor can't be an accessor."
  | constructorField => "Classes may not have a non-static field named 'constructor'"
  | constructorAsync => "Constructor can't be an async function"
  | constructorGenerator => "A constructor cannot be generator"
  | constructorPrivate => "Classes can't have a private field named '#constructor'."
  | constructorModifier word =>
    "'" ++ word ++ "' modifier cannot appear on a constructor declaration"
  | constructorTypeParameters => "Type parameters cannot appear on a constructor declaration"
  | constructorType => "Type annotation cannot appear on a constructor declaration"
  | noTypeParameters => "Type parameter list cannot be empty"
  | noTypeArguments => "Type argument list cannot be empty."
  | readonlyMethod => "A method cannot be readonly"
  | readonlyAccessor => "A getter or a setter cannot be readonly"
  | optionalAccessor => "A getter or a setter cannot be optional"
  | privateModifier word => "'" ++ word ++ "' modifier cannot be used with a private identifier"
  | privateAccess => "An accessibility modifier cannot be used with a private identifier"
  | declareMember => "`declare` modifier cannot appear on class elements of this kind"
  | modifierOrder first second =>
    "'" ++ first ++ "' modifier must precede '" ++ second ++ "' modifier."
  | modifierTwice word => "'" ++ word ++ "' modifier already seen."
  | modifierClash first second =>
    "'" ++ first ++ "' modifier cannot be used with '" ++ second ++ "' modifier."
  | modifierHere => "Modifiers cannot appear here"
  | asyncHere => "`async` modifier cannot be used here"
  | abstractHere => "`abstract` modifier can only appear on a class or method declaration."
  | abstractOutside => "Abstract methods can only appear within an abstract class."
  | abstractBody => "Abstract method cannot have an implementation."
  | abstractValue => "Abstract property cannot have an initializer."
  | overrideWithoutBase =>
    "This member cannot have an 'override' modifier because its containing class does not extend "
      ++ "another class."
  | baseTwice => "`extends` clause already seen."
  | baseBehindInterfaces => "'extends' clause must precede 'implements' clause."
  | manyBases => "Classes can only extend a single class"
  | interfacesTwice => "`implements` clause already seen"
  | interfaceBase =>
    "An interface can only extend an identifier/qualified-name with optional type arguments."
  | _ => ""

/-- The message of a problem with operators or statements. -/
def statementMessage : Problem → String
  | nullishMix =>
    "Nullish coalescing operator(??) requires parens when mixing with logical operators"
  | powerOfUnary => "'**' cannot be applied to unary/await expression."
  | deleteName => "'delete' cannot be called on an identifier in strict mode"
  | deleteOperand => "The operand of a delete operator must be a property reference."
  | chainedTemplate => "Tagged template literal is not allowed in optional chain."
  | chainedConstructor => "Constructor in/after an optional chaining is not allowed."
  | nonNull word => "Typescript non-null assertion operator is not allowed with '" ++ word ++ "'"
  | emptyParentheses => "Parenthesized expression cannot be empty"
  | spreadInParentheses => "Parenthesized expression cannot contain spread operator"
  | computedSequence => "A comma expression is not allowed in a computed property name"
  | optionalProperty => "An object member cannot be declared optional"
  | importHere => "Import is not allowed here"
  | commaInImport => "Trailing comma is disallowed inside import(...) arguments"
  | constWithoutValue => "'const' declarations must be initialized"
  | patternWithoutValue => "Destructuring bindings require initializers"
  | noVariables => "Variable declaration list cannot be empty"
  | returnOutside => "Return statement is not allowed here"
  | breakOutside =>
    "A 'break' statement can only be used within an enclosing iteration or switch statement"
  | breakLabel => "A 'break' statement can only jump to a label of an enclosing statement"
  | continueOutside =>
    "A 'continue' statement can only jump to a label of an enclosing iteration statement"
  | continueLabel => "Jump target cannot cross function boundary"
  | labelTwice label => "Label " ++ label ++ " is already declared"
  | labelledFunction => "Function cannot be labelled in strict mode"
  | labelledGenerator => "Generator or async function cannot be labelled"
  | declarationHere => "Declaration is not allowed"
  | withStrict => "With statement are not allowed in strict mode"
  | withTyped =>
    "The 'with' statement is not supported. All symbols in a 'with' block will have type 'any'."
  | manyDefaults => "A switch block cannot have multiple defaults"
  | lineBreakAfterThrow => "LineBreak cannot follow 'throw'"
  | oneVariable => "Expected one variable binding"
  | loopInitializer => "Unexpected initializer in for in/of loop"
  | loopTyped => "The left-hand side of a 'for...of' statement cannot use a type annotation"
  | loopPattern => "The left-hand side of a 'for...in' statement cannot be a destructuring pattern"
  | asyncOf => "The left-hand side of a `for...of` statement may not be `async`"
  | awaitLoop => "for await syntax is valid only for for-of statement"
  | usingDisabled =>
    "Using declaration is not enabled. Set jsc.parser.explicitResourceManagement to true"
  | usingHere => "Using declaration is not allowed here"
  | usingName => "Using declaration only allows identifiers"
  | usingValue => "Using declaration requires initializer"
  | usingInLoop => "Using declaration is not allowed in for-in loop"
  | _ => ""

/-- The message of a problem with modules, types or markup. -/
def structureMessage : Problem → String
  | moduleItemHere => "'import', and 'export' cannot be used outside of module code"
  | moduleItemNested => "'import', and 'export' are not permitted here"
  | importString text =>
    "A string literal cannot be used as an imported binding.\n- Did you mean `import \x7b \"" ++ text
      ++ "\" as foo \x7d`?"
  | exportString => "A string literal cannot be used as an exported binding without `from`."
  | exportWithoutSource name => "`" ++ name ++ "` cannot be used without `from` clause"
  | typeImportTwice =>
    "The 'type' modifier cannot be used on a named import when 'import type' is used on its import "
      ++ "statement."
  | typeExportTwice =>
    "The 'type' modifier cannot be used on a named export when 'export type' is used on its export "
      ++ "statement."
  | modifierOnTypeParameter word => "'" ++ word ++ "' modifier cannot appear on a type parameter"
  | varianceModifier word =>
    "'" ++ word ++ "' modifier can only appear on a type parameter of a class, interface or type "
      ++ "alias"
  | constTypeParameter word =>
    "'" ++ word ++ "' modifier can only appear on a type parameter of a function, method or class"
  | indexParameter => "An index signature must have exactly one parameter"
  | requiredBehindOptional => "A required element cannot follow an optional element."
  | privateInInterface => "private names are not allowed in interface"
  | importTypeText => "literal in an import type should be string literal"
  | enumComputed => "Computed property names are not allowed in enums"
  | enumNumeric => "An enum member cannot have a numeric name"
  | declareTwice => "`declare` modifier not allowed for code already in an ambient context"
  | closingTag name => "Expected corresponding JSX closing tag for <" ++ name ++ ">"
  | emptyAttribute => "JSX attributes must only be assigned a non-empty expression"
  | attributeValue => "JSX value should be either an expression or a quoted JSX text"
  | tooDeep => "Expression too deep"
  | _ => ""

def message (problem : Problem) : String :=
  match problem with
  | unexpectedEnd => "Unexpected eof"
  | expressionExpected => "Expression expected"
  | expected wanted found => "Expected '" ++ wanted ++ "', got '" ++ found ++ "'"
  | unexpected found wanted => "Unexpected token `" ++ found ++ "`. Expected " ++ wanted
  | statementEnd => "Expected ';', '\x7d' or <eof>"
  | semicolon => "Expected a semicolon"
  | identifierExpected => "Expected an identifier"
  | nameExpected => "Expected ident"
  | danglingComma => "Trailing comma is not allowed"
  | _ =>
    lexicalMessage problem ++ bindingMessage problem ++ classMessage problem
      ++ statementMessage problem ++ structureMessage problem

def isStrictOnly : Problem → Bool
  | legacyOctal | legacyDecimal | legacyComment | reservedName _ | reservedBinding
  | reservedArguments | deleteName | withStrict => true
  | _ => false

/-- The name of a problem that keeps a token from being read, as it stands where a token is
wanted. -/
def label : Problem → String
  | character c => "UnexpectedChar \x7b c: " ++ quotedChar c ++ " \x7d"
  | noDigits base => "ExpectedDigit \x7b radix: " ++ toString base ++ " \x7d"
  | noExponent => "NumLitTerminatedWithExp"
  | nameAfterNumber => "IdentAfterNum"
  | legacyOctal => "LegacyOctal"
  | badEscape wanted => "BadCharacterEscapeSequence \x7b expected: " ++ quoted wanted ++ " \x7d"
  | badUnicodeEscape => "InvalidUnicodeEscape"
  | openEscape => "InvalidStrEscape"
  | noUnicodeEscape => "ExpectedUnicodeEscape"
  | escapedWord word => "EscapeInReservedWord \x7b word: " ++ quoted word ++ " \x7d"
  | openTemplate => "UnterminatedTpl"
  | openPattern => "UnterminatedRegExp"
  | openMarkup => "UnterminatedJSXContents"
  | other => other.message

end Problem

structure Fault where
  problem : Problem
  span : Span
  deriving Repr, DecidableEq, Inhabited

end CallExpander.Code
