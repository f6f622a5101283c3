import Backwire.Schema.Lexeme

/-!
# Syntax errors

Why a text is not a schema, and where. Reading stops at the first error.
-/

namespace Backwire.Schema

/-- What the grammar asks for at a place. -/
inductive Wanted where
  | symbol (mark : Symbol)
  | importAlias
  | importPath
  | optionName
  | optionValue
  | enumName
  | valueName
  | valueNumber
  | messageName
  | fieldName
  | fieldTag
  | structName
  | serviceName
  | methodName
  | parameterName
  | type
  | typeName
  | declaration
  deriving DecidableEq, Repr

/-- What is asked for, as reports name it. -/
def Wanted.shown : Wanted → String
  | symbol mark => (Lexeme.symbol mark).shown
  | importAlias => "import alias"
  | importPath => "import path"
  | optionName => "option name"
  | optionValue => "option value"
  | enumName => "enum name"
  | valueName => "enum value name"
  | valueNumber => "enum value number"
  | messageName => "message name"
  | fieldName => "field name"
  | fieldTag => "field tag"
  | structName => "struct name"
  | serviceName => "service name"
  | methodName => "method name"
  | parameterName => "parameter name"
  | type => "type"
  | typeName => "type name"
  | declaration => "a declaration"

/-- Why a text is not a schema. -/
inductive SyntaxFault where
  /-- A character that starts no lexeme. -/
  | unexpectedCharacter (c : Char)
  /-- A comment without its end. -/
  | unterminatedComment
  /-- A quoted text without its closing quote on the same line. -/
  | unterminatedString
  /-- A backslash before a character that has no escaped meaning. -/
  | unknownEscape (c : Char)
  /-- A minus sign without a number. -/
  | loneMinus
  /-- A word that starts with a digit. -/
  | digitFirst
  /-- An integer, as it is written, that does not fit in 64 bits. -/
  | integerTooLarge (digits : String)
  /-- Something else stands where the grammar asks for a thing; `none` is the end of the file. -/
  | expected (wanted : Wanted) (found : Option Lexeme)
  /-- A declaration begins with a word that begins none. -/
  | unknownDeclaration (name : String)
  /-- The number of an enum value does not fit in 32 bits. -/
  | numberTooLarge (value : Int64)
  deriving DecidableEq, Repr

/-- The report of a fault. -/
def SyntaxFault.message : SyntaxFault → String
  | unexpectedCharacter c => "unexpected character " ++ Text.shownQuoted c
  | unterminatedComment => "unterminated block comment"
  | unterminatedString => "unterminated string"
  | unknownEscape c => "unknown escape `\\" ++ String.singleton c ++ "`"
  | loneMinus => "expected a digit after `-`"
  | digitFirst => "identifiers cannot start with a digit"
  | integerTooLarge digits => "integer `" ++ digits ++ "` out of range"
  | expected wanted found => "expected " ++ wanted.shown ++ ", found " ++ Lexeme.shown? found
  | unknownDeclaration name =>
    "expected `import`, `option`, `enum`, `message`, `struct` or `service`, found `" ++ name ++ "`"
  | numberTooLarge value => "enum value " ++ toString value.toInt ++ " does not fit in int32"

/-- A fault and where it was found. -/
structure SyntaxError where
  position : Position
  fault : SyntaxFault
  deriving DecidableEq, Repr

/-- The report of an error in a file. -/
def SyntaxError.message (file : String) (e : SyntaxError) : String :=
  file ++ ":" ++ toString e.position.line ++ ":" ++ toString e.position.column ++ ": "
    ++ e.fault.message

end Backwire.Schema
