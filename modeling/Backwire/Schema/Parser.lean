import Backwire.Schema.Lexer
import Backwire.Schema.Tree

/-!
# The grammar of schemas

A file is a sequence of declarations. Every choice is made by the next token, and reading stops
at the first token that does not fit:

* file: any number of `import`, `option`, `enum`, `message`, `struct` and `service`;
* import: one path with or without a local name before it, or any number of them in parentheses;
* body of an enum, message, struct or service: entries that each end with a semicolon, in braces;
* parameters: names and types, in parentheses, with commas between them; results may be left out;
* type: list marks, and a name that may be qualified by the local name of an import.
-/

namespace Backwire.Schema

/-- A reader of the tokens that are left. -/
abbrev Parser := StateT TokenStream (Except SyntaxError)

namespace Parser

variable {α : Type}

/-- The place of the next token, or of the end of the file. -/
def position : Parser Position := fun s =>
  .ok ((s.tokens.head?.map Token.position).getD s.stop, s)

/-- Refuses what stands at a place. -/
def fail (p : Position) (fault : SyntaxFault) : Parser α := fun _ => .error ⟨p, fault⟩

/-- Reads one token that has the form that is asked for. -/
def take (wanted : Wanted) (form : Lexeme → Option α) : Parser α := fun s =>
  match s.tokens with
  | [] => .error ⟨s.stop, .expected wanted none⟩
  | t :: ts =>
    match form t.lexeme with
    | some a => .ok (a, ⟨ts, s.stop⟩)
    | none => .error ⟨t.position, .expected wanted (some t.lexeme)⟩

/-- Reads a word. -/
def word (wanted : Wanted) : Parser String := take wanted Lexeme.word?

/-- Reads a quoted text. -/
def text (wanted : Wanted) : Parser String := take wanted Lexeme.text?

/-- Reads an integer. -/
def integer (wanted : Wanted) : Parser Int64 := take wanted Lexeme.integer?

/-- Reads a symbol. -/
def symbol (mark : Symbol) : Parser Unit :=
  take (.symbol mark) fun l => if l = .symbol mark then some () else none

/-- What is left behind a symbol, if it stands next. -/
def behind? (mark : Symbol) (s : TokenStream) : Option TokenStream :=
  match s.tokens with
  | [] => none
  | t :: ts => if t.lexeme = .symbol mark then some ⟨ts, s.stop⟩ else none

/-- What is left behind the end of the file, if it stands next. -/
def behindEnd? (s : TokenStream) : Option TokenStream := if s.tokens = [] then some s else none

/-- Reads a symbol if it stands next, and tells whether it did. -/
def optional (mark : Symbol) : Parser Bool := fun s =>
  match behind? mark s with
  | some s' => .ok (true, s')
  | none => .ok (false, s)

/-- Reads items until `ended` holds of what is left. Each item takes a token, so there are no more
items than tokens in `budget`, those that are left at the start. -/
def manyWithin (ended : TokenStream → Option TokenStream) (item : Parser α)
    (budget : List Token) : Parser (List α) :=
  fun s =>
    match ended s with
    | some s' => .ok ([], s')
    | none =>
      match item s with
      | .error e => .error e
      | .ok (a, s') =>
        match budget with
        | [] => .ok ([a], s')
        | _ :: budget =>
          match manyWithin ended item budget s' with
          | .error e => .error e
          | .ok (as, s'') => .ok (a :: as, s'')

/-- Reads items, each of which takes a token, until `ended` holds of what is left. -/
def manyUntil (ended : TokenStream → Option TokenStream) (item : Parser α) : Parser (List α) :=
  fun s => manyWithin ended item s.tokens s

/-! ### Types -/

/-- Reads list marks behind so many that have been read: how many there are. -/
def listMarksFrom (stop : Position) : Nat → List Token → Except SyntaxError (Nat × TokenStream)
  | n, t :: ts =>
    if t.lexeme = .symbol .openBracket then
      match symbol .closeBracket ⟨ts, stop⟩ with
      | .error e => .error e
      | .ok (_, s) =>
        match ts with
        | _ :: ts => listMarksFrom stop (n + 1) ts
        | [] => .ok (n, s)
    else .ok (n, ⟨t :: ts, stop⟩)
  | n, [] => .ok (n, ⟨[], stop⟩)

/-- Reads list marks: how many there are. -/
def listMarks : Parser Nat := fun s => listMarksFrom s.stop 0 s.tokens

/-- Reads a name of a type. -/
def typeName : Parser TypeName := do
  let first ← word .type
  if ← optional .dot then
    return .named ⟨some first, ← word .typeName⟩
  else
    return .ofWord first

/-- Reads a type. -/
def type : Parser (Listed TypeName) := do return ⟨← listMarks, ← typeName⟩

/-- Reads a name and its type. -/
def parameter (wanted : Wanted) : Parser (Parameter TypeName) := do
  return ⟨← word wanted, ← type⟩

/-- Reads parameters in parentheses. -/
def parameters : Parser (List (Parameter TypeName)) := do
  symbol .openParen
  if ← optional .closeParen then
    return []
  else
    let first ← parameter .parameterName
    return first :: (← manyUntil (behind? .closeParen) do
      symbol .comma
      parameter .parameterName)

/-! ### Definitions -/

/-- Reads entries between braces. -/
def braced (entry : Parser α) : Parser (List α) := do
  symbol .openBrace
  manyUntil (behind? .closeBrace) do
    let a ← entry
    symbol .semicolon
    return a

/-- The 32-bit integer of the same value, if there is one. -/
def int32Of? (n : Int64) : Option Int32 :=
  if Int32.minValue.toInt ≤ n.toInt ∧ n.toInt ≤ Int32.maxValue.toInt then
    some (Int32.ofInt n.toInt)
  else none

/-- Reads a value of an enum. -/
def enumValue : Parser EnumValue := do
  let name ← word .valueName
  symbol .equals
  let here ← position
  let n ← integer .valueNumber
  match int32Of? n with
  | some number => return ⟨name, number⟩
  | none => fail here (.numberTooLarge n)

/-- Reads a field of a message. -/
def field : Parser (Field TypeName Int64) := do
  return ⟨← word .fieldName, ← type, ← integer .fieldTag⟩

/-- Reads a method of a service. -/
def method : Parser (Method TypeName) := do
  let name ← word .methodName
  let args ← parameters
  if (behind? .openParen (← get)).isSome then
    return ⟨name, args, ← parameters⟩
  else
    return ⟨name, args, []⟩

/-! ### Declarations -/

/-- A declaration of a file. -/
inductive Declaration where
  | imports (imports : List Import)
  | option (setting : Setting)
  | definition (definition : Definition)

/-- Reads a path, with a local name before it if there is one. -/
def importSpec : Parser Import := do
  match (← get).tokens.head?.bind (·.lexeme.word?) with
  | some _ => return ⟨some (← word .importAlias), ← text .importPath⟩
  | none => return ⟨none, ← text .importPath⟩

/-- Reads what follows the word `import`. -/
def imports : Parser (List Import) := do
  if ← optional .openParen then
    manyUntil (behind? .closeParen) importSpec
  else
    return [← importSpec]

/-- Reads what follows the word `option`. -/
def setting : Parser Setting := do
  let name ← word .optionName
  symbol .equals
  let value ← text .optionValue
  symbol .semicolon
  return ⟨name, value⟩

/-- Reads a declaration. -/
def declaration : Parser Declaration := do
  let here ← position
  let keyword ← word .declaration
  if keyword = "import" then
    return .imports (← imports)
  else if keyword = "option" then
    return .option (← setting)
  else if keyword = "enum" then
    return .definition ⟨← word .enumName, .enum (← braced enumValue)⟩
  else if keyword = "message" then
    return .definition ⟨← word .messageName, .message (← braced field)⟩
  else if keyword = "struct" then
    return .definition ⟨← word .structName, .struct (← braced (parameter .fieldName))⟩
  else if keyword = "service" then
    return .definition ⟨← word .serviceName, .service (← braced method)⟩
  else
    fail here (.unknownDeclaration keyword)

/-- The imports of a declaration. -/
def Declaration.imports? : Declaration → List Import
  | imports is => is
  | _ => []

/-- The option of a declaration. -/
def Declaration.option? : Declaration → Option Setting
  | option o => some o
  | _ => none

/-- The definition of a declaration. -/
def Declaration.definition? : Declaration → Option Definition
  | definition d => some d
  | _ => none

/-- Reads a whole file. -/
def file : Parser SchemaFile := do
  let ds ← manyUntil behindEnd? declaration
  return ⟨ds.flatMap Declaration.imports?, ds.filterMap Declaration.option?,
    ds.filterMap Declaration.definition?⟩

end Parser

/-- Parses the text of a schema file. -/
def parse (text : String) : Except SyntaxError SchemaFile := do
  let s ← tokenize text
  let (f, _) ← Parser.file s
  return f

end Backwire.Schema
