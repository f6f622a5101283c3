import Backwire.Text.LetterCase

/-!
# Identifiers of bindings

A name of a schema becomes an identifier in the bindings: types keep their names, and fields,
functions and modules are written in snake case, constants in capitals. A name that the language of
the bindings keeps for itself is written as a raw identifier, or, where even that is not allowed,
with an underscore behind it.
-/

namespace Backwire.Bindings

/-! ### Cases -/

/-- Whether a word begins at a capital letter that follows `previous` and stands before `next`:
behind a letter that is no capital, or before a small letter. -/
def beginsWord (previous : Option Char) (next : List Char) : Bool :=
  match previous with
  | none => false
  | some p => p != '_' && (!Text.isCapital p || next.head?.any Text.isSmall)

/-- The snake case of characters that follow `previous`. -/
def snakeFrom (previous : Option Char) : List Char → List Char
  | [] => []
  | c :: cs =>
    let rest := snakeFrom (some c) cs
    if Text.isCapital c then
      if beginsWord previous cs then '_' :: (Text.lower c ++ rest) else Text.lower c ++ rest
    else c :: rest

/-- A name in snake case: words in small letters with underscores between them. -/
def snakeCase (name : String) : String := String.ofList (snakeFrom none name.toList)

/-- A name in the case of constants: as in snake case, in capitals. -/
def shoutyCase (name : String) : String :=
  String.ofList ((snakeFrom none name.toList).flatMap Text.upper)

/-! ### Identifiers -/

/-- Words that are identifiers only in raw form. -/
def keywords : List String := [
  "abstract", "as", "async", "await", "become", "box", "break", "const", "continue", "do", "dyn",
  "else", "enum", "extern", "false", "final", "fn", "for", "gen", "if", "impl", "in", "let",
  "loop", "macro", "match", "mod", "move", "mut", "override", "priv", "pub", "ref", "return",
  "static", "struct", "trait", "true", "try", "type", "typeof", "unsafe", "unsized", "use",
  "virtual", "where", "while", "yield"]

/-- Words that are no identifiers in any form. -/
def reservedWords : List String := ["self", "Self", "super", "crate", "_"]

/-- Whether a name is no plain identifier. -/
def isReserved (name : String) : Bool := name ∈ keywords || name ∈ reservedWords

/-- An identifier, plain or raw. -/
structure Identifier where
  name : String
  isRaw : Bool
  deriving DecidableEq, Repr

namespace Identifier

/-- An identifier as it is written. -/
def text (i : Identifier) : String := if i.isRaw then "r#" ++ i.name else i.name

/-- The identifier of a name that is known to be free. -/
def plain (name : String) : Identifier := ⟨name, false⟩

/-- The identifier of a name. -/
def ofName (name : String) : Identifier :=
  if name ∈ reservedWords then plain (name ++ "_")
  else if name ∈ keywords then ⟨name, true⟩
  else plain name

/-- The identifier of a field, a function or a module: in snake case. -/
def ofField (name : String) : Identifier := ofName (snakeCase name)

/-- The identifier of a function that belongs to a field: the field behind a lead such as
`has_`. -/
def led (lead name : String) : Identifier := plain (lead ++ snakeCase name)

/-- The identifier of the builder of a message, made of the identifier of the message. -/
def writer (i : Identifier) : Identifier := plain (i.name ++ "Writer")

/-- The identifier of the constant that holds the tag of a field. -/
def tag (name : String) : Identifier := plain ("TAG_" ++ shoutyCase name)

/-- The identifier of the constant that holds the name of a method. -/
def constant (name : String) : Identifier := plain (shoutyCase name)

end Identifier

/-! ### Modules -/

/-- Whether a character may stand in the name of a module: a letter or digit of ASCII. -/
def isModuleCharacter (c : Char) : Bool := c.isAlpha || c.isDigit

/-- The name of the module of a file or of a segment of an ID. It is the name of a file too, so
it is never raw. -/
def moduleName (name : String) : Identifier :=
  let cs := (snakeFrom none name.toList).map fun c => if isModuleCharacter c then c else '_'
  let led := if cs.head?.all Char.isDigit then '_' :: cs else cs
  let word := String.ofList led
  .plain (if isReserved word then word ++ "_" else word)

end Backwire.Bindings
