import Backwire.Bindings.Identifier
import Backwire.Text.Segments
import Backwire.Text.Shown

/-!
# Code of bindings

A file of bindings is a sequence of items. What an item declares, and under which name, stands in
its structure; types, values and bodies are sequences of tokens. The text of an item is its
tokens with a space between two of them.
-/

namespace Backwire.Bindings

/-- A sequence of tokens. -/
abbrev Code := List String

namespace Code

/-- The tokens of a text in which spaces stand between them. -/
def ofText (s : String) : Code := Text.segments ' ' s

/-- The token of a quoted text. -/
def quoted (s : String) : String := Text.shownString s

/-- Code between braces. -/
def braced (c : Code) : Code := "\x7b" :: c ++ ["\x7d"]

/-- Code between parentheses. -/
def parens (c : Code) : Code := "(" :: c ++ [")"]

/-- Code between brackets. -/
def brackets (c : Code) : Code := "[" :: c ++ ["]"]

/-- Code between angle brackets. -/
def angles (c : Code) : Code := "<" :: c ++ [">"]

/-- Pieces of code with commas between them. -/
def commas (cs : List Code) : Code := (cs.intersperse [","]).flatten

/-- The comment that documents what follows. -/
def documented (text : String) : Code :=
  ofText "# [ doc =" ++ [quoted (" " ++ text), "]"]

/-- An attribute that derives traits. -/
def derived (traits : List String) : Code :=
  ["#"] ++ brackets ("derive" :: parens (commas (traits.map fun t => [t])))

end Code

open Code

/-- A field of a struct. -/
structure FieldDeclaration where
  isPublic : Bool
  name : Identifier
  type : Code
  deriving DecidableEq, Repr

/-- The tokens of a field. -/
def FieldDeclaration.tokens (f : FieldDeclaration) : Code :=
  (if f.isPublic then ["pub"] else []) ++ [f.name.text, ":"] ++ f.type

/-- Something that a module or an implementation declares. -/
inductive Declaration where
  /-- A struct with named fields. -/
  | record (attributes : Code) (name : Identifier) (generics : Code)
      (fields : List FieldDeclaration)
  /-- A struct that wraps a value of a type. -/
  | wrapper (attributes : Code) (name : Identifier) (type : Code)
  | constant (attributes : Code) (name : Identifier) (type value : Code)
  /-- A function. The code before its name says who may call it, and when. -/
  | function (attributes : Code) (leading : Code) (name : Identifier) (generics : Code)
      (parameters : List Code) (result body : Code)
  deriving DecidableEq, Repr

namespace Declaration

/-- The name of what is declared. -/
def name : Declaration → Identifier
  | record _ name _ _ => name
  | wrapper _ name _ => name
  | constant _ name _ _ => name
  | function _ _ name _ _ _ _ => name

/-- Whether what is declared is a type. Types have names of their own. -/
def isType : Declaration → Bool
  | record .. | wrapper .. => true
  | constant .. | function .. => false

/-- The tokens of a declaration. -/
def tokens : Declaration → Code
  | record attributes name generics fields =>
    attributes ++ ["pub", "struct", name.text] ++ generics
      ++ braced (commas (fields.map FieldDeclaration.tokens))
  | wrapper attributes name type =>
    attributes ++ ["pub", "struct", name.text] ++ parens ("pub" :: type) ++ [";"]
  | constant attributes name type value =>
    attributes ++ ["pub", "const", name.text, ":"] ++ type ++ ["="] ++ value ++ [";"]
  | function attributes leading name generics parameters result body =>
    attributes ++ leading ++ ["fn", name.text] ++ generics ++ parens (commas parameters)
      ++ ["->"] ++ result ++ braced body

end Declaration

/-- An item of a file. -/
inductive Item where
  /-- An attribute of the whole file. -/
  | fileAttribute (code : Code)
  | declaration (d : Declaration)
  /-- An implementation: its head, up to its brace, and what it declares. -/
  | implementation (head : Code) (members : List Declaration)
  /-- A module with what it declares. -/
  | nested (attributes : Code) (name : Identifier) (members : List Declaration)
  /-- A module in a file of its own. -/
  | moduleFile (name : Identifier)
  /-- Everything of a module under the names it has there. -/
  | reexport (name : Identifier)
  deriving DecidableEq, Repr

/-- The tokens of an item. -/
def Item.tokens : Item → Code
  | fileAttribute code => code
  | declaration d => d.tokens
  | implementation head members => head ++ braced (members.flatMap Declaration.tokens)
  | nested attributes name members =>
    attributes ++ ["pub", "mod", name.text] ++ braced (members.flatMap Declaration.tokens)
  | moduleFile name => ["pub", "mod", name.text, ";"]
  | reexport name => ["pub", "use", name.text, "::", "*", ";"]

/-- A file of bindings. -/
structure SourceFile where
  name : String
  header : Option String
  items : List Item
  deriving DecidableEq, Repr

/-- The text of a file: its header and an empty line, if it has one, and a line for each item. -/
def SourceFile.text (f : SourceFile) : String :=
  let items := f.items.map fun i => " ".intercalate i.tokens ++ "\n"
  match f.header with
  | some h => h ++ "\n\n" ++ String.join items
  | none => String.join items

end Backwire.Bindings
