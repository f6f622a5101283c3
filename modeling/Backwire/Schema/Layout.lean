import Backwire.Schema.Parser

/-!
# The canonical layout of a schema

A schema has one canonical text: all imports in one block, then the options, then the definitions
in source order, with four spaces before each entry and an empty line between sections. The
layout is made of pieces, each a lexeme or blanks, so that what a reader sees of it is the
lexemes of its pieces in order.
-/

namespace Backwire.Schema

/-- The text of a lexeme. -/
def Lexeme.written : Lexeme → List Char
  | .word name => name.toList
  | .integer value => (toString value.toInt).toList
  | .text value => Quoted.encode value.toList
  | .symbol mark => [mark.char]

namespace Layout

/-- A piece of a layout. -/
inductive Piece where
  | lexeme (l : Lexeme)
  | blank (cs : List Char)
  deriving DecidableEq, Repr

namespace Piece

/-- The text of a piece. -/
def text : Piece → List Char
  | lexeme l => l.written
  | blank cs => cs

/-- A word. -/
def word (name : String) : Piece := .lexeme (.word name)

/-- A symbol. -/
def symbol (mark : Symbol) : Piece := .lexeme (.symbol mark)

/-- A quoted text. -/
def quoted (value : String) : Piece := .lexeme (.text value)

/-- An integer. -/
def integer (value : Int64) : Piece := .lexeme (.integer value)

/-- One space. -/
def space : Piece := .blank [' ']

/-- The end of a line. -/
def newline : Piece := .blank ['\n']

/-- What stands before an entry. -/
def indent : Piece := .blank [' ', ' ', ' ', ' ']

end Piece

open Piece

/-- The text of pieces. -/
def text (ps : List Piece) : List Char := ps.flatMap Piece.text

/-- The pieces of a reference. -/
def reference (r : Reference) : List Piece :=
  match r.qualifier with
  | some q => [word q, symbol .dot, word r.name]
  | none => [word r.name]

/-- The pieces of a name of a type. -/
def typeName : TypeName → List Piece
  | .builtin b => [word b.name]
  | .named r => reference r

/-- The pieces of a type. -/
def type (t : Listed TypeName) : List Piece :=
  (List.replicate t.depth [symbol .openBracket, symbol .closeBracket]).flatten ++ typeName t.leaf

/-- The pieces of a name and its type. -/
def parameter (p : Parameter TypeName) : List Piece := word p.name :: space :: type p.type

/-- The pieces of parameters in parentheses. -/
def parameters (ps : List (Parameter TypeName)) : List Piece :=
  symbol .openParen ::
    ((ps.map parameter).intersperse [symbol .comma, space]).flatten ++ [symbol .closeParen]

/-- The pieces of an entry of a block: a line that ends with a semicolon. -/
def entry (ps : List Piece) : List Piece := indent :: ps ++ [symbol .semicolon, newline]

/-- The pieces of a value of an enum. -/
def enumValue (v : EnumValue) : List Piece :=
  [word v.name, space, symbol .equals, space, integer v.number.toInt64]

/-- The pieces of a field of a message. -/
def field (f : Field TypeName Int64) : List Piece :=
  word f.name :: space :: type f.type ++ [space, integer f.tag]

/-- The pieces of a method. Results are left out when there are none. -/
def method (m : Method TypeName) : List Piece :=
  word m.name :: parameters m.args
    ++ if m.results = [] then [] else space :: parameters m.results

/-- The pieces of a block with a keyword and a name. -/
def block (keyword name : String) (entries : List (List Piece)) : List Piece :=
  [word keyword, space, word name, space, symbol .openBrace, newline]
    ++ entries.flatMap entry ++ [symbol .closeBrace, newline]

/-- The pieces of a definition. -/
def definition (d : Definition) : List Piece :=
  match d.body with
  | .enum values => block "enum" d.name (values.map enumValue)
  | .message fields => block "message" d.name (fields.map field)
  | .struct fields => block "struct" d.name (fields.map parameter)
  | .service methods => block "service" d.name (methods.map method)

/-- The pieces of an import in the block of imports. -/
def importSpec (i : Import) : List Piece :=
  match i.alias? with
  | some name => [indent, word name, space, quoted i.path, newline]
  | none => [indent, quoted i.path, newline]

/-- The pieces of an option. -/
def setting (o : Setting) : List Piece :=
  [word "option", space, word o.name, space, symbol .equals, space, quoted o.value,
    symbol .semicolon, newline]

/-- The block of imports, if there are any. -/
def importSection (is : List Import) : List (List Piece) :=
  if is = [] then []
  else [[word "import", space, symbol .openParen, newline] ++ is.flatMap importSpec
    ++ [symbol .closeParen, newline]]

/-- The options, if there are any. -/
def optionSection (os : List Setting) : List (List Piece) :=
  if os = [] then [] else [os.flatMap setting]

/-- The sections of a file. -/
def sections (f : SchemaFile) : List (List Piece) :=
  importSection f.imports ++ optionSection f.options ++ f.definitions.map definition

/-- The pieces of a file. -/
def file (f : SchemaFile) : List Piece := ((sections f).intersperse [newline]).flatten

end Layout

/-- A type as it is written. -/
def Listed.text (t : Listed TypeName) : String := String.ofList (Layout.text (Layout.type t))

/-- The canonical text of a schema file. -/
def SchemaFile.text (f : SchemaFile) : String := String.ofList (Layout.text (Layout.file f))

/-- The canonical text of the schema file that a text holds. -/
def format (source : String) : Except SyntaxError String := (parse source).map SchemaFile.text

end Backwire.Schema
