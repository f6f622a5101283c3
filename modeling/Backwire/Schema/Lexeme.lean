import Backwire.Text.Shown

/-!
# Lexemes of a schema

A schema is a sequence of words, decimal integers, quoted texts and symbols. Keywords are words
like any other: the grammar knows them by where they stand. A token is a lexeme and the place
where it starts.
-/

namespace Backwire.Schema

/-- A place in a text, counted in lines and characters from one. The counters have 32 bits and
start again from zero behind the last number these hold. -/
structure Position where
  line : UInt32
  column : UInt32
  deriving DecidableEq, Repr

namespace Position

/-- Where a text starts. -/
def start : Position := ⟨1, 1⟩

/-- The place after a character that stands here. -/
def next (p : Position) (c : Char) : Position :=
  if c = '\n' then ⟨p.line + 1, 1⟩ else ⟨p.line, p.column + 1⟩

/-- The place after a text that stands here. -/
def after (p : Position) (cs : List Char) : Position := cs.foldl next p

@[simp] theorem after_nil (p : Position) : p.after [] = p := rfl

@[simp] theorem after_cons (p : Position) (c : Char) (cs : List Char) :
    p.after (c :: cs) = (p.next c).after cs := rfl

theorem after_append (p : Position) (cs ds : List Char) :
    p.after (cs ++ ds) = (p.after cs).after ds := List.foldl_append

end Position

/-- A place in a text and what stands there. -/
structure Cursor where
  position : Position
  rest : List Char
  deriving DecidableEq, Repr

/-- A punctuation mark of the language. -/
inductive Symbol where
  | openBrace
  | closeBrace
  | openParen
  | closeParen
  | openBracket
  | closeBracket
  | semicolon
  | equals
  | dot
  | comma
  deriving DecidableEq, Repr

namespace Symbol

/-- Every symbol. -/
def all : List Symbol :=
  [openBrace, closeBrace, openParen, closeParen, openBracket, closeBracket, semicolon, equals,
    dot, comma]

/-- The character of a symbol. -/
def char : Symbol → Char
  | openBrace => '\x7b'
  | closeBrace => '\x7d'
  | openParen => '('
  | closeParen => ')'
  | openBracket => '['
  | closeBracket => ']'
  | semicolon => ';'
  | equals => '='
  | dot => '.'
  | comma => ','

/-- The symbol of a character, if it is one. -/
def ofChar? (c : Char) : Option Symbol := all.find? fun s => s.char == c

@[simp] theorem ofChar?_char (s : Symbol) : ofChar? s.char = some s := by cases s <;> decide

theorem char_of_ofChar? {c : Char} {s : Symbol} (h : ofChar? c = some s) : s.char = c := by
  simpa using List.find?_some h

end Symbol

/-- Whether a character may start a word. -/
def isWordStart (c : Char) : Bool := c == '_' || c.isAlpha

/-- Whether a character may continue a word. -/
def isWordRest (c : Char) : Bool := isWordStart c || c.isDigit

/-- A unit of the language. -/
inductive Lexeme where
  /-- A letter or underscore, and any letters, digits and underscores after it. -/
  | word (name : String)
  /-- A decimal integer of at most 64 bits, with or without a sign. -/
  | integer (value : Int64)
  /-- A text between double quotes, its escapes resolved. -/
  | text (value : String)
  /-- A punctuation mark. -/
  | symbol (mark : Symbol)
  deriving DecidableEq, Repr

namespace Lexeme

/-- A lexeme as reports name it. -/
def shown : Lexeme → String
  | word name => "identifier `" ++ name ++ "`"
  | integer value => "integer `" ++ toString value.toInt ++ "`"
  | text value => "string " ++ Text.shownString value
  | symbol mark => "`" ++ String.singleton mark.char ++ "`"

/-- What stands at a place of a file as reports name it: a lexeme, or nothing at the end. -/
def shown? : Option Lexeme → String
  | some l => l.shown
  | none => "end of file"

/-- The word of a lexeme that is one. -/
def word? : Lexeme → Option String
  | word name => some name
  | _ => none

/-- The integer of a lexeme that is one. -/
def integer? : Lexeme → Option Int64
  | integer value => some value
  | _ => none

/-- The text of a lexeme that is one. -/
def text? : Lexeme → Option String
  | text value => some value
  | _ => none

end Lexeme

/-- A lexeme and where it starts. -/
structure Token where
  lexeme : Lexeme
  position : Position
  deriving DecidableEq, Repr

/-- The tokens that are left of a file, and the place of its end. -/
structure TokenStream where
  tokens : List Token
  stop : Position
  deriving DecidableEq, Repr

end Backwire.Schema
