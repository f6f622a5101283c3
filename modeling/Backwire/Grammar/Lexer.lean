import Backwire.Grammar.Literal
import Backwire.Text.Blank
import Backwire.Text.Shown

/-!
# From text to tokens

Between tokens stand blanks, comments from `//` to the end of the line, and comments between `/*`
and `*/`, which nest. A comment that documents something, such as one that begins with `///`,
stands for an attribute that holds its text. A character that begins no token is a stray one, so
that every text can be read.
-/

namespace Backwire.Grammar

/-! ### What stands between tokens -/

/-- Whether a character may stand between tokens: blanks, and the marks of direction. -/
def isSpace (c : Char) : Bool := Text.isBlank c || c == '\u200e' || c == '\u200f'

/-- What follows the end of a comment that stands in so many others. -/
def behindComment : Nat → List Char → Option (List Char)
  | depth, '/' :: '*' :: cs => behindComment (depth + 1) cs
  | 0, '*' :: '/' :: cs => some cs
  | depth + 1, '*' :: '/' :: cs => behindComment depth cs
  | depth, _ :: cs => behindComment depth cs
  | _, [] => none

/-- Whether a comment that begins with `//`, or with `/*`, documents something: with one more of
the second character and no third, or with an exclamation mark. -/
def documents (second : Char) : List Char → Bool
  | '!' :: _ => true
  | c :: rest => c == second && rest.head? != some second && !(c == '*' && rest.head? == some '/')
  | [] => false

/-- What follows a blank or a comment, if one of them comes first. -/
def behindSpace? : List Char → Option (List Char)
  | '/' :: '/' :: cs => if documents '/' cs then none else some (cs.dropWhile (· != '\n'))
  | '/' :: '*' :: cs => if documents '*' cs then none else behindComment 0 cs
  | c :: cs => if isSpace c then some cs else none
  | [] => none

/-- The attribute that a comment of a text stands for; one with an exclamation mark is an attribute
of what it stands in. -/
def documentation (isInner : Bool) (text : List Char) : List Token :=
  .mark '#' false :: (if isInner then [.mark '!' false] else [])
    ++ [.mark '[' false, .word "doc" false, .mark '=' false,
      .literal .text (Text.shownString (String.ofList text)), .mark ']' false]

/-- The text of a comment up to the end of its line, and what follows. -/
def splitLine (cs : List Char) : Split :=
  let line := cs.takeWhile (· != '\n')
  match cs.dropWhile (· != '\n'), line.getLast? with
  | c :: rest, some '\x0d' => (line.dropLast, c :: rest)
  | rest, _ => (line, rest)

/-- Whether a carriage return stands without a line break behind it. -/
def hasLoneReturn : List Char → Bool
  | [] => false
  | '\x0d' :: cs => cs.head? != some '\n' || hasLoneReturn cs
  | _ :: cs => hasLoneReturn cs

/-- Splits the attribute that a comment stands for off a text that begins with one. -/
def splitDocumentation : List Char → Option (List Token × List Char)
  | '/' :: '/' :: c :: cs =>
    if documents '/' (c :: cs) then
      let (text, rest) := splitLine cs
      if hasLoneReturn text then none else some (documentation (c == '!') text, rest)
    else none
  | '/' :: '*' :: c :: cs =>
    if documents '*' (c :: cs) then do
      let rest ← behindComment 0 (c :: cs)
      let text := cs.take (cs.length - rest.length - 2)
      if hasLoneReturn text then none else some (documentation (c == '!') text, rest)
    else none
  | _ => none

/-! ### Tokens -/

/-- The characters of signs. -/
def signs : List Char := "~!@#$%^&*-=+|;:,<.>/?".toList

/-- Whether a text begins with a character of a sign and with no comment. -/
def beginsSign : List Char → Bool
  | '/' :: '/' :: _ => false
  | '/' :: '*' :: _ => false
  | c :: _ => c ∈ signs
  | [] => false

/-- Whether a text that begins with these letters, and with no literal, begins with no word
either. -/
def promisesLiteral : List Char → Bool
  | 'r' :: '#' :: '#' :: _ => true
  | 'b' :: '\x27' :: _ => true
  | 'b' :: 'r' :: c :: _ | 'c' :: 'r' :: c :: _ => c == '"' || c == '#'
  | 'r' :: '#' :: c :: _ => c == '"'
  | 'r' :: c :: _ | 'b' :: c :: _ | 'c' :: c :: _ => c == '"'
  | _ => false

/-- Splits a word off a text, and tells whether it is raw. -/
def splitName : List Char → Option (Bool × Split)
  | 'r' :: '#' :: c :: cs =>
    let s := (splitWord cs).led [c]
    if isWordStart c ∧ String.ofList s.1 ∉ ["self", "Self", "super", "crate", "_"] then
      some (true, s)
    else none
  | ['r', '#'] => none
  | c :: cs => if isWordStart c then some (false, (splitWord cs).led [c]) else none
  | [] => none

/-- Splits a lifetime off a text behind its quote. -/
def splitLifetime (cs : List Char) : Option (Token × List Char) := do
  let (isRaw, name, rest) ← splitName cs
  if rest.head? = some '\x27' ∨ rest.head? = some '#' ∧ ¬ isRaw then none
  else
    let text := String.ofList name
    some (.lifetime (if isRaw then "r#" ++ text else text), rest)

/-- Splits a token off a text that begins with a quote, a letter or a digit. -/
def splitToken (cs : List Char) : Option (Token × List Char) :=
  match splitLiteral cs with
  | some (kind, text, rest) => some (.literal kind (String.ofList text), rest)
  | none =>
    match cs with
    | '\x27' :: cs => splitLifetime cs
    | cs =>
      if promisesLiteral cs then none
      else (splitName cs).map fun (isRaw, name, rest) => (.word (String.ofList name) isRaw, rest)

/-- Splits the first token off a text that begins with `c`, neither a blank nor a comment. -/
def split (c : Char) (cs : List Char) : Token × List Char :=
  if beginsSign (c :: cs) then (.mark c (beginsSign cs || cs.head? == some '\x27'), cs)
  else if c ∈ ['(', ')', '[', ']', '\x7b', '\x7d'] then (.mark c false, cs)
  else (splitToken (c :: cs)).getD (.stray c, cs)

/-- Reads tokens behind those that have been read, the last of which comes first. Each token, and
each blank, takes a character, and at most `fuel` of them are read. -/
def readFrom : Nat → List Token → List Char → List Token
  | 0, read, _ => read.reverse
  | _, read, [] => read.reverse
  | fuel + 1, read, c :: cs =>
    match behindSpace? (c :: cs) with
    | some rest => readFrom fuel read rest
    | none =>
      match splitDocumentation (c :: cs) with
      | some (ts, rest) => readFrom fuel (ts.reverse ++ read) rest
      | none =>
        let (t, rest) := split c cs
        readFrom fuel (t :: read) rest

/-- The tokens of a text. A byte order mark may stand before it. -/
def tokens (s : String) : List Token :=
  let cs := match s.toList with
    | '\ufeff' :: cs => cs
    | cs => cs
  readFrom cs.length [] cs

end Backwire.Grammar
