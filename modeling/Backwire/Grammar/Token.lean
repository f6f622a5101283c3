/-!
# Tokens of code

Code is a sequence of tokens: words, lifetimes, literals and marks. A sign of several characters
is a mark for each of them, where each but the last is joined to the next. As text, code is its
tokens with a space between two of them, and the pairs `::`, `->`, `=>` and `==` are written
together.
-/

namespace Backwire.Grammar

/-- What a literal stands for. -/
inductive LiteralKind where
  | integer
  /-- A number with a point or an exponent. -/
  | decimal
  /-- A text between double quotes. -/
  | text
  /-- A character, a byte, or bytes. -/
  | other
  deriving DecidableEq, Repr

/-- A token of code. -/
inductive Token where
  /-- An identifier or a keyword; a raw one has `r#` before it. -/
  | word (name : String) (isRaw : Bool)
  /-- A lifetime: the text behind its quote. -/
  | lifetime (name : String)
  /-- A literal, as it is written. -/
  | literal (kind : LiteralKind) (text : String)
  /-- A delimiter, or a character of a sign, which may be joined to the next one. -/
  | mark (c : Char) (isJoint : Bool)
  /-- A character that begins no token. -/
  | stray (c : Char)
  deriving DecidableEq, Repr

namespace Token

/-- A token as it is written. -/
def text : Token → String
  | word name isRaw => if isRaw then "r#" ++ name else name
  | lifetime name => "\x27" ++ name
  | literal _ text => text
  | mark c _ => c.toString
  | stray c => c.toString

/-- Signs of two characters that are written together. -/
def pairs : List (Char × Char) := [(':', ':'), ('-', '>'), ('=', '>'), ('=', '=')]

/-- Adds the texts of tokens before those that have been written, the last of which comes
first. -/
def textsFrom : List String → List Token → List String
  | written, [] => written.reverse
  | written, [t] => (t.text :: written).reverse
  | written, mark c true :: mark d joint :: ts =>
    if (c, d) ∈ pairs then textsFrom (String.ofList [c, d] :: written) ts
    else textsFrom (c.toString :: written) (mark d joint :: ts)
  | written, t :: u :: ts => textsFrom (t.text :: written) (u :: ts)

/-- The texts of tokens, where pairs are written together. -/
def texts (ts : List Token) : List String := textsFrom [] ts

/-- The marks of a sign. -/
def sign (s : String) : List Token := go s.toList
where
  go : List Char → List Token
    | [] => []
    | [c] => [mark c false]
    | c :: cs => mark c true :: go cs

/-- The marks that open a delimiter, each with the one that closes it. -/
def delimiters : List (Char × Char) := [('(', ')'), ('[', ']'), ('\x7b', '\x7d')]

/-- Whether every character belongs to a token, and delimiters close what they open, where those
that close the delimiters in `opened` are awaited, the last one first. -/
def areSoundWithin : List Char → List Token → Bool
  | awaited, [] => awaited.isEmpty
  | awaited, mark c _ :: ts =>
    match delimiters.lookup c with
    | some closing => areSoundWithin (closing :: awaited) ts
    | none =>
      if c ∈ delimiters.map Prod.snd then
        awaited.head? == some c && areSoundWithin awaited.tail ts
      else areSoundWithin awaited ts
  | _, stray _ :: _ => false
  | awaited, _ :: ts => areSoundWithin awaited ts

/-- Whether tokens are those of code. -/
def areSound (ts : List Token) : Bool := areSoundWithin [] ts

end Token

end Backwire.Grammar
