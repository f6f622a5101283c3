import Backwire.Text.Printable

/-!
# Text as reports show it

A report that quotes a character or a text writes it between quotes, with a backslash form for
the quote itself, the backslash, the usual controls, and every character that would not show:
such a one is written as `\u` and its code point in braces. A character that attaches to the one
before it is written that way too, wherever it stands.
-/

namespace Backwire.Text

/-- A code point in hexadecimal, between braces, after `\u`. -/
def codePointForm (c : Char) : List Char :=
  '\\' :: 'u' :: '\x7b' :: (Nat.toDigits 16 c.toNat ++ ['\x7d'])

/-- A character as it is written between quotes of the kind `quote`. -/
def shownChar (quote c : Char) : List Char :=
  if c = '\x00' then ['\\', '0']
  else if c = '\t' then ['\\', 't']
  else if c = '\x0d' then ['\\', 'r']
  else if c = '\n' then ['\\', 'n']
  else if c = '\\' then ['\\', '\\']
  else if c = quote then ['\\', quote]
  else if isExtending c || !isPrintable c then codePointForm c
  else [c]

/-- A text between double quotes. -/
def shownString (s : String) : String :=
  String.ofList ('"' :: (s.toList.flatMap (shownChar '"') ++ ['"']))

/-- A character between single quotes. -/
def shownQuoted (c : Char) : String :=
  String.ofList ('\x27' :: (shownChar '\x27' c ++ ['\x27']))

end Backwire.Text
