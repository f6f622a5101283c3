import Backwire.Bindings.Code
import Backwire.Grammar.Lexer

/-!
# The text of a file of code

The text of a file of code is taken apart into the comment that is its first line, if one is, and
the items behind it. An item ends with a semicolon or a brace outside of all delimiters; an
attribute of the whole file is an item by itself. What a header says beyond its first line is code
of the first item.
-/

namespace Backwire.Bindings

/-- The items of tokens that have been read. -/
structure ItemReading where
  /-- The items, the last one first. -/
  items : List Code
  /-- The tokens of the item that has not ended, the last one first. -/
  item : Code
  /-- How many delimiters are open. -/
  depth : Nat

namespace ItemReading

/-- Nothing has been read. -/
def start : ItemReading := ⟨[], [], 0⟩

/-- Reads one more token. A comma before a closing delimiter is left out. -/
def add (r : ItemReading) (t : String) : ItemReading :=
  let before := match r.item with
    | "," :: rest => if t ∈ [")", "]", "\x7d", ">"] then rest else r.item
    | item => item
  let item := t :: before
  let depth :=
    if t ∈ ["(", "[", "\x7b"] then r.depth + 1
    else if t ∈ [")", "]", "\x7d"] then r.depth - 1
    else r.depth
  if depth == 0 && (t == ";" || t == "\x7d" || t == "]" && item.reverse.take 2 == ["#", "!"]) then
    ⟨item.reverse :: r.items, [], 0⟩
  else ⟨r.items, item, depth⟩

/-- The items. The last one may lack its end. -/
def finish (r : ItemReading) : List Code :=
  (if r.item = [] then r.items else r.item.reverse :: r.items).reverse

end ItemReading

/-- The items of a text of code. -/
def codeItems (text : String) : List Code :=
  ((Grammar.Token.texts (Grammar.tokens text)).foldl ItemReading.add .start).finish

/-- The comment that is the first line of a text, if one is, and the items behind it. -/
def takeApart (text : String) : Option String × List Code :=
  match text.toList with
  | '/' :: '/' :: cs =>
    (some (String.ofList ('/' :: '/' :: cs.takeWhile (· != '\n'))),
      codeItems (String.ofList (cs.dropWhile (· != '\n'))))
  | _ => (none, codeItems text)

end Backwire.Bindings
