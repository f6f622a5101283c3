import Backwire.Grammar.Token
import Backwire.Text.Identifier

/-!
# Literals of code

A literal is a number, a character or a byte between single quotes, or a text between double
quotes. The letters before a quote tell what a text is made of, and that it is raw, which means
that a backslash is a character in it like any other. An identifier right behind a literal is its
suffix. Each function here splits what it is named for off the text that begins with it, and
fails if the text is none.
-/

namespace Backwire.Grammar

/-- What is split off a text, and the rest of the text. -/
abbrev Split := List Char × List Char

/-- Puts characters before what is split off. -/
def Split.led (cs : List Char) (s : Split) : Split := (cs ++ s.1, s.2)

/-- Whether a word may begin with a character. -/
def isWordStart (c : Char) : Bool := c == '_' || Text.isIdentifierStart c

/-- Splits what goes on with a word off a text. -/
def splitWord (cs : List Char) : Split :=
  (cs.takeWhile Text.isIdentifierContinue, cs.dropWhile Text.isIdentifierContinue)

/-- Splits a suffix, if there is one, off the text behind a literal. -/
def splitSuffix : List Char → Split
  | c :: cs => if isWordStart c then (splitWord cs).led [c] else ([], c :: cs)
  | [] => ([], [])

/-- Adds the suffix to a literal. -/
def Split.suffixed (s : Split) : Split := (splitSuffix s.2).led s.1

/-! ### Texts -/

/-- What a text is made of: characters; bytes; or characters with a zero behind them, so that no
zero is among them. -/
inductive TextKind where
  | characters
  | bytes
  | terminated
  deriving DecidableEq, Repr

/-- Where the reading of a text stands. -/
inductive TextState where
  /-- Between two characters of the text. -/
  | plain
  /-- Behind a backslash. -/
  | escape
  /-- Behind `\x`, and possibly a digit. -/
  | hex (first? : Option Nat)
  /-- Behind `\u`. -/
  | point
  /-- Behind `\u` and a brace, so many digits, and the number they make. -/
  | digits (count value : Nat)
  /-- Among blanks behind a backslash and a line break. -/
  | indent
  /-- Behind a carriage return, which has to begin a line break; the state behind that. -/
  | returned (next : TextState)
  deriving DecidableEq, Repr

/-- The value of a hexadecimal digit. -/
def hexValue? (c : Char) : Option Nat :=
  if c.isDigit then some (c.toNat - 48)
  else if 'a' ≤ c && c ≤ 'f' then some (c.toNat - 87)
  else if 'A' ≤ c && c ≤ 'F' then some (c.toNat - 55)
  else none

namespace TextKind

/-- Whether a character may stand in a text by itself. -/
def allows (k : TextKind) (c : Char) : Bool :=
  match k with
  | characters => true
  | bytes => c.toNat < 128
  | terminated => c != '\x00'

/-- Whether `\x` may be followed by the digits of a number. -/
def allowsByte (k : TextKind) (n : Nat) : Bool :=
  match k with
  | characters => n < 128
  | bytes => true
  | terminated => n != 0

/-- Whether there is a character of a number for `\u`. -/
def allowsPoint (k : TextKind) (n : Nat) : Bool :=
  (n < 0xd800 || 0xdfff < n && n < 0x110000) && !(k == terminated && n == 0)

/-- The letters of escapes of one character. -/
def letters : TextKind → List Char
  | terminated => ['n', 'r', 't', '\\', '\x27', '"']
  | _ => ['n', 'r', 't', '\\', '\x27', '"', '0']

/-- The state behind a character between two characters of a text. -/
def stepPlain (k : TextKind) (c : Char) : Option TextState :=
  if c = '\\' then some .escape
  else if c = '\x0d' then some (.returned .plain)
  else if k.allows c then some .plain
  else none

/-- The state behind a character of a text. -/
def step (k : TextKind) (c : Char) : TextState → Option TextState
  | .plain => k.stepPlain c
  | .escape =>
    if c ∈ k.letters then some .plain
    else if c = 'x' then some (.hex none)
    else if c = 'u' ∧ k ≠ bytes then some .point
    else if c = '\n' then some .indent
    else if c = '\x0d' then some (.returned .indent)
    else none
  | .hex none => (hexValue? c).map fun d => .hex (some d)
  | .hex (some d) => do
    let e ← hexValue? c
    if k.allowsByte (16 * d + e) then some .plain else none
  | .point => if c = '\x7b' then some (.digits 0 0) else none
  | .digits count value =>
    if c = '_' then (if count = 0 then none else some (.digits count value))
    else if c = '\x7d' then
      (if count = 0 ∨ ¬ k.allowsPoint value then none else some .plain)
    else do
      let d ← hexValue? c
      if count = 6 then none else some (.digits (count + 1) (16 * value + d))
  | .indent =>
    if c = ' ' ∨ c = '\t' ∨ c = '\n' then some .indent
    else if c = '\x0d' then some (.returned .indent)
    else k.stepPlain c
  | .returned next => if c = '\n' then some next else none

/-- Splits the rest of a text off, up to its double quote; `read` is what has been read of it,
the last character first. -/
def splitText (k : TextKind) (read : List Char) : TextState → List Char → Option Split
  | _, [] => none
  | s, c :: cs =>
    if c = '"' ∧ (s = .plain ∨ s = .indent) then some (('"' :: read).reverse, cs)
    else do k.splitText (c :: read) (← k.step c s) cs

/-- Splits the rest of an escape off, of which `read` has been read, the last character first. -/
def splitEscape (k : TextKind) (read : List Char) : TextState → List Char → Option Split
  | .plain, cs => some (read.reverse, cs)
  | .indent, _ | .returned _, _ => none
  | _, [] => none
  | s, c :: cs => do k.splitEscape (c :: read) (← k.step c s) cs

/-- Splits the rest of a raw text off, up to its double quote and so many signs `#`; `read` is
what has been read of it, the last character first. -/
def splitRaw (k : TextKind) (hashes : List Char) (read : List Char) : List Char → Option Split
  | [] => none
  | c :: cs =>
    if c = '"' ∧ cs.take hashes.length = hashes then
      some ((hashes ++ '"' :: read).reverse, cs.drop hashes.length)
    else if c = '\x0d' ∧ cs.head? ≠ some '\n' ∨ ¬ k.allows c then none
    else k.splitRaw hashes (c :: read) cs

/-- Splits a text off behind its letters, where it may be raw. -/
def splitQuoted (k : TextKind) (isRaw : Bool) (cs : List Char) : Option Split := do
  let hashes := if isRaw then cs.takeWhile (· == '#') else []
  match cs.drop hashes.length with
  | '"' :: cs =>
    let start := '"' :: hashes
    if ¬ isRaw then return (← k.splitText start .plain cs).suffixed
    else if hashes.length ≤ 255 then return (← k.splitRaw hashes start cs).suffixed
    else none
  | _ => none

/-- Splits a character off behind its first quote. -/
def splitCharacter (k : TextKind) : List Char → Option Split
  | '\\' :: cs => do close (← k.splitEscape ['\\', '\x27'] .escape cs)
  | c :: cs => if k.allows c then close (['\x27', c], cs) else none
  | [] => none
where
  /-- Adds the second quote. -/
  close : Split → Option Split
    | (w, '\x27' :: rest) => some (Split.suffixed (w ++ ['\x27'], rest))
    | _ => none

end TextKind

/-! ### Numbers -/

/-- Whether a character goes on with digits. -/
def isDigitOrBlank (c : Char) : Bool := c.isDigit || c == '_'

/-- Adds the suffix to a number. What follows must not go on with a word. -/
def Split.finished (s : Split) : Option Split :=
  let t := s.suffixed
  if t.2.head?.any Text.isIdentifierContinue then none else some t

/-- Splits an exponent off behind its letter: digits, with a sign before the first of them. It is
told whether there is a sign and whether there is a digit. -/
def splitExponent (hasSign hasDigit : Bool) : List Char → Option Split
  | [] => if hasDigit then some ([], []) else none
  | c :: cs =>
    if c.isDigit then (splitExponent hasSign true cs).map (Split.led [c])
    else if c = '_' then (splitExponent hasSign hasDigit cs).map (Split.led [c])
    else if hasDigit then some ([], c :: cs)
    else if hasSign ∨ c ≠ '+' ∧ c ≠ '-' then none
    else (splitExponent true false cs).map (Split.led [c])

/-- Splits an exponent off, if one comes. -/
def splitExponent? : List Char → Option Split
  | c :: cs =>
    if c = 'e' ∨ c = 'E' then (splitExponent false false cs).map (Split.led [c]) else none
  | [] => none

/-- Splits a number with a point or an exponent off. -/
def splitDecimal (cs : List Char) : Option Split :=
  let whole := cs.takeWhile isDigitOrBlank
  match cs.dropWhile isDigitOrBlank with
  | '.' :: rest =>
    if rest.head?.any (fun c => c == '.' || isWordStart c) then none
    else
      let s : Split :=
        (whole ++ '.' :: rest.takeWhile isDigitOrBlank, rest.dropWhile isDigitOrBlank)
      (((splitExponent? s.2).map (Split.led s.1)).getD s).finished
  | rest => do ((← splitExponent? rest).led whole).finished

/-- Splits the digits of an integer off, in a base: at least one, and no decimal digit that is too
large. -/
def splitDigits (base : Nat) (hasDigit : Bool) : List Char → Option Split
  | [] => if hasDigit then some ([], []) else none
  | c :: cs =>
    if c = '_' then (splitDigits base hasDigit cs).map (Split.led [c])
    else
      match hexValue? c with
      | some d =>
        if d < base then (splitDigits base true cs).map (Split.led [c])
        else if c.isDigit ∨ ¬ hasDigit then none
        else some ([], c :: cs)
      | none => if hasDigit then some ([], c :: cs) else none

/-- Splits an integer off. -/
def splitInteger : List Char → Option Split
  | '0' :: 'x' :: cs => do ((← splitDigits 16 false cs).led ['0', 'x']).finished
  | '0' :: 'o' :: cs => do ((← splitDigits 8 false cs).led ['0', 'o']).finished
  | '0' :: 'b' :: cs => do ((← splitDigits 2 false cs).led ['0', 'b']).finished
  | cs => do (← splitDigits 10 false cs).finished

/-! ### Literals -/

/-- Splits a literal off, and tells what it stands for. -/
def splitLiteral (cs : List Char) : Option (LiteralKind × Split) :=
  match cs with
  | '"' :: _ => do return (.text, ← TextKind.characters.splitQuoted false cs)
  | 'r' :: rest => do return (.text, (← TextKind.characters.splitQuoted true rest).led ['r'])
  | 'b' :: 'r' :: rest => do
    return (.other, (← TextKind.bytes.splitQuoted true rest).led ['b', 'r'])
  | 'b' :: '\x27' :: rest => do return (.other, (← TextKind.bytes.splitCharacter rest).led ['b'])
  | 'b' :: rest => do return (.other, (← TextKind.bytes.splitQuoted false rest).led ['b'])
  | 'c' :: 'r' :: rest => do
    return (.other, (← TextKind.terminated.splitQuoted true rest).led ['c', 'r'])
  | 'c' :: rest => do return (.other, (← TextKind.terminated.splitQuoted false rest).led ['c'])
  | '\x27' :: rest => do return (.other, ← TextKind.characters.splitCharacter rest)
  | c :: _ =>
    if c.isDigit then
      match splitDecimal cs with
      | some s => some (.decimal, s)
      | none => (splitInteger cs).map fun s => (.integer, s)
    else none
  | [] => none

end Backwire.Grammar
