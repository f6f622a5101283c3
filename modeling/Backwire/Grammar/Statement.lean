import Backwire.Grammar.Expression
import Backwire.Grammar.Item

/-!
# Statements

A block holds statements: items, bindings of patterns, and expressions. An expression that is
another statement's neighbour ends with a semicolon, unless it ends with a block. Laid out, a
jump or an assignment at the end of several statements has a semicolon too.
-/

namespace Backwire.Grammar

open Reader

/-- A statement. -/
structure Statement where
  phrase : Phrase
  /-- Whether it may stand only at the end of a block. -/
  isLast : Bool
  /-- Whether it gets a semicolon where it is laid out behind others. -/
  isJump : Bool

section

variable (r : Readers)

/-- Reads the binding of a pattern. -/
def binding : Reader Phrase := do
  let start ← word "let"
  let pattern ← r.pattern
  let type ← ifNext (atSign ":") (all [sign ":", r.anyType])
  let value ←
    if ← next (atSign "=") then
      let value ← all [sign "=", r.anyExpression]
      let endsWithBrace := value.given.getLast? == some (.mark '\x7d' false)
      if !endsWithBrace && (← next (atWord "else")) then
        pure (value ++ (← word "else") ++ (← bareBlock r))
      else pure value
    else pure .nil
  return start ++ pattern.phrase ++ type ++ value ++ (← sign ";")

/-- Reads a call of a macro with braces that is a statement by itself: no operand of a member or a
question mark. -/
def macroStatement : Reader Phrase := do
  let call ← all [plainPath, sign "!"]
  if ← next (atSign "\x7b") then
    let body ← group
    if ← next goesOnWithBlock then refuse "statement" else return call ++ body ++ (← sign? ";")
  else refuse "statement"

/-- Reads a call of a macro that declares something of a name. -/
def namedMacroStatement : Reader Phrase := do
  let call ← all [plainPath, sign "!"]
  if ← next fun ts => atIdentifier ts || atWord "try" ts then return call else refuse "statement"

/-- Reads a statement. -/
def statement : Reader Statement := do
  let attributes ← attributes r
  if let some (call, rest) ← ahead? macroStatement then
    set rest
    return ⟨attributes ++ call, false, false⟩
  else if ← next (atWord "let") then return ⟨attributes ++ (← binding r), false, false⟩
  else if (← next atItem) || (← ahead? namedMacroStatement).isSome then
    return ⟨attributes ++ (← itemBody r), false, false⟩
  else
    let e ← earlyWith r
    let stop ← sign? ";"
    let endsByItself := e.kind = .block ∨ e.kind = .macroCall true
    return ⟨attributes ++ e.phrase ++ stop, stop = .nil && !endsByItself,
      stop = .nil && (e.kind = .jump || e.kind = .assignment)⟩

/-- Reads statements up to the end of a block, at most `fuel` of them. -/
def statements : Nat → Reader (List Statement)
  | 0 => return []
  | fuel + 1 => do
    let gap ← many (atSign ";") (sign ";")
    let led (ss : List Statement) : List Statement :=
      if gap = .nil then ss else ⟨gap.untidy, false, false⟩ :: ss
    if ← next atEnd then return led []
    else
      let s ← statement r
      if ← next atEnd then return led [s]
      else if s.isLast then refuse "`;`"
      else return led (s :: (← statements fuel))

/-- Statements one after another. -/
def statementsPhrase (ss : List Statement) : Phrase :=
  let all := Phrase.concat (ss.map Statement.phrase)
  if 1 < ss.length && ss.getLast?.any Statement.isJump then ⟨all.given, all.tidy ++ [";"]⟩ else all

/-- Reads statements between braces, by readers of what stands in them. -/
def blockWith : Reader Phrase :=
  braces do
    let attributes ← innerAttributes r
    return attributes ++ statementsPhrase (← statements r (← left))

end

end Backwire.Grammar
