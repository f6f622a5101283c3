import Backwire.Grammar.Lexer
import Backwire.Grammar.Statement

/-!
# Reading whole phrases

The readers of the grammar, for phrases that nest at most so deep. Between a phrase and one of its
kind within it stands a token, so that no phrase nests deeper than it has tokens.
-/

namespace Backwire.Grammar

open Reader

/-- Readers of phrases that nest at most so deep. -/
def readers : Nat → Readers
  | 0 => .none
  | depth + 1 =>
    let r := readers depth
    { type := typeWith r
      bound := namedBound r
      expression := expressionWith r
      operand := operandWith r
      early := earlyWith r
      pattern := patternWith r
      block := blockWith r
      item := itemWith r }

/-- The phrase that tokens are, as a reader reads it. -/
def whole {α : Type} (reader : Readers → Reader α) (ts : List Token) : Except Fault α :=
  match (reader (readers (2 * ts.length + 1))).run ts with
  | .ok (a, []) => .ok a
  | .ok (_, _ :: _) => .error .furtherToken
  | .error fault => .error fault

/-- The path that tokens are. -/
def Path.ofTokens (ts : List Token) : Except Fault Path := whole (fun r => path r false) ts

/-- The type that tokens are. -/
def TypePhrase.ofTokens (ts : List Token) : Except Fault TypePhrase :=
  whole (fun r => r.type true) ts

/-- The expression that tokens are. -/
def Expression.ofTokens (ts : List Token) : Except Fault Expression :=
  whole (fun r => r.expression true 0) ts

/-- The path that a text is. -/
def Path.ofText (s : String) : Except Fault Path :=
  let ts := tokens s
  if Token.areSound ts then Path.ofTokens ts else .error .notCode

end Backwire.Grammar
