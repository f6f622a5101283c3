import Backwire.Grammar.Pattern

/-!
# Expressions

An expression is made of operands with operators between them. An operand is an atom, possibly
with operators before it, and with calls, members, indices and question marks behind it. Each
operator has a strength; those of more strength bind their operands first. Comparisons do not
follow one another, and a range is no operand on the left of an operator.
-/

namespace Backwire.Grammar

open Reader

/-! ### Operators -/

/-- The strength of an assignment. -/
def assignmentStrength : Nat := 1

/-- The strength of a range. -/
def rangeStrength : Nat := 2

/-- The strength of a comparison. -/
def comparisonStrength : Nat := 6

/-- The strength of a cast. -/
def castStrength : Nat := 13

/-- Signs between two operands, each with its strength. None begins with one behind it. -/
def operators : List (String × Nat) :=
  (["+=", "-=", "*=", "/=", "%=", "^=", "&=", "|=", "<<=", ">>="].map fun s => (s, 1))
    ++ [("||", 3), ("&&", 4), ("<<", 10), (">>", 10), ("==", 6), ("<=", 6), ("!=", 6), (">=", 6),
      ("+", 11), ("-", 11), ("*", 12), ("/", 12), ("%", 12), ("|", 7), ("^", 8), ("&", 9),
      ("<", 6), (">", 6)]

/-- The operator that stands next. -/
def operator? (ts : List Token) : Option (String × Nat) := operators.find? fun (s, _) => atSign s ts

/-- Whether an assignment stands next. -/
def atAssignment (ts : List Token) : Bool := atSign "=" ts && !atSign "=>" ts

/-- The strength of what stands next between two operands; `0` if nothing does. -/
def strengthNext (ts : List Token) : Nat :=
  match operator? ts with
  | some (_, strength) => strength
  | none =>
    if atAssignment ts then assignmentStrength
    else if atSign ".." ts then rangeStrength
    else if atWord "as" ts then castStrength
    else 0

/-- What an expression with an operator of some strength is. -/
def kindOfStrength (strength : Nat) : ExpressionKind :=
  if strength = assignmentStrength then .assignment
  else if strength = comparisonStrength then .comparison
  else .other

/-- Whether what stands next ends a range of which it is no part. -/
def endsRange (structs : Bool) (ts : List Token) : Bool :=
  atEnd ts || atSign "." ts && !atSign ".." ts || !structs && atSign "\x7b" ts
    || [",", ";", "?", "=>", "=", "+", "/", "%", "^", ">", "<=", "!=", "-=", "*=", "&=", "|=",
      "<<="].any (atSign · ts)
    || atWord "as" ts

/-- Refuses what would be taken for a part of the type of a cast. -/
def checkCast : Reader Phrase := do
  if ← next fun ts => atSign "." ts && !atSign ".." ts || atSign "?" ts || atSign "[" ts
      || atSign "(" ts then
    throw (.notAllowed "casts cannot be followed by a postfix operator")
  else return .nil

section

variable (r : Readers)

section

variable (structs : Bool)

mutual

/-- Reads the operators behind an expression that bind at least as tightly as `base`, and their
operands. Each step takes a token, and at most `fuel` of them are taken. -/
def extend : Nat → Expression → Nat → Reader Expression
  | 0, left, _ => return left
  | fuel + 1, left, base => do
    let ts ← get
    if left.kind = .range then return left
    else
      match operator? ts with
      | some (s, strength) =>
        if strength < base then return left
        else if strength = comparisonStrength ∧ left.kind = .comparison then
          throw (.notAllowed "comparison operators cannot be chained")
        else
          let s ← sign s
          let right ← follow fuel (← r.operand structs) strength
          extend fuel ⟨left.phrase ++ s ++ right.phrase, kindOfStrength strength⟩ base
      | none =>
        if base ≤ assignmentStrength ∧ atAssignment ts then
          let s ← sign "="
          let right ← follow fuel (← r.operand structs) assignmentStrength
          extend fuel ⟨left.phrase ++ s ++ right.phrase, .assignment⟩ base
        else if base ≤ rangeStrength ∧ atSign ".." ts then
          let isClosed := atSign "..=" ts
          if atSign "..." ts then refuse "`..` or `..=`"
          else
            let s ← sign (if isClosed then "..=" else "..")
            let isOpen ← next (endsRange structs)
            if isOpen && !isClosed then extend fuel ⟨left.phrase ++ s, .range⟩ base
            else
              let right ← follow fuel (← r.operand structs) rangeStrength
              extend fuel ⟨left.phrase ++ s ++ right.phrase, .range⟩ base
        else if base ≤ castStrength ∧ atWord "as" ts then
          let cast ← all [word "as", r.plainType, checkCast]
          extend fuel ⟨left.phrase ++ cast, .other⟩ base
        else return left

/-- Reads what binds an operand on the right of an operator more tightly than that. -/
def follow : Nat → Expression → Nat → Reader Expression
  | 0, right, _ => return right
  | fuel + 1, right, strength => do
    let ts ← get
    let following := strengthNext ts
    if strength < following
        ∨ following = strength ∧ strength = assignmentStrength then
      let before ← left
      let more ← extend fuel right following
      if (← left) = before then return more else follow fuel more strength
    else return right

end

/-- Reads the end of a range that begins with its points, if it has one. -/
def rangeBound (isClosed : Bool) : Reader Phrase := do
  let isOpen ← next (endsRange structs)
  if isOpen && !isClosed then return .nil
  else
    let fuel := 2 * (← left)
    return (← follow r structs fuel (← r.operand structs) rangeStrength).phrase

end

/-! ### Operands -/

/-- Reads expressions with commas between them. -/
def expressions : Reader Phrase := commas atEnd r.anyExpression

/-- Whether an operator before an operand stands next, or an attribute. -/
def atPrefixOperator (ts : List Token) : Bool := ["#", "&", "*", "!", "-"].any (atSign · ts)

/-- Reads an operator before an operand, or an attribute. -/
def prefixOperator : Reader Phrase := do
  if ← next (atSign "#") then
    let remark ← oneAttribute r false
    if ← next (atSign "..") then
      throw (.notAllowed "attributes are not allowed on range expressions starting with `..`")
    return remark
  else if ← next (atSign "&") then
    let start ← sign "&"
    if ← next fun ts => atWord "raw" ts && atWords ["mut", "const"] ts.tail then
      return start ++ (← all [word "raw", anyName])
    else return start ++ (← word? "mut")
  else choice "operator" [(atSign "*", sign "*"), (atSign "!", sign "!"), (atSign "-", sign "-")]

/-- Reads a member of a value behind its point, and possibly a call of it. -/
def memberAccess : Reader Phrase := do
  let point ← sign "."
  match ← get with
  | .literal .decimal text :: rest =>
    set rest
    let parts := text.splitOn "."
    let numbers := if parts.getLast? = some "" then parts.dropLast else parts
    let places ← numbers.mapM memberNumber
    let places := Phrase.separatedBy "."
      (places.zipIdx.map fun (p, i) => (p, i + 1 < places.length))
    if parts.length = numbers.length then return point ++ places
    else return point ++ places ++ .sign "." ++ (← name)
  | _ => return point ++ (← name)
where
  /-- Reads what stands behind a point. -/
  name : Reader Phrase := do
    if ← next (atWord "await") then word "await"
    else
      let isNamed ← next atIdentifier
      let name ← member
      let isGeneric ← next (atSign "::")
      let generics ← if isNamed && isGeneric then arguments r true else pure .nil
      if isNamed && isGeneric then return name ++ generics ++ (← parens (expressions r))
      else if isNamed && (← next (atSign "(")) then
        return name ++ (← parens (expressions r))
      else return name

/-- Reads the calls, members, indices and question marks behind an operand. At most `fuel` of them
are read. -/
def trailers : Nat → Expression → Reader Expression
  | 0, e => return e
  | fuel + 1, e => do
    let ts ← get
    let isRange := e.kind = .range
    let more ←
      if atSign "(" ts then parens (expressions r)
      else if atSign "[" ts then brackets r.anyExpression
      else if atSign "." ts && !atSign ".." ts && !isRange then memberAccess r
      else if atSign "?" ts && !isRange then sign "?"
      else pure .nil
    if more = .nil then return e else trailers fuel ⟨e.phrase ++ more, .other⟩

/-! ### Blocks and jumps -/

/-- Reads `if` with its condition and its block, and what stands behind `else`. -/
def ifChain : Nat → Reader Phrase
  | 0 => refuse "`if`"
  | fuel + 1 => do
    let branch ← all [word "if", r.condition, bareBlock r]
    if ← next (atWord "else") then
      let branch := branch ++ (← word "else")
      if ← next (atWord "if") then return branch ++ (← ifChain fuel)
      else return branch ++ (← bareBlock r)
    else return branch

/-- Whether a closure stands next of which a binder says for which lifetimes it holds. -/
def atBoundClosure (ts : List Token) : Bool :=
  atWord "for" ts && atSign "<" ts.tail && (atLifetime (ts.drop 2) || atSign ">" (ts.drop 2))

/-- Reads a loop. -/
def loop : Reader Phrase :=
  choice "loop" [
    (atWord "while", all [word "while", r.condition, r.block]),
    (atWord "for", all [word "for", anyPattern r, word "in", r.condition, r.block]),
    (atWord "loop", all [word "loop", r.block])]

/-- Reads a loop or a block with a label. -/
def labeled : Reader Phrase := do
  let label ← all [lifetime, sign ":"]
  if ← next (atSign "\x7b") then return label ++ (← r.block) else return label ++ (← loop r)

/-- Whether an expression stands next, as far as its first tokens tell. -/
def atExpression (ts : List Token) : Bool :=
  atName ts && !atWord "as" ts || atSign "(" ts || atSign "[" ts || atSign "\x7b" ts
    || atLiteral ts || atSign "!" ts && !atSign "!=" ts
    || atSign "-" ts && !atSign "-=" ts && !atSign "->" ts || atSign "*" ts && !atSign "*=" ts
    || atSign "|" ts && !atSign "|=" ts || atSign "&" ts && !atSign "&=" ts || atSign ".." ts
    || atSign "<" ts && !atSign "<=" ts && !atSign "<<=" ts || atSign "::" ts || atLifetime ts
    || atSign "#" ts

/-- Reads a jump, with the value that it takes along. -/
def jump (structs : Bool) : Reader Phrase := do
  let value : Reader Phrase := do return (← r.expression structs 0).phrase
  if ← next (atWord "continue") then all [word "continue", ifNext atLifetime lifetime]
  else if ← next (atWord "break") then
    let start ← word "break"
    if ← next fun ts => atLifetime ts && atSign ":" ts.tail then
      throw (.notAllowed "parentheses required")
    else
      let label ← ifNext atLifetime lifetime
      let begins (ts : List Token) : Bool := atExpression ts && (structs || !atSign "\x7b" ts)
      return start ++ label ++ (← ifNext begins value)
  else if ← next (atWord "become") then all [word "become", r.anyExpression]
  else all [anyName, ifNext atExpression value]

/-! ### Atoms -/

/-- Reads a parameter of a closure. -/
def closureParameter : Reader Phrase := do
  let attributes ← attributes r
  return attributes ++ (← r.pattern).phrase ++ (← ifNext (atSign ":") (all [sign ":", r.anyType]))

/-- Reads a closure. -/
def closure (structs : Bool) : Reader Phrase := do
  let start ← all [binder? r, words? ["const", "static", "async", "move"]]
  let parameters ← between "|" "|" (commas (atSign "|") (closureParameter r))
  if ← next (atSign "->") then
    return start ++ parameters ++ (← all [sign "->", r.anyType, bareBlock r])
  else return start ++ parameters ++ (← r.expression structs 0).phrase

/-- Whether a closure stands next. -/
def atClosure (ts : List Token) : Bool :=
  atSign "|" ts || atWord "move" ts || atBoundClosure ts
    || atWord "const" ts && !atSign "\x7b" ts.tail || atWord "static" ts
    || atWord "async" ts && (atSign "|" ts.tail || atWord "move" ts.tail)

/-- Reads the fields of a struct, and what the others are taken from. -/
def structFields : Reader Phrase := do
  let field : Reader Phrase := do
    let attributes ← attributes r
    let isNumber ← next fun ts => !atIdentifier ts
    let name ← member
    if isNumber ∨ (← next (atSign ":")) then
      return attributes ++ name ++ (← sign ":") ++ (← r.anyExpression)
    else return attributes ++ name
  let fields ← commas (fun ts => atEnd ts || atSign ".." ts) field
  return fields ++ (← ifNext (atSign "..") (all [sign "..", ifNext (!atEnd ·) r.anyExpression]))

/-- Reads an expression that begins with a path: the path, a call of a macro, or a struct. -/
def pathExpression (structs : Bool) : Reader Expression := do
  let isMember ← next (atSign "<")
  let (p, isPlain) ←
    if isMember then pure (← memberPath r true, false)
    else do
      let p ← path r true
      pure (p.phrase, p.isPlain)
  if isPlain ∧ (← next fun ts => atSign "!" ts && !atSign "!=" ts) then
    let start ← sign "!"
    let hasBraces ← next (atSign "\x7b")
    return ⟨p ++ start ++ (← group), .macroCall hasBraces⟩
  else if structs && (← next (atSign "\x7b")) then
    return ⟨p ++ (← braces (structFields r)), .other⟩
  else return ⟨p, .other⟩

/-- Reads an arm of a match. -/
def arm : Reader Phrase := do
  let attributes ← attributes r
  let pattern ← anyPattern r
  let guard ← ifNext (atWord "if") (all [word "if", r.anyExpression])
  let arrow ← sign "=>"
  let body ← r.early
  let head := attributes ++ pattern ++ guard ++ arrow ++ body.phrase
  if body.kind = .block then return head ++ (← sign? ",").untidy
  else if ← next atEnd then return head
  else return head ++ (← sign ",")

/-- Reads a list or a repeated value. -/
def listExpression : Reader Phrase :=
  brackets do
    if ← next atEnd then return .nil
    else
      let first ← r.anyExpression
      if ← next (atSign ";") then return first ++ (← sign ";") ++ (← r.anyExpression)
      else if ← next (atSign ",") then
        let _ ← sign ","
        return .separatedBy "," ((first, true) :: (← items "," atEnd r.anyExpression))
      else return first

/-- Reads a condition that holds if a pattern fits. -/
def letExpression (structs : Bool) : Reader Phrase := do
  let start ← all [word "let", anyPattern r, sign "="]
  return start ++ (← r.expression structs comparisonStrength).phrase

/-- Whether a path stands next that begins with `try`. -/
def atTryPath (ts : List Token) : Bool :=
  atWord "try" ts && (atSign "!" ts.tail || atSign "::" ts.tail)

/-- Whether a block stands next that a word begins. -/
def atBlockOf (word : String) (ts : List Token) : Bool := atWord word ts && atSign "\x7b" ts.tail

/-- Readers of the expressions that end with a block. -/
def blockExpressions : List ((List Token → Bool) × Reader Expression) :=
  let block (p : Reader Phrase) : Reader Expression := do return ⟨← p, .block⟩
  [(atWord "if", block do ifChain r (← left)),
    (fun ts => atWords ["while", "loop"] ts || atWord "for" ts && !atBoundClosure ts,
      block (loop r)),
    (atWord "match", block (all [word "match", r.condition, 
      braces (all [innerAttributes r, many (!atEnd ·) (arm r)])])),
    (atBlockOf "try", block (all [word "try", bareBlock r])),
    (atWord "unsafe", block (all [word "unsafe", r.block])),
    (atBlockOf "const", block (all [word "const", r.block])),
    (atSign "\x7b", block r.block),
    (atLifetime, block (labeled r))]

/-- Reads an atom. -/
def atom (structs : Bool) : Reader Expression :=
  let other (p : Reader Phrase) : Reader Expression := do return ⟨← p, .other⟩
  choice "an expression" <| [
    (atLiteral, other literal),
    (fun ts => atBlockOf "async" ts || atWord "async" ts && atBlockOf "move" ts.tail,
      other (all [word "async", word? "move", bareBlock r])),
    (atBlockOf "try", do return ⟨← all [word "try", bareBlock r], .block⟩),
    (atClosure, other (closure r structs)),
    (fun ts => atWord "builtin" ts && atSign "#" ts.tail,
      other (all [word "builtin", sign "#", identifier, parens anyTokens])),
    (fun ts => atPath ts || atSign "<" ts || atTryPath ts, pathExpression r structs),
    (atSign "(", other (parens (expressions r))),
    (atWords ["break", "continue", "return", "become", "yield"],
      do return ⟨← jump r structs, .jump⟩),
    (atSign "[", other (listExpression r)),
    (atWord "let", other (letExpression r structs))]
  ++ blockExpressions r ++ [
    (fun ts => atSign ".." ts && !atSign "..." ts, do
      let isClosed ← next (atSign "..=")
      let points ← sign (if isClosed then "..=" else "..")
      return ⟨points ++ (← rangeBound r structs isClosed), .range⟩),
    (atWord "_", other (word "_"))]

/-! ### Expressions -/

/-- Whether what stands next goes on with a block as an operand. -/
def goesOnWithBlock (ts : List Token) : Bool := atSign "." ts && !atSign ".." ts || atSign "?" ts

/-- Reads an operand by readers of what stands in it. -/
def operandWith (structs : Bool) : Reader Expression := do
  let start ← many atPrefixOperator (prefixOperator r)
  let e ← trailers r (← left) (← atom r structs)
  return ⟨start ++ e.phrase, if start.given.isEmpty then e.kind else .other⟩

/-- Reads an expression whose operators bind at least as tightly as `base`, by readers of what
stands in it. -/
def expressionWith (structs : Bool) (base : Nat) : Reader Expression := do
  let first ← operandWith r structs
  extend r structs (2 * (← left)) first base

/-- Reads an expression that ends where a statement may end: behind a block that it begins with,
unless a point or a question mark follows. -/
def earlyWith : Reader Expression := do
  let attributes ← attributes r
  let ts ← get
  match (blockExpressions r).find? fun (test, _) => test ts with
  | none =>
    let e ← expressionWith r true 0
    return ⟨attributes ++ e.phrase, e.kind⟩
  | some (_, block) =>
    let e ← block
    if ← next goesOnWithBlock then
      let operand ← trailers r (← left) e
      let whole ← extend r true (2 * (← left)) operand 0
      return ⟨attributes ++ whole.phrase, whole.kind⟩
    else return ⟨attributes ++ e.phrase, e.kind⟩

end

end Backwire.Grammar
