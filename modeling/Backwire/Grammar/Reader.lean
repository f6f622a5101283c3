import Backwire.Grammar.Token

/-!
# Readers of tokens

A reader takes a phrase off the tokens that are left, or finds a fault. A phrase is known in two
forms: as it is given, and as it is laid out where it becomes part of a file of code. The second
is tidier: lists do not end with a comma there, and an implied word is written out. The grammar is
a system of readers that refer to each other; a reader of one kind of phrase gets those for the
phrases within it as a value of `Readers`.
-/

namespace Backwire.Grammar

/-- Why a text does not follow the grammar. -/
inductive Fault where
  /-- Its tokens are not those of code. -/
  | notCode
  /-- Something else stands where something is expected, or nothing does. -/
  | expected (what : String) (atEnd : Bool)
  /-- Something stands where it is not allowed. -/
  | notAllowed (what : String)
  /-- Something stands behind the phrase. -/
  | furtherToken
  deriving DecidableEq, Repr

/-- The report of a fault. -/
def Fault.message : Fault → String
  | notCode => "cannot parse string into token stream"
  | expected what false => "expected " ++ what
  | expected what true => "unexpected end of input, expected " ++ what
  | notAllowed what => what
  | furtherToken => "unexpected token"

/-- A phrase of code. -/
structure Phrase where
  /-- The phrase as it is given. -/
  given : List Token
  /-- The phrase as it is laid out. -/
  tidy : List String
  deriving DecidableEq, Repr

namespace Phrase

/-- Nothing. -/
def nil : Phrase := ⟨[], []⟩

/-- Tokens that are laid out as they are given. -/
def ofTokens (ts : List Token) : Phrase := ⟨ts, Token.texts ts⟩

/-- The phrase of a sign. -/
def sign (s : String) : Phrase := ofTokens (Token.sign s)

instance : Append Phrase := ⟨fun p q => ⟨p.given ++ q.given, p.tidy ++ q.tidy⟩⟩

/-- A phrase that is there as it is given, and not where it is laid out. -/
def untidy (p : Phrase) : Phrase := ⟨p.given, []⟩

/-- A sequence of phrases. -/
def concat (ps : List Phrase) : Phrase := ps.foldr (· ++ ·) nil

/-- Phrases with a separator between them. Each tells whether one stands behind it; there may be
one behind the last. -/
def separatedBy (separator : String) (ps : List (Phrase × Bool)) : Phrase :=
  ⟨ps.flatMap fun (p, more) => p.given ++ (if more then Token.sign separator else []),
    ((ps.map fun (p, _) => p.tidy).intersperse (sign separator).tidy).flatten⟩

end Phrase

/-! ### What stands next -/

/-- Whether a sign stands next. -/
def atSign (s : String) (ts : List Token) : Bool := go s.toList ts
where
  go : List Char → List Token → Bool
    | [], _ => true
    | [c], .mark d _ :: _ => c == d
    | c :: cs, .mark d true :: ts => c == d && go cs ts
    | _, _ => false

/-- Whether a word stands next that means something by itself. -/
def atWord (word : String) (ts : List Token) : Bool := ts.head? == some (.word word false)

/-- Whether one of some words stands next. -/
def atWords (words : List String) (ts : List Token) : Bool := words.any fun w => atWord w ts

/-- Whether a lifetime stands next. -/
def atLifetime : List Token → Bool
  | .lifetime _ :: _ => true
  | _ => false

/-- Whether any word stands next. -/
def atName : List Token → Bool
  | .word _ _ :: _ => true
  | _ => false

/-- Whether a text stands next. -/
def atText : List Token → Bool
  | .literal .text _ :: _ => true
  | _ => false

/-- Whether a literal stands next. A number may have a minus sign. -/
def atLiteral : List Token → Bool
  | .literal _ _ :: _ | .word "true" false :: _ | .word "false" false :: _ => true
  | .mark '-' _ :: .literal kind _ :: _ => kind == .integer || kind == .decimal
  | _ => false

/-- Whether nothing stands next: the end, or the end of what delimiters enclose. -/
def atEnd : List Token → Bool
  | [] => true
  | .mark c _ :: _ => c ∈ Token.delimiters.map Prod.snd
  | _ => false

/-! ### Readers -/

/-- A reader of the tokens that are left. -/
abbrev Reader := StateT (List Token) (Except Fault)

namespace Reader

/-- Whether what stands next passes a test. -/
def next (test : List Token → Bool) : Reader Bool := do return test (← get)

/-- Refuses what stands next, where something else is expected. -/
def refuse {α : Type} (wanted : String) : Reader α := do
  throw (.expected wanted (atEnd (← get)))

/-- Reads one token that passes a test. -/
def take (wanted : String) (test : List Token → Bool) : Reader Phrase := do
  match ← get with
  | t :: rest =>
    if test (t :: rest) then
      set rest
      return .ofTokens [t]
    else refuse wanted
  | [] => refuse wanted

/-- Reads a sign. -/
def sign (s : String) : Reader Phrase := do
  if ← next (atSign s) then
    modify (·.drop s.length)
    return .sign s
  else refuse ("`" ++ s ++ "`")

/-- Reads a word that means something by itself. -/
def word (w : String) : Reader Phrase := take ("`" ++ w ++ "`") (atWord w)

/-- Reads a phrase if what stands next passes a test. -/
def ifNext (test : List Token → Bool) (reader : Reader Phrase) : Reader Phrase := do
  if ← next test then reader else return .nil

/-- Reads a sign if it stands next. -/
def sign? (s : String) : Reader Phrase := ifNext (atSign s) (sign s)

/-- Reads a word if it stands next. -/
def word? (w : String) : Reader Phrase := ifNext (atWord w) (word w)

/-- Reads the words of a list in order, each if it stands next. -/
def words? (ws : List String) : Reader Phrase := do return .concat (← ws.mapM word?)

/-- Reads phrases one after another. -/
def all (readers : List (Reader Phrase)) : Reader Phrase := do return .concat (← readers.mapM id)

/-- How many tokens are left. -/
def left : Reader Nat := do return (← get).length

/-- Reads by the first of some readers whose test what stands next passes. -/
def choice {α : Type} (wanted : String) :
    List ((List Token → Bool) × Reader α) → Reader α
  | [] => refuse wanted
  | (test, reader) :: others => do if ← next test then reader else choice wanted others

/-- Reads phrases as long as what stands next passes a test, at most `fuel` of them. -/
def manyWithin (test : List Token → Bool) (item : Reader Phrase) : Nat → Reader Phrase
  | 0 => return .nil
  | fuel + 1 => do
    if ← next test then return (← item) ++ (← manyWithin test item fuel) else return .nil

/-- Reads phrases, each of at least one token, as long as what stands next passes a test. -/
def many (test : List Token → Bool) (item : Reader Phrase) : Reader Phrase := do
  manyWithin test item (← left)

/-- Reads items with a separator between them up to where a test is passed, at most `fuel` of
them, and tells for each whether a separator stands behind it. -/
def itemsWithin {α : Type} (separator : String) (stop : List Token → Bool) (item : Reader α) :
    Nat → Reader (List (α × Bool))
  | 0 => return []
  | fuel + 1 => do
    if ← next stop then return []
    else
      let a ← item
      if ← next (atSign separator) then
        let _ ← sign separator
        return (a, true) :: (← itemsWithin separator stop item fuel)
      else return [(a, false)]

/-- Reads items, each of at least one token, with a separator between them up to where a test is
passed, and tells for each whether a separator stands behind it. -/
def items {α : Type} (separator : String) (stop : List Token → Bool) (item : Reader α) :
    Reader (List (α × Bool)) := do
  itemsWithin separator stop item (← left)

/-- Reads phrases with commas between them, and possibly one behind the last. -/
def commas (stop : List Token → Bool) (item : Reader Phrase) : Reader Phrase := do
  return .separatedBy "," (← items "," stop item)

/-- Reads a phrase between a mark and the mark that closes it. -/
def between (start stop : String) (inner : Reader Phrase) : Reader Phrase :=
  all [sign start, inner, sign stop]

/-- Reads a phrase between parentheses. -/
def parens (inner : Reader Phrase) : Reader Phrase := between "(" ")" inner

/-- Reads a phrase between brackets. -/
def brackets (inner : Reader Phrase) : Reader Phrase := between "[" "]" inner

/-- Reads a phrase between braces. -/
def braces (inner : Reader Phrase) : Reader Phrase := between "\x7b" "\x7d" inner

/-- Reads a phrase between angle brackets. -/
def angles (inner : Reader Phrase) : Reader Phrase := between "<" ">" inner

/-- Splits tokens off up to the end of what delimiters enclose, where so many delimiters are open
within. -/
def splitEnclosed : Nat → List Token → List Token × List Token
  | _, [] => ([], [])
  | depth, t :: ts =>
    if Token.delimiters.any fun (c, _) => t == .mark c false then
      (splitEnclosed (depth + 1) ts).map (t :: ·) id
    else if atEnd [t] then
      match depth with
      | 0 => ([], t :: ts)
      | depth + 1 => (splitEnclosed depth ts).map (t :: ·) id
    else (splitEnclosed depth ts).map (t :: ·) id

/-- Reads any tokens up to the end of what delimiters enclose. -/
def anyTokens : Reader Phrase := do
  let (enclosed, rest) := splitEnclosed 0 (← get)
  set rest
  return .ofTokens enclosed

/-- Reads any tokens between delimiters of some kind. -/
def group : Reader Phrase :=
  choice "one of: parentheses, curly braces, square brackets" [
    (atSign "(", parens anyTokens),
    (atSign "[", brackets anyTokens),
    (atSign "\x7b", braces anyTokens)]

/-- What a reader would read, if it reads something; nothing is taken. -/
def ahead? {α : Type} (reader : Reader α) : Reader (Option (α × List Token)) := do
  match reader.run (← get) with
  | .ok result => return some result
  | .error _ => return none

end Reader

/-! ### Kinds of phrases -/

/-- What a type is, as far as its place depends on it. -/
inductive TypeKind where
  /-- A path of one segment. -/
  | segment
  /-- Another path that is no member of a type. -/
  | path
  /-- One bound alone, which implies `dyn`. -/
  | bound
  | other
  deriving DecidableEq, Repr

/-- A type. -/
structure TypePhrase where
  phrase : Phrase
  kind : TypeKind
  deriving DecidableEq, Repr

/-- What an expression is, as far as its place depends on it. -/
inductive ExpressionKind where
  | range
  | comparison
  /-- An assignment, possibly with an operator. -/
  | assignment
  /-- An expression that ends with a block of its own, such as a loop. -/
  | block
  /-- A call of a macro, with braces or with other delimiters. -/
  | macroCall (hasBraces : Bool)
  /-- A jump, such as `return`. -/
  | jump
  | other
  deriving DecidableEq, Repr

/-- An expression. -/
structure Expression where
  phrase : Phrase
  kind : ExpressionKind
  deriving DecidableEq, Repr

/-- What a pattern is, as far as its place depends on it. -/
inductive PatternKind where
  /-- A range that lacks one of its ends. -/
  | openRange
  /-- Two points: whatever there may be. -/
  | rest
  | other
  deriving DecidableEq, Repr

/-- A pattern. -/
structure Pattern where
  phrase : Phrase
  kind : PatternKind
  deriving DecidableEq, Repr

/-- Readers of the phrases that stand within others. -/
structure Readers where
  /-- A reader of types, which is told whether it may read a sum of bounds. -/
  type : Bool → Reader TypePhrase
  /-- A reader of bounds of something that is given by name. -/
  bound : Reader Phrase
  /-- A reader of expressions whose operators bind at least as tightly as is said, which is told
  whether a brace may begin the fields of a struct. -/
  expression : Bool → Nat → Reader Expression
  /-- A reader of operands, which is told the same. -/
  operand : Bool → Reader Expression
  /-- A reader of expressions that end where a statement may end. -/
  early : Reader Expression
  /-- A reader of patterns that are no choice. -/
  pattern : Reader Pattern
  /-- A reader of statements between braces. -/
  block : Reader Phrase
  /-- A reader of items. -/
  item : Reader Phrase

/-- Readers that refuse everything. -/
def Readers.none : Readers :=
  ⟨fun _ => Reader.refuse "type", Reader.refuse "bound", fun _ _ => Reader.refuse "expression",
    fun _ => Reader.refuse "expression", Reader.refuse "expression", Reader.refuse "pattern",
    Reader.refuse "block", Reader.refuse "item"⟩

namespace Readers

/-- Reads a type. -/
def anyType (r : Readers) : Reader Phrase := do return (← r.type true).phrase

/-- Reads a type that is no sum of bounds. -/
def plainType (r : Readers) : Reader Phrase := do return (← r.type false).phrase

/-- Reads the bounds of something that is given by name, up to where a test is passed. -/
def boundsUpTo (r : Readers) (stop : List Token → Bool) : Reader Phrase := do
  return .separatedBy "+" (← Reader.items "+" stop r.bound)

/-- Reads an expression. -/
def anyExpression (r : Readers) : Reader Phrase := do return (← r.expression true 0).phrase

/-- Reads an expression before a block, which would be taken for the fields of a struct. -/
def condition (r : Readers) : Reader Phrase := do return (← r.expression false 0).phrase

end Readers

end Backwire.Grammar
