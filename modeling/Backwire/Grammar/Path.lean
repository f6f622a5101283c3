import Backwire.Bindings.Identifier
import Backwire.Grammar.Reader

/-!
# Names, literals and paths

A path is a sequence of segments with `::` between them. A segment is a name, and may have
arguments between angle brackets: lifetimes, types, constants, and types, constants and bounds
that are given by name. In a value the arguments have `::` before them, without which the bracket
would be a comparison; in a type they may have it. Laid out, a path has `::` there in values only,
lifetimes come first, and arguments that are none are left out.
-/

namespace Backwire.Grammar

open Reader

/-! ### Names -/

/-- Words that are no identifiers. -/
def refusedWords : List String :=
  Bindings.keywords.filter (· != "gen") ++ Bindings.reservedWords

/-- Whether an identifier stands next. -/
def atIdentifier : List Token → Bool
  | .word name isRaw :: _ => isRaw || name ∉ refusedWords
  | _ => false

/-- Reads an identifier. -/
def identifier : Reader Phrase := do
  match ← get with
  | .word name false :: _ =>
    if name ∈ refusedWords then
      throw (.notAllowed ("expected identifier, found keyword `" ++ name ++ "`"))
  | _ => pure ()
  take "identifier" atIdentifier

/-- Reads a word, whether or not it is an identifier. -/
def anyName : Reader Phrase := take "identifier" atName

/-- Words that name a place and may begin a path. -/
def placeWords : List String := ["super", "self", "Self", "crate"]

/-- Whether a path of a type stands next, as far as its first token tells. -/
def atPath (ts : List Token) : Bool := atIdentifier ts || atWords placeWords ts || atSign "::" ts

/-- Reads a lifetime. -/
def lifetime : Reader Phrase := take "lifetime" atLifetime

/-- Reads a literal. -/
def literal : Reader Phrase := do
  if ← next atLiteral then
    return (← sign? "-") ++ (← take "literal" fun _ => true)
  else refuse "literal"

/-! ### Paths -/

/-- A segment of a path. -/
structure Segment where
  name : Phrase
  /-- The arguments with their brackets, and with what stands before them. -/
  arguments : Phrase
  /-- Whether there are brackets. -/
  hasArguments : Bool
  /-- Whether there are arguments. -/
  isGeneric : Bool

/-- A path. -/
structure Path where
  /-- The signs before the first segment. -/
  start : Phrase
  segments : List Segment

namespace Path

/-- The phrase of a path. -/
def phrase (p : Path) : Phrase :=
  p.start ++ .separatedBy "::" (p.segments.zipIdx.map fun (s, i) =>
    (s.name ++ s.arguments, i + 1 < p.segments.length))

/-- Whether no segment has brackets. -/
def isPlain (p : Path) : Bool := p.segments.all fun s => !s.hasArguments

/-- Whether the last segment has no arguments. -/
def endsBare (p : Path) : Bool := p.segments.getLast?.all fun s => !s.isGeneric

/-- The path without the brackets of its last segment. -/
def bare (p : Path) : Path :=
  ⟨p.start, p.segments.modify (p.segments.length - 1) fun s => { s with arguments := .nil }⟩

/-- The kind of the type that a path is. -/
def kind (p : Path) : TypeKind :=
  if p.start = .nil ∧ p.segments.length = 1 then .segment else .path

end Path

/-- An argument in angle brackets. -/
structure Argument where
  isLifetime : Bool
  phrase : Phrase

/-- The arguments of a segment, each with whether a comma stands behind it: lifetimes first, and
with the commas that this takes. -/
def argumentsPhrase (arguments : List (Argument × Bool)) : Phrase :=
  let (lifetimes, others) := arguments.partition fun (a, _) => a.isLifetime
  let ordered := lifetimes ++ others
  ⟨given true (ordered.map fun (a, comma) => (a.phrase.given, comma)),
    (Phrase.separatedBy "," (ordered.map fun (a, _) => (a.phrase, true))).tidy⟩
where
  /-- Arguments behind one that has a comma, or has none. -/
  given (separated : Bool) : List (List Token × Bool) → List Token
    | [] => []
    | (ts, comma) :: others =>
      (if separated then [] else Token.sign ",") ++ ts ++ (if comma then Token.sign "," else [])
        ++ given comma others

/-- Reads a phrase as an argument, which is a lifetime if one stands next. -/
def argumentOf (reader : Reader Phrase) : Reader Argument := do
  let isLifetime ← next atLifetime
  return ⟨isLifetime, ← reader⟩

section

variable (r : Readers)

/-- Reads a constant that is an argument: a literal, a block, or an identifier. -/
def constant : Reader Phrase :=
  choice "literal" [
    (atLiteral, literal), (atSign "\x7b", r.block), (atIdentifier, identifier)]

/-- Whether a constant stands next that cannot be a type. -/
def atConstant (ts : List Token) : Bool := atLiteral ts || atSign "\x7b" ts

/-- Reads an argument. -/
def argument : Reader Argument := do
  if ← next fun ts => atLifetime ts && !atSign "+" ts.tail then return ⟨true, ← lifetime⟩
  else if ← next atConstant then return ⟨false, ← constant r⟩
  else
    let type ← r.type true
    if type.kind = .segment ∧ (← next (atSign "=")) then
      let equals ← sign "="
      let value ← if ← next atConstant then constant r else r.anyType
      return ⟨false, type.phrase ++ equals ++ value⟩
    else if type.kind = .segment ∧ (← next (atSign ":")) then
      let colon ← sign ":"
      let bounds ← r.boundsUpTo fun ts => atSign "," ts || atSign ">" ts
      return ⟨false, type.phrase ++ (if bounds = .nil then colon.untidy else colon) ++ bounds⟩
    else return ⟨false, type.phrase⟩

/-- Reads arguments between angle brackets, with signs before them. -/
def arguments (inValue : Bool) : Reader Phrase := do
  let separator ← sign? "::"
  let start ← sign "<"
  let all ← items "," (atSign ">") (argument r)
  let stop ← sign ">"
  let p := start ++ argumentsPhrase all ++ stop
  let layout := if all.isEmpty then [] else if inValue then "::" :: p.tidy else p.tidy
  return ⟨separator.given ++ p.given, layout⟩

/-- Whether the arguments of a segment stand next. In a value they have `::` before them. -/
def atArguments (inValue : Bool) (ts : List Token) : Bool :=
  !inValue && atSign "<" ts && !atSign "<=" ts && !atSign "<<=" ts
    || atSign "::" ts && atSign "<" (ts.drop 2)

/-- Reads a segment of a path. -/
def segment (inValue : Bool) : Reader Segment := do
  if ← next (atWords ["super", "self", "crate", "try"]) then
    return ⟨← anyName, .nil, false, false⟩
  else
    let name ← if ← next (atWord "Self") then anyName else identifier
    if ← next (atArguments inValue) then
      let arguments ← arguments r inValue
      return ⟨name, arguments, true, arguments.tidy ≠ []⟩
    else return ⟨name, .nil, false, false⟩

/-- Reads the segments of a path, as long as what stands behind one passes a test. -/
def segments (inValue : Bool) (goesOn : List Token → Bool) :
    Reader (List Segment) := do
  go (← left)
where
  /-- Reads at most so many segments. -/
  go : Nat → Reader (List Segment)
    | 0 => refuse "identifier"
    | fuel + 1 => do
      let s ← segment r inValue
      if ← next goesOn then
        let _ ← sign "::"
        return s :: (← go fuel)
      else return [s]

/-- Reads a path. Parameters in parentheses are not part of it. -/
def path (inValue : Bool) : Reader Path := do
  let start ← sign? "::"
  return ⟨start, ← segments r inValue fun ts => atSign "::" ts && !atSign "(" (ts.drop 2)⟩

/-- Reads the path of a member of a type: the type between angle brackets, possibly as something
that it implements, and the segments of the member. -/
def memberPath (inValue : Bool) : Reader Phrase := do
  let start ← sign "<"
  let type ← r.anyType
  let owner ←
    if ← next (atWord "as") then
      let as ← word "as"
      let owner ← path r false
      pure (as ++ owner.phrase)
    else pure .nil
  let stop ← all [sign ">", sign "::"]
  let members ← segments r inValue (atSign "::")
  return start ++ type ++ owner ++ stop ++ (Path.mk .nil members).phrase

/-- Reads a path without arguments. -/
def plainPath : Reader Phrase := do
  let start ← sign? "::"
  let names ← items "::" (fun ts => !(atIdentifier ts || atWords placeWords ts)) anyName
  match names.getLast? with
  | none => refuse "identifier"
  | some (_, true) => throw (.notAllowed "expected path segment after `::`")
  | some (_, false) => return start ++ .separatedBy "::" names

/-! ### Attributes -/

/-- Reads what an attribute says, behind its path. -/
def attributeValue : Reader Phrase := do
  if ← next fun ts => atSign "(" ts || atSign "[" ts || atSign "\x7b" ts then group
  else if ← next fun ts => atSign "=" ts && !atSign "==" ts && !atSign "=>" ts then
    let equals ← sign "="
    return equals ++ (← r.anyExpression)
  else return .nil

/-- Reads an attribute, with or without an exclamation mark. -/
def oneAttribute (isInner : Bool) : Reader Phrase := do
  let start ← sign "#"
  let mark ← if isInner then sign "!" else pure .nil
  let body ← brackets do
    let name ← if ← next (atWord "unsafe") then anyName else plainPath
    return name ++ (← attributeValue r)
  return start ++ mark ++ body

/-- Reads attributes of what follows. -/
def attributes : Reader Phrase := many (atSign "#") (oneAttribute r false)

/-- Whether an attribute of what it stands in stands next. -/
def atInnerAttribute (ts : List Token) : Bool :=
  atSign "#" ts && atSign "!" ts.tail && !atSign "!=" ts.tail

/-- Reads attributes of what they stand in. -/
def innerAttributes : Reader Phrase := many atInnerAttribute (oneAttribute r true)

/-- Reads a block that cannot have attributes of its own within it. -/
def bareBlock : Reader Phrase := do
  if ← next fun ts => atSign "\x7b" ts && atInnerAttribute ts.tail then refuse "statement"
  else r.block

end

end Backwire.Grammar
