import Backwire.Grammar.Path

/-!
# Types

A type is a path, possibly of a member of a type; a reference, a pointer, a tuple, an array or a
slice; a function; a call of a macro; bounds, behind `dyn`, behind `impl` or alone; `!`; or `_`.
A bound is a lifetime, or a path that may have parameters in parentheses, which no other type has.
Bounds are a type only if one of them is no lifetime. Laid out, bounds alone have `dyn` before
them.
-/

namespace Backwire.Grammar

open Reader

/-- How a type begins. -/
def typeStarts : String :=
  "one of: `for`, parentheses, `fn`, `unsafe`, `extern`, identifier, `::`, `<`, `dyn`, "
    ++ "square brackets, `*`, `&`, `!`, `impl`, `_`, lifetime"

section

variable (r : Readers)

/-! ### Parameters of types -/

/-- Reads the bounds of a parameter that is a lifetime or a type, if a colon stands next. A colon
without bounds is none. -/
def parameterBounds (bound : Reader Phrase) : Reader Phrase := do
  if ← next (atSign ":") then
    let colon ← sign ":"
    let stop (ts : List Token) : Bool :=
      atEnd ts || atSign "," ts || atSign ">" ts || atSign "=" ts
    let bounds ← items "+" stop bound
    return if bounds.isEmpty then .nil else colon ++ .separatedBy "+" bounds
  else return .nil

/-- Reads what stands for a parameter by default, if something does. -/
def default? (value : Reader Phrase) : Reader Phrase := ifNext (atSign "=") (all [sign "=", value])

/-- Reads a parameter of a type: a lifetime, a type or a constant. -/
def parameter : Reader Phrase := do
  let attributes ← attributes r
  let parameter ← choice "one of: identifier, lifetime, `const`" [
    (atIdentifier, all [identifier, parameterBounds r.bound, default? r.anyType]),
    (atLifetime, all [lifetime, parameterBounds lifetime]),
    (atWord "const", all [
      word "const", identifier, sign ":", r.anyType, default? (constant r)])]
  return attributes ++ parameter

/-- Reads a parameter of a type, and tells whether it is a lifetime. -/
def genericParameter : Reader Argument := do
  let attributes ← attributes r
  let isLifetime ← next atLifetime
  return ⟨isLifetime, attributes ++ (← parameter r)⟩

/-- Reads lifetimes of which a type or a bound holds, if they are named. -/
def binder? : Reader Phrase :=
  ifNext (atWord "for") (all [word "for", angles (commas (atSign ">") (parameter r))])

/-! ### Bounds -/

/-- Reads the result of a function, if it has one. -/
def result? : Reader Phrase := ifNext (atSign "->") (all [sign "->", r.plainType])

/-- Reads a path of a bound. -/
def boundPath : Reader Phrase := do
  let p ← path r false
  let call (ts : List Token) : Bool := atSign "(" ts || atSign "::" ts && atSign "(" (ts.drop 2)
  if p.endsBare ∧ (← next call) then
    let _ ← sign? "::"
    let parameters ← parens (commas atEnd r.anyType)
    return p.bare.phrase ++ parameters ++ (← result? r)
  else return p.phrase

/-- Reads a bound that is no lifetime, without parentheses around it. It may be constant if that
is allowed. -/
def traitBound (mayBeConstant : Bool) : Reader Phrase := do
  let lifetimes ← binder? r
  let constancy ← choice "bound" [
    (atSign "[", brackets (word "const")), (atWord "const", word "const"),
    (fun _ => true, pure .nil)]
  let modifier ← sign? "?"
  if constancy ≠ .nil ∧ ¬ mayBeConstant then throw (.notAllowed "`const` is not allowed here")
  if modifier ≠ .nil ∧ (lifetimes ≠ .nil ∨ (← next (atWord "for"))) then
    throw (.notAllowed "`for<...>` binder not allowed with `?` trait polarity modifier")
  return lifetimes ++ constancy ++ modifier ++ (← boundPath r)

/-- Reads the parameters that a type hides: lifetimes and types. -/
def captured : Reader Phrase := do
  let start ← word "use"
  let name := choice "one of: lifetime, identifier, `Self`" [
    (atLifetime, lifetime), (fun ts => atIdentifier ts || atWord "Self" ts, anyName)]
  return start ++ (← angles do return argumentsPhrase (← items "," (atSign ">") (argumentOf name)))

/-- Reads a bound, and tells whether it is a lifetime or something like it. -/
def singleBound (mayBeConstant mayCapture : Bool) : Reader (Bool × Phrase) := do
  if ← next atLifetime then return (true, ← lifetime)
  else if ← next (atWord "use") then
    if mayCapture then return (true, ← captured)
    else throw (.notAllowed "`use<...>` precise capturing syntax is not allowed here")
  else if ← next (atSign "(") then return (false, ← parens (traitBound r mayBeConstant))
  else return (false, ← traitBound r mayBeConstant)

/-- Reads a bound of something that is given by name. -/
def namedBound : Reader Phrase := do return (← singleBound r true false).2

/-- Whether a bound of a type stands next, as far as its first token tells. -/
def atBound (ts : List Token) : Bool :=
  atName ts || atSign "::" ts || atSign "?" ts || atLifetime ts || atSign "(" ts

/-- Reads bounds of which one is no lifetime, with plus signs between them if a sum is allowed. -/
def typeBounds (sum mayBeConstant mayCapture : Bool) : Reader Phrase := do
  let begins (ts : List Token) : Bool := atBound ts || mayBeConstant && atSign "[" ts
  let bound := singleBound r mayBeConstant mayCapture
  let bounds ← if sum then items "+" (!begins ·) bound else do pure [(← bound, false)]
  if bounds.all fun (b, _) => b.1 then
    throw (.notAllowed "at least one trait is required for an object type")
  return .separatedBy "+" (bounds.map fun (b, plus) => (b.2, plus))

/-- Reads a bound of a type that stands behind another one. -/
def furtherBound : Reader Phrase := do return (← singleBound r false false).2

/-- Bounds that imply `dyn`. -/
def implied (bounds : List (Phrase × Bool)) : TypePhrase :=
  let p := Phrase.separatedBy "+" bounds
  ⟨⟨p.given, "dyn" :: p.tidy⟩, if bounds matches [(_, false)] then .bound else .other⟩

/-! ### Types -/

/-- Reads a parameter of the type of a function without its attributes. It may have a name. -/
def functionParameter (isFirst : Bool) : Reader Phrase := do
  let self ← if isFirst && (← next fun ts => atWord "mut" ts && atWord "self" ts.tail) then
      word "mut"
    else pure .nil
  let named (ts : List Token) : Bool :=
    (atIdentifier ts || atWord "_" ts || isFirst && atWord "self" ts)
      && atSign ":" ts.tail && !atSign "::" ts.tail
  if ← next named then
    return self ++ (← all [anyName, sign ":", r.anyType])
  else if self ≠ .nil then return self ++ (← word "self")
  else r.anyType

/-- Whether what stands next is three points, possibly with a name. -/
def atVariadic (ts : List Token) : Bool :=
  atSign "..." ts || (atIdentifier ts || atWord "_" ts) && atSign ":" ts.tail
    && atSign "..." (ts.drop 2)

/-- Reads the parameters of the type of a function, at most `fuel` of them. -/
def functionParameters : Nat → Bool → Reader (List (Phrase × Bool))
  | 0, _ => return []
  | fuel + 1, isFirst => do
    if ← next atEnd then return []
    else
      let attributes ← attributes r
      if ← next atVariadic then
        let points ← all [ifNext atName (all [anyName, sign ":"]), sign "..."]
        return [(attributes ++ points, (← sign? ",") ≠ .nil)]
      let parameter ← functionParameter r isFirst
      let parameter := attributes ++ parameter
      if ← next (atSign ",") then
        let _ ← sign ","
        return (parameter, true) :: (← functionParameters fuel false)
      else return [(parameter, false)]

/-- Reads the type of a function. -/
def functionType : Reader Phrase := do
  let start ← all [
    word? "unsafe",
    ifNext (atWord "extern") (all [word "extern", ifNext atText literal]),
    word "fn"]
  let parameters ← parens do return .separatedBy "," (← functionParameters r (← left) true)
  return start ++ parameters ++ (← result? r)

/-- Reads an array or a slice. -/
def arrayType : Reader Phrase :=
  brackets (all [r.anyType, ifNext (atSign ";") (all [sign ";", r.anyExpression])])

/-- Reads a pointer. -/
def pointerType : Reader Phrase :=
  all [sign "*",
    choice "`const` or `mut`" [(atWord "const", word "const"), (atWord "mut", word "mut")],
    r.plainType]

/-- Reads a reference. -/
def referenceType : Reader Phrase :=
  all [sign "&", ifNext atLifetime lifetime, word? "mut", r.plainType]

/-- Reads bounds behind `dyn`. -/
def dynamicType (sum : Bool) : Reader Phrase :=
  all [word "dyn", sign? "*", typeBounds r sum false false]

/-- Reads bounds behind `impl`. -/
def hiddenType (sum : Bool) : Reader Phrase := all [word "impl", typeBounds r sum true true]

/-- Reads a type that begins with a path: the path, a call of a macro, or bounds the first of
which is the path. -/
def namedType (lifetimes : Phrase) (sum : Bool) : Reader TypePhrase := do
  let p ← path r false
  if p.isPlain ∧ (← next fun ts => atSign "!" ts && !atSign "!=" ts) then
    let call ← all [sign "!", group]
    return ⟨p.phrase ++ call, .other⟩
  else if lifetimes ≠ .nil ∨ sum ∧ (← next (atSign "+")) then
    let first := lifetimes ++ p.phrase
    if sum ∧ (← next (atSign "+")) then
      let _ ← sign "+"
      return implied ((first, true) :: (← items "+" (!atBound ·) (furtherBound r)))
    else return implied [(first, false)]
  else return ⟨p.phrase, p.kind⟩

/-- Reads further bounds behind the first one, each behind a plus sign. -/
def furtherBounds (first : Phrase) : Reader TypePhrase := do
  if ← next (atSign "+") then
    let _ ← sign "+"
    let others ← items "+" (fun _ => false) (furtherBound r)
    return implied ((first, true) :: others)
  else return implied [(first, false)]

/-- The first bound of a sum that a type in parentheses is. -/
def boundInParens? (t : TypePhrase) : Option Phrase :=
  let enclosed (p : Phrase) : Phrase := .sign "(" ++ p ++ .sign ")"
  match t.kind with
  | .segment | .path => some (enclosed t.phrase)
  | .bound => some (enclosed ⟨t.phrase.given, t.phrase.tidy.drop 1⟩)
  | .other => none

/-- Reads a type that begins with a parenthesis: a tuple, a type in parentheses, or bounds the
first of which stands in parentheses. -/
def enclosedType (sum : Bool) : Reader TypePhrase := do
  let start ← sign "("
  if ← next atLifetime then
    let bounds ← typeBounds r true false false
    let stop ← sign ")"
    return ⟨start ++ ⟨bounds.given, "dyn" :: bounds.tidy⟩ ++ stop, .other⟩
  else if ← next (atSign "?") then
    let bound ← traitBound r false
    furtherBounds r (start ++ bound ++ (← sign ")"))
  else if ← next atEnd then return ⟨start ++ (← sign ")"), .other⟩
  else
    let first ← r.type true
    if ← next (atSign ",") then
      let _ ← sign ","
      let others ← items "," atEnd r.anyType
      let stop ← sign ")"
      return ⟨start ++ .separatedBy "," ((first.phrase, true) :: others) ++ stop, .other⟩
    else
      let stop ← sign ")"
      if sum ∧ (← next (atSign "+")) then
        if let some bound := boundInParens? first then return ← furtherBounds r bound
      return ⟨start ++ first.phrase ++ stop, .other⟩

/-- Reads a type by readers of what stands in it. -/
def typeWith (sum : Bool) : Reader TypePhrase := do
  let other (p : Reader Phrase) : Reader TypePhrase := do return ⟨← p, .other⟩
  let function (ts : List Token) : Bool := atWords ["fn", "unsafe", "extern"] ts
  if ← next (atWord "for") then
    let lifetimes ← binder? r
    if ← next function then return ⟨lifetimes ++ (← functionType r), .other⟩
    else if ← next fun ts => atIdentifier ts || atWords placeWords ts then
      namedType r lifetimes sum
    else refuse typeStarts
  else choice typeStarts [
    (atSign "(", enclosedType r sum),
    (function, other (functionType r)),
    (atSign "<", other (memberPath r false)),
    (atPath, namedType r .nil sum),
    (atWord "dyn", other (dynamicType r sum)),
    (atSign "[", other (arrayType r)),
    (atSign "*", other (pointerType r)),
    (atSign "&", other (referenceType r)),
    (atSign "!", other (sign "!")),
    (atWord "impl", other (hiddenType r sum)),
    (atWord "_", other (word "_")),
    (atLifetime, other do
      let bounds ← typeBounds r true false false
      return ⟨bounds.given, "dyn" :: bounds.tidy⟩)]

end

end Backwire.Grammar
