import Backwire.Grammar.Literal
import Backwire.Grammar.Type

/-!
# Patterns

A pattern is `_`, a name, possibly with a pattern of its own, a literal, a path, possibly with
patterns for parts, a range of constants, a reference, a tuple, a slice, two points, or a call of
a macro. A choice of patterns stands wherever it is not mistaken for something else.
-/

namespace Backwire.Grammar

open Reader

/-- The digits of an integer, which has no suffix. -/
def integerValue? (text : String) : Option Nat :=
  let cs := text.toList.filter (· != '_')
  let (base, digits) := match cs with
    | '0' :: 'x' :: ds => (16, ds)
    | '0' :: 'o' :: ds => (8, ds)
    | '0' :: 'b' :: ds => (2, ds)
    | ds => (10, ds)
  digits.foldlM (fun n c => do
    let d ← hexValue? c
    if d < base then some (base * n + d) else none) 0

/-- The phrase of the number of a member. -/
def memberNumber (text : String) : Reader Phrase :=
  match integerValue? text with
  | some n =>
    if n < 4294967296 then return .ofTokens [.literal .integer (toString n)]
    else throw (.notAllowed "number too large to fit in target type")
  | none => throw (.notAllowed "expected unsuffixed integer")

/-- Reads the name or the number of a member of a struct. -/
def member : Reader Phrase := do
  match ← get with
  | .literal .integer text :: rest =>
    set rest
    memberNumber text
  | _ => if ← next atIdentifier then identifier else refuse "identifier or integer"

section

variable (r : Readers)

/-- Whether one more pattern of a choice stands next. -/
def atChoice (ts : List Token) : Bool := atSign "|" ts && !atSign "||" ts && !atSign "|=" ts

/-- Reads a choice of patterns, the first of which may have its sign too. -/
def patterns : Reader Pattern := do
  let start ← sign? "|"
  let first ← r.pattern
  if start ≠ .nil ∨ (← next atChoice) then
    let others ← many atChoice (all [sign "|", do return (← r.pattern).phrase])
    return ⟨start ++ first.phrase ++ others, .other⟩
  else return first

/-- Reads a choice of patterns. -/
def anyPattern : Reader Phrase := do return (← patterns r).phrase

/-- Whether what stands next ends a range of which it is no part. -/
def atRangeEnd (ts : List Token) : Bool :=
  atEnd ts || atSign "|" ts || atSign "=" ts || atSign ":" ts && !atSign "::" ts
    || atSign "," ts || atSign ";" ts || atWord "if" ts

/-- Reads a path in a value. -/
def valuePath : Reader Phrase := do
  if ← next (atSign "<") then memberPath r true
  else return (← path r true).phrase

/-- Reads an end of a range. -/
def rangeEnd : Reader Phrase :=
  choice "one of: literal, identifier, `::`, `<`, `self`, `Self`, `super`, `crate`, `const`" [
    (atLiteral, literal),
    (fun ts => atPath ts || atSign "<" ts, valuePath r),
    (atWord "const", all [word "const", r.block])]

/-- Reads the rest of a range behind its first end. Three points are those of a range that
includes its end. -/
def rangeFrom (start : Phrase) : Reader Pattern := do
  let isClosed ← next fun ts => atSign "..=" ts || atSign "..." ts
  if isClosed then
    let _ ← choice "`..=`" [(atSign "..=", sign "..="), (atSign "...", sign "...")]
    if ← next atRangeEnd then refuse "range upper bound"
    else return ⟨start ++ .sign "..=" ++ (← rangeEnd r), .other⟩
  else
    let points ← sign ".."
    if ← next atRangeEnd then return ⟨start ++ points, .openRange⟩
    else return ⟨start ++ points ++ (← rangeEnd r), .other⟩

/-- Reads a range without a first end, or two points. -/
def rangeTo : Reader Pattern := do
  let isClosed ← next (atSign "..=")
  let points ← sign (if isClosed then "..=" else "..")
  if ← next atRangeEnd then
    if isClosed then refuse "range upper bound" else return ⟨points, .rest⟩
  else return ⟨points ++ (← rangeEnd r), .openRange⟩

/-- Reads patterns with commas between them. -/
def patternList : Reader Phrase := commas atEnd (anyPattern r)

/-- Reads the pattern of a field. -/
def fieldPattern : Reader Phrase := do
  let attributes ← attributes r
  let words ← words? ["box", "ref", "mut"]
  if words ≠ .nil then return attributes ++ words ++ (← identifier)
  else
    let isNumber ← next fun ts => !atIdentifier ts
    let name ← member
    if isNumber ∨ (← next (atSign ":")) then
      return attributes ++ name ++ (← sign ":") ++ (← anyPattern r)
    else return attributes ++ name

/-- Reads the patterns of fields, with two points for those that are left. -/
def fieldPatterns : Reader Phrase := do
  let points (ts : List Token) : Bool := atEnd ts || atSign ".." ts
  let fields ← commas points (fieldPattern r)
  return fields ++ (← sign? "..")

/-- Reads a pattern that begins with a path. -/
def pathPattern : Reader Pattern := do
  let isMember ← next (atSign "<")
  let (p, isPlain) ←
    if isMember then pure (← memberPath r true, false)
    else do
      let p ← path r true
      pure (p.phrase, p.isPlain)
  if isPlain ∧ (← next fun ts => atSign "!" ts && !atSign "!=" ts) then
    return ⟨p ++ (← all [sign "!", group]), .other⟩
  else if ← next (atSign "\x7b") then return ⟨p ++ (← braces (fieldPatterns r)), .other⟩
  else if ← next (atSign "(") then return ⟨p ++ (← parens (patternList r)), .other⟩
  else if ← next (atSign "..") then rangeFrom r p
  else return ⟨p, .other⟩

/-- Reads a pattern that is a literal or a range. -/
def constantPattern : Reader Pattern := do
  let start ← rangeEnd r
  if ← next (atSign "..") then rangeFrom r start else return ⟨start, .other⟩

/-- Reads a name, possibly with a pattern that it stands for. -/
def namePattern : Reader Phrase := do
  let words ← words? ["ref", "mut"]
  let name ← if ← next (atWord "self") then anyName else identifier
  if ← next (atSign "@") then
    return words ++ name ++ (← sign "@") ++ (← r.pattern).phrase
  else return words ++ name

/-- Reads a slice. A range in it that lacks one of its ends would be mistaken. -/
def slicePattern : Reader Phrase :=
  brackets <| commas atEnd do
    let p ← patterns r
    if p.kind = .openRange then
      throw (.notAllowed "range pattern is not allowed unparenthesized inside slice pattern")
    return p.phrase

/-- Whether a path stands next, and not a name that is bound. -/
def atPathPattern (ts : List Token) : Bool :=
  let behind := ts.tail
  atIdentifier ts && (atSign "::" behind || atSign "!" behind || atSign "\x7b" behind
      || atSign "(" behind || atSign ".." behind)
    || atWord "self" ts && atSign "::" behind || atSign "::" ts || atSign "<" ts
    || atWords ["Self", "super", "crate"] ts

/-- Reads a pattern that is no choice, by readers of what stands in it. -/
def patternWith : Reader Pattern :=
  let other (p : Reader Phrase) : Reader Pattern := do return ⟨← p, .other⟩
  choice "pattern" [
    (atPathPattern, pathPattern r),
    (atWord "_", other (word "_")),
    (atWord "box", other (all [word "box", do return (← r.pattern).phrase])),
    (fun ts => atSign "-" ts || atLiteral ts || atWord "const" ts, constantPattern r),
    (fun ts => atWords ["ref", "mut", "self"] ts || atIdentifier ts, other (namePattern r)),
    (atSign "&", other (all [sign "&", word? "mut", do return (← r.pattern).phrase])),
    (atSign "(", other (parens (patternList r))),
    (atSign "[", other (slicePattern r)),
    (fun ts => atSign ".." ts && !atSign "..." ts, rangeTo r)]

end

end Backwire.Grammar
