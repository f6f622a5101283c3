import Backwire.Grammar.Pattern

/-!
# Items

An item declares something in a block: an import, a constant, a function, a type, a module, or an
implementation. Most of them may be said to be visible from elsewhere.
-/

namespace Backwire.Grammar

open Reader

section

variable (r : Readers)

/-- Reads from where an item is visible, if that is said. -/
def visibility : Reader Phrase :=
  ifNext (atWord "pub") do
    let start ← word "pub"
    let inside ← ifNext
      (fun ts => atSign "(" ts && atWords ["crate", "self", "super"] ts.tail
        && atSign ")" (ts.drop 2)) (parens anyName)
    let scope ← ifNext (fun ts => atSign "(" ts && atWord "in" ts.tail)
      (parens (all [word "in", plainPath]))
    return start ++ inside ++ scope

/-- Reads the parameters of something generic, if it has any. Brackets around none are left out,
and lifetimes come first. -/
def generics : Reader Phrase :=
  ifNext (atSign "<") do
    let start ← sign "<"
    let parameters ← items "," (atSign ">") (genericParameter r)
    let stop ← sign ">"
    return if parameters.isEmpty then .nil else start ++ argumentsPhrase parameters ++ stop

/-- Reads what has to hold of the parameters of something generic, if something does. -/
def whereClause : Reader Phrase :=
  ifNext (atWord "where") do
    let start ← word "where"
    let stop (ts : List Token) : Bool :=
      atEnd ts || atSign "\x7b" ts || atSign "," ts || atSign ";" ts || atSign "=" ts
        || atSign ":" ts && !atSign "::" ts
    let subject : Reader Phrase := do
      if ← next atLifetime then lifetime else return (← binder? r) ++ (← r.anyType)
    let conditions ← commas stop (all [subject, sign ":", r.boundsUpTo stop])
    return if conditions = .nil then .nil else start ++ conditions

/-- Reads the value itself as a parameter of a function. -/
def receiver : Reader Phrase := do
  let reference ← ifNext (atSign "&") (all [sign "&", ifNext atLifetime lifetime])
  let self ← all [word? "mut", word "self"]
  if reference = .nil then
    return self ++ (← ifNext (atSign ":") (all [sign ":", r.anyType]))
  else return reference ++ self

/-- Reads the parameters of a function, at most `fuel` of them. The value itself comes first, and
three points, possibly with a pattern, come last. -/
def functionArguments : Nat → Bool → Reader (List (Phrase × Bool))
  | 0, _ => return []
  | fuel + 1, isFirst => do
    if ← next atEnd then return []
    else
      let attributes ← attributes r
      let (argument, isLast) ←
        if ← next (atSign "...") then pure (← sign "...", true)
        else if let some (p, rest) ← ahead? (receiver r) then
          if isFirst then
            set rest
            pure (p, false)
          else throw (.notAllowed "unexpected method receiver")
        else if ← next fun ts => atIdentifier ts && atSign "<" ts.tail then
          pure (.ofTokens [.word "_" false] ++ .sign ":" ++ (← r.anyType), false)
        else
          let named := (← r.pattern).phrase ++ (← sign ":")
          if ← next (atSign "...") then pure (named ++ (← sign "..."), true)
          else pure (named ++ (← r.anyType), false)
      let separated := (← sign? ",") ≠ .nil
      let others ← if separated && !isLast then functionArguments fuel false else pure []
      return (attributes ++ argument, separated) :: others

/-- Whether the head of a function stands next. -/
def atFunction (ts : List Token) : Bool :=
  go ts.length ts
where
  /-- Words, and the name of a convention, before that which begins a function. -/
  go : Nat → List Token → Bool
    | 0, _ => false
    | fuel + 1, ts =>
      atWord "fn" ts
        || atWords ["const", "async", "unsafe", "extern"] ts && go fuel ts.tail
        || atText ts && go fuel ts.tail

/-- Reads the head of a function. -/
def functionHead : Reader Phrase :=
  all [
    words? ["const", "async", "unsafe"],
    ifNext (atWord "extern") (all [word "extern", ifNext atText literal]),
    word "fn", identifier, generics r,
    parens do return .separatedBy "," (← functionArguments r (← left) true),
    ifNext (atSign "->") (all [sign "->", r.anyType]), whereClause r]

/-- Reads a function. -/
def function : Reader Phrase := do
  let head ← functionHead r
  if ← next (atSign ";") then return head ++ (← sign ";") else return head ++ (← r.block)

/-- Reads fields with names. -/
def recordFields : Reader Phrase :=
  braces (commas atEnd (all [attributes r, visibility, identifier, sign ":", r.anyType]))

/-- Reads fields without names. -/
def tupleFields : Reader Phrase :=
  parens (commas atEnd (all [attributes r, visibility, r.anyType]))

/-- Reads a struct. -/
def structItem : Reader Phrase := do
  let head ← all [word "struct", identifier, generics r, whereClause r]
  if ← next (atSign "\x7b") then return head ++ (← recordFields r)
  else if ← next (atSign "(") then
    return head ++ (← all [tupleFields r, whereClause r, sign ";"])
  else return head ++ (← sign ";")

/-- Reads a case of an enum. -/
def variant : Reader Phrase :=
  all [attributes r, visibility, identifier, ifNext (atSign "\x7b") (recordFields r),
    ifNext (atSign "(") (tupleFields r), ifNext (atSign "=") (all [sign "=", r.anyExpression])]

/-- Reads an enum. -/
def enumItem : Reader Phrase :=
  all [word "enum", identifier, generics r, whereClause r, braces (commas atEnd (variant r))]

/-- Reads the paths that an import names; each reading takes a token, and there are at most `fuel`
of them. -/
def importTree : Nat → Reader Phrase
  | 0 => refuse "identifier"
  | fuel + 1 => do
    if ← next (atSign "*") then sign "*"
    else if ← next (atSign "\x7b") then
      braces (commas atEnd (all [sign? "::", importTree fuel]))
    else
      let name ← anyName
      if ← next (atSign "::") then return name ++ (← sign "::") ++ (← importTree fuel)
      else return name ++ (← ifNext (atWord "as") (all [word "as", anyName]))

/-- Reads items between braces. -/
def itemsInBraces : Reader Phrase :=
  braces (all [innerAttributes r, many (!atEnd ·) r.item])

/-- Reads the value of a constant, if it has one. -/
def value? : Reader Phrase := ifNext (atSign "=") (all [sign "=", r.anyExpression])

/-- Reads an implementation. -/
def implementation : Reader Phrase :=
  all [word? "default", word? "unsafe", word "impl",
    ifNext (fun ts => atSign "<" ts
        && (atSign ">" ts.tail || atSign "#" ts.tail || atWord "const" ts.tail
          || (atIdentifier ts.tail || atLifetime ts.tail)
            && [":", ",", ">", "="].any (atSign · (ts.drop 2)) && !atSign "::" (ts.drop 2)))
      (generics r),
    sign? "!", r.anyType, ifNext (atWord "for") (all [word "for", r.anyType]), whereClause r,
    itemsInBraces r]

/-- Reads a trait. -/
def traitItem : Reader Phrase :=
  all [word? "unsafe", word? "auto", word "trait", identifier, generics r,
    ifNext (atSign ":") (all [sign ":",
      r.boundsUpTo fun ts => atSign "\x7b" ts || atWord "where" ts]),
    whereClause r, itemsInBraces r]

/-- Reads a type that stands for another one. -/
def typeItem : Reader Phrase :=
  all [word "type", identifier, generics r,
    ifNext (atSign ":") (all [sign ":",
      r.boundsUpTo fun ts => atSign "=" ts || atSign ";" ts || atWord "where" ts]),
    whereClause r, ifNext (atSign "=") (all [sign "=", r.anyType]), whereClause r, sign ";"]

/-- Reads a module. -/
def moduleItem : Reader Phrase := do
  let head ← all [word? "unsafe", word "mod", identifier]
  if ← next (atSign ";") then return head ++ (← sign ";") else return head ++ (← itemsInBraces r)

/-- Reads a call of a macro that declares something. -/
def macroItem : Reader Phrase := do
  let head ← all [plainPath, sign "!", ifNext atName anyName]
  let hasBraces ← next (atSign "\x7b")
  let body ← group
  if hasBraces then return head ++ body else return head ++ body ++ (← sign ";")

/-- Reads a definition of what a call of a name stands for. -/
def macroDefinition : Reader Phrase :=
  all [word "macro", identifier, ifNext (atSign "(") (parens anyTokens), braces anyTokens]

/-- Reads an item without its attributes. -/
def itemBody : Reader Phrase := do
  let visibility ← visibility
  let item ← choice "item" [
    (atFunction, function r),
    (fun ts => atWord "extern" ts && atWord "crate" ts.tail,
      all [word "extern", word "crate", anyName, ifNext (atWord "as") (all [word "as", anyName]),
        sign ";"]),
    (fun ts => atWord "extern" ts || atWord "unsafe" ts && atWord "extern" ts.tail,
      all [word? "unsafe", word "extern", ifNext atText literal, itemsInBraces r]),
    (atWord "use", do all [word "use", sign? "::", importTree (← left), sign ";"]),
    (atWord "static", all [word "static", word? "mut", identifier,
      ifNext (atSign ":") (all [sign ":", r.anyType]), value? r, sign ";"]),
    (atWord "const", all [word "const",
      take "identifier" fun ts => atIdentifier ts || atWord "_" ts, generics r, sign ":",
      r.anyType, value? r, whereClause r, sign ";"]),
    (fun ts => atWord "mod" ts || atWord "unsafe" ts && atWord "mod" ts.tail, moduleItem r),
    (atWord "type", typeItem r),
    (atWord "struct", structItem r),
    (atWord "enum", enumItem r),
    (fun ts => atWord "union" ts && atIdentifier ts.tail,
      all [word "union", identifier, generics r, whereClause r, recordFields r]),
    (fun ts => atWord "trait" ts || atWords ["unsafe", "auto"] ts
        && atWords ["trait", "auto"] ts.tail, traitItem r),
    (fun ts => atWord "impl" ts || atWord "default" ts || atWord "unsafe" ts, implementation r),
    (atWord "macro", macroDefinition),
    (fun ts => visibility = .nil && (atIdentifier ts || atWords placeWords ts || atSign "::" ts),
      macroItem)]
  return visibility ++ item

/-- Reads an item by readers of what stands in it. -/
def itemWith : Reader Phrase := do return (← attributes r) ++ (← itemBody r)

/-- Whether an item stands next that is no call of a macro. -/
def atItem (ts : List Token) : Bool :=
  let second := ts.tail
  let third := ts.drop 2
  atWords ["pub", "extern", "use", "fn", "mod", "type", "struct", "enum", "trait", "impl",
      "macro"] ts
    || atWord "crate" ts && !atSign "::" second
    || atWord "static" ts && (atWord "mut" second || atIdentifier second)
    || atWord "const" ts
      && !(atSign "\x7b" second || atSign "|" second || atWords ["static", "move"] second
        || atWord "async" second && !atWords ["unsafe", "extern", "fn"] third)
    || atWord "unsafe" ts && !atSign "\x7b" second
    || atWord "async" ts && atWords ["unsafe", "extern", "fn"] second
    || atWord "union" ts && atIdentifier second
    || atWord "auto" ts && atWord "trait" second
    || atWord "default" ts && atWords ["unsafe", "impl"] second

end

end Backwire.Grammar
