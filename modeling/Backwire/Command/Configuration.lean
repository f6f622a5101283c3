import Backwire.Package.Path

/-!
# Configuration files

A configuration is written in JSON: an object with the import roots and the path of the library
that bindings use, either of which may be left out, or the two in this order in an array. Nothing
else may stand in it. A file of blanks alone is as good as none.
-/

namespace Backwire.Command

open Package

/-- A configuration. -/
structure Configuration where
  importPaths : List String
  runtime? : Option String
  deriving DecidableEq, Repr

namespace Configuration

/-- The configuration in which nothing is said. -/
def empty : Configuration := ⟨[], none⟩

/-! ### JSON, as far as it is needed -/

/-- A value that a configuration may hold. -/
inductive Value where
  | null
  | text (s : String)
  | texts (ss : List String)
  deriving DecidableEq, Repr

/-- Whether a character may stand between the parts of a JSON text. -/
def isJsonBlank (c : Char) : Bool := c == ' ' || c == '\t' || c == '\n' || c == '\x0d'

/-- A text without the blanks that begin it. -/
def behindBlanks (cs : List Char) : List Char := cs.dropWhile isJsonBlank

/-- The number of four hexadecimal digits. -/
def codeUnit? (ds : List Char) : Option Nat :=
  ds.foldlM (fun n c =>
    if c.isDigit then some (16 * n + (c.toNat - 48))
    else if 'a' ≤ c ∧ c ≤ 'f' then some (16 * n + (c.toNat - 87))
    else if 'A' ≤ c ∧ c ≤ 'F' then some (16 * n + (c.toNat - 55))
    else none) 0

/-- What a backslash and a character stand for. -/
def unescape? (c : Char) : Option Char :=
  if c = '"' ∨ c = '\\' ∨ c = '/' then some c
  else if c = 'b' then some '\x08'
  else if c = 'f' then some '\x0c'
  else if c = 'n' then some '\n'
  else if c = 'r' then some '\x0d'
  else if c = 't' then some '\t'
  else none

/-- Reads a quoted text behind its first quote. Code units of a pair stand together. -/
def readText : List Char → Option (List Char × List Char)
  | [] | ['\\'] => none
  | '"' :: rest => some ([], rest)
  | '\\' :: 'u' :: a :: b :: c :: d :: rest =>
    match codeUnit? [a, b, c, d] with
    | none => none
    | some high =>
      if high < 0xd800 ∨ 0xdfff < high then
        (readText rest).map fun (cs, rest) => (Char.ofNat high :: cs, rest)
      else if 0xdc00 ≤ high then none
      else
        match rest with
        | '\\' :: 'u' :: e :: f :: g :: h :: rest =>
          match codeUnit? [e, f, g, h] with
          | none => none
          | some low =>
            if low < 0xdc00 ∨ 0xdfff < low then none
            else (readText rest).map fun (cs, rest) =>
              (Char.ofNat (0x10000 + 0x400 * (high - 0xd800) + (low - 0xdc00)) :: cs, rest)
        | _ => none
  | '\\' :: c :: rest =>
    match unescape? c with
    | none => none
    | some x => (readText rest).map fun (cs, rest) => (x :: cs, rest)
  | c :: rest =>
    if c.toNat < 0x20 then none
    else (readText rest).map fun (cs, rest) => (c :: cs, rest)

/-- Reads quoted texts with commas between them up to a closing bracket, at most `fuel`. -/
def readTexts : Nat → List Char → Option (List String × List Char)
  | 0, _ => none
  | fuel + 1, cs => do
    let '"' :: rest := behindBlanks cs | none
    let (s, rest) ← readText rest
    match behindBlanks rest with
    | ',' :: rest =>
      let (ss, rest) ← readTexts fuel rest
      return (String.ofList s :: ss, rest)
    | ']' :: rest => return ([String.ofList s], rest)
    | _ => none

/-- Reads a value. -/
def readValue (cs : List Char) : Option (Value × List Char) :=
  match behindBlanks cs with
  | '"' :: rest => (readText rest).map fun (s, rest) => (.text (String.ofList s), rest)
  | '[' :: rest =>
    match behindBlanks rest with
    | ']' :: rest => some (.texts [], rest)
    | rest => (readTexts (rest.length + 1) rest).map fun (ss, rest) => (.texts ss, rest)
  | 'n' :: 'u' :: 'l' :: 'l' :: rest => some (.null, rest)
  | _ => none

/-- Reads the members of an object up to its closing brace, at most `fuel`. -/
def readMembers : Nat → List Char → Option (List (String × Value) × List Char)
  | 0, _ => none
  | fuel + 1, cs => do
    let '"' :: rest := behindBlanks cs | none
    let (name, rest) ← readText rest
    let ':' :: rest := behindBlanks rest | none
    let (value, rest) ← readValue rest
    let member := (String.ofList name, value)
    match behindBlanks rest with
    | ',' :: rest =>
      let (ms, rest) ← readMembers fuel rest
      return (member :: ms, rest)
    | '\x7d' :: rest => return ([member], rest)
    | _ => none

/-! ### Configurations -/

/-- The import roots that a value is. -/
def importPaths? : Value → Option (List String)
  | .texts ss => some ss
  | _ => none

/-- The path of the library that a value is, or that nothing is said. -/
def runtimeOf? : Value → Option (Option String)
  | .text s => some (some s)
  | .null => some none
  | .texts _ => none

/-- The configuration of the members of an object. Each name may be given once. -/
def ofMembers? (ms : List (String × Value)) : Option Configuration := do
  let names := ms.map Prod.fst
  if ¬ names.Nodup ∨ names.any (fun n => n != "import_paths" && n != "runtime_crate") then none
  let importPaths ← match ms.lookup "import_paths" with
    | some v => importPaths? v
    | none => some []
  let runtime ← match ms.lookup "runtime_crate" with
    | some v => runtimeOf? v
    | none => some none
  return ⟨importPaths, runtime⟩

/-- Reads a configuration in an array, behind the opening bracket. -/
def readArray (cs : List Char) : Option (Configuration × List Char) :=
  match behindBlanks cs with
  | ']' :: rest => some (empty, rest)
  | rest => do
    let (v, rest) ← readValue rest
    let importPaths ← importPaths? v
    match behindBlanks rest with
    | ']' :: rest => return (⟨importPaths, none⟩, rest)
    | ',' :: rest =>
      let (w, rest) ← readValue rest
      let runtime ← runtimeOf? w
      let ']' :: rest := behindBlanks rest | none
      return (⟨importPaths, runtime⟩, rest)
    | _ => none

/-- Reads a configuration. -/
def readFile (cs : List Char) : Option (Configuration × List Char) :=
  match behindBlanks cs with
  | '[' :: rest => readArray rest
  | '\x7b' :: rest =>
    match behindBlanks rest with
    | '\x7d' :: rest => some (empty, rest)
    | rest => do
      let (ms, rest) ← readMembers (rest.length + 1) rest
      return (← ofMembers? ms, rest)
  | _ => none

/-- The configuration of a text. -/
def ofText? (s : String) : Option Configuration :=
  match readFile s.toList with
  | some (c, rest) => if behindBlanks rest = [] then some c else none
  | none => none

/-- Whether a byte is a blank of ASCII. -/
def isBlankByte (b : UInt8) : Bool := b == 9 || b == 10 || b == 12 || b == 13 || b == 32

/-- The configuration of the content of a file. Blanks alone say nothing. -/
def ofContent? (content : ByteArray) : Option Configuration :=
  if content.data.all isBlankByte then some empty else (String.fromUTF8? content).bind ofText?

/-- The import roots of a configuration. They start from the directory of its file. -/
def roots (c : Configuration) (directory : Path) : List Path :=
  c.importPaths.map fun p => directory.join (.ofText p)

end Configuration

end Backwire.Command
