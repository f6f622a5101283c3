import Backwire.Package.Error
import Backwire.Schema.Parser

/-!
# Drafts of packages

The draft of a package is made from the schema files of its directory alone. Names that have to
differ in one file or in the package, and the range of tags, are checked here, file by file and
in the order of the source.
-/

namespace Backwire.Package

open Schema

/-- The first item whose key is one of `seen` or that of an earlier item. -/
def firstRepeat? {α κ : Type} [DecidableEq κ] (key : α → κ) : List κ → List α → Option α
  | _, [] => none
  | seen, a :: as => if key a ∈ seen then some a else firstRepeat? key (key a :: seen) as

/-- Refuses items of which two have one name, at the member of that name. -/
def requireDistinct {α : Type} (location : Location) (name : α → String) (items : List α) :
    Except CompileError Unit :=
  match firstRepeat? name [] items with
  | some a => .error (.duplicateName (location.member (name a)) (name a))
  | none => .ok ()

/-! ### The files of a directory -/

/-- A schema file as it was read. -/
structure Source where
  name : String
  path : Path
  text : String

/-- Whether a file of a name is a schema file: the name goes on before its ending. -/
def isSchemaName (name : String) : Bool :=
  extension.toList.isSuffixOf name.toList && extension.length < name.length

/-- Reads the schema files of a directory in the order of their names. -/
def readSources (t : FileTree) (directory : Path) : Except CompileError (List Source) := do
  let names ← (t.readDirectory .root directory).mapError (.unreadable directory)
  let wanted := names.filter fun n => isSchemaName n && t.isFile (directory.child n)
  (wanted.mergeSort fun a b => !decide (b < a)).mapM fun n => do
    let path := directory.child n
    let text ← (t.readText .root path).mapError (.unreadable path)
    return ⟨n, path, text⟩

/-! ### Drafting -/

/-- The ID of the package that an import path asks for: its segments, without empty ones and
those that stay in place. -/
def importId (path : String) : String :=
  Text.joined '/' ((Text.segments '/' path).filter fun s => s ≠ "" ∧ s ≠ ".")

/-- The link of an import. Without a name of its own it goes by the last segment of the ID. -/
def draftLink (i : Import) : Link Unit :=
  let id := importId i.path
  ⟨id, i.alias?.getD (lastSegment id), ()⟩

/-- The tag of a field: from 1 to 65535. -/
def tagOf? (tag : Int64) : Option UInt16 :=
  if 1 ≤ tag.toInt ∧ tag.toInt ≤ 65535 then some tag.toInt.toNat.toUInt16 else none

/-- The draft of a field of a message. -/
def draftField (location : Location) (f : Field TypeName Int64) :
    Except CompileError (Field TypeName UInt16) :=
  match tagOf? f.tag with
  | some tag => .ok ⟨f.name, f.type, tag⟩
  | none => .error (.invalidTag (location.member f.name) f.tag)

/-- The draft of the body of a definition. -/
def draftBody (location : Location) :
    Body TypeName Int64 → Except CompileError (Body TypeName UInt16)
  | .enum values => .ok (.enum values)
  | .message fields => do return .message (← fields.mapM (draftField location))
  | .struct fields => .ok (.struct fields)
  | .service methods => .ok (.service methods)

/-- The drafts of the definitions of a file, when `taken` names are declared already. -/
def draftDefinitions (location : Location) (file : Nat) :
    List String → List Definition → Except CompileError (List (Declared TypeName))
  | _, [] => .ok []
  | taken, d :: ds => do
    if d.name ∈ taken then throw (.duplicateName location d.name)
    let body ← draftBody (location.definition d.name) d.body
    let rest ← draftDefinitions location file (d.name :: taken) ds
    return ⟨d.name, file, body⟩ :: rest

/-- The draft of a file: its links and options, without its definitions. -/
def draftFile (location : Location) (source : Source) (schema : SchemaFile) :
    Except CompileError (File Unit) := do
  let links := schema.imports.map draftLink
  requireDistinct location Link.name links
  requireDistinct location Setting.name schema.options
  return ⟨source.name, source.path, links, schema.options⟩

/-- The drafts of files from number `file` on, when `taken` names are declared already. -/
def draftFiles (package : String) : Nat → List String → List (Source × SchemaFile) →
    Except CompileError (List (File Unit) × List (Declared TypeName))
  | _, _, [] => .ok ([], [])
  | file, taken, (source, schema) :: rest => do
    let location := Location.ofFile package source.name
    let f ← draftFile location source schema
    let ds ← draftDefinitions location file taken schema.definitions
    let (fs, es) ← draftFiles package (file + 1) (ds.map Declared.name ++ taken) rest
    return (f :: fs, ds ++ es)

/-- The draft of the package in a directory. -/
def draft (t : FileTree) (directory : Path) (id : String) : Except CompileError Draft := do
  let sources ← readSources t directory
  if sources.isEmpty then throw (.emptyPackage id directory)
  let parsed ← sources.mapM fun s => do
    return (s, ← (parse s.text).mapError (.malformed s.path))
  let (files, definitions) ← draftFiles id 0 [] parsed
  return ⟨id, directory, files, definitions⟩

/-- The IDs of the packages that the schema files of a tree import. -/
def importIds (t : FileTree) : List String :=
  t.entries.flatMap fun (path, _) =>
    match t.readText .root path with
    | .error _ => []
    | .ok text =>
      match parse text with
      | .error _ => []
      | .ok schema => schema.imports.map fun i => importId i.path

end Backwire.Package
