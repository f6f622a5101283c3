import Backwire.Bindings.Enum
import Backwire.Bindings.Message
import Backwire.Bindings.Service
import Backwire.Bindings.Struct

/-!
# Bindings of a package

A package becomes a file of bindings for each of its schema files, and a file that gathers them.
The types of other packages are referred to by the paths of their modules: the path that the
option `rust_module` gives, or else one made from the ID of the package.
-/

namespace Backwire.Bindings

open Code Package Schema

/-- The option of a file that gives the path of the module of its package. -/
def moduleOption : String := "rust_module"

/-- How bindings are to be written. -/
structure Settings where
  /-- The path of the library that reads and writes values. -/
  runtime : String
  /-- Whether a file begins with a line that says where it comes from. -/
  hasHeader : Bool
  deriving DecidableEq, Repr

/-- The library, if nothing else is said. -/
def defaultRuntime : String := "::tailspec_wire"

/-- Why bindings cannot be written. -/
inductive GenerateError where
  /-- The path of the library is no path. -/
  | invalidRuntime (path : String) (fault : Grammar.Fault)
  /-- The path that a package gives for its module is no path. -/
  | invalidModule (package path : String) (fault : Grammar.Fault)
  /-- Two files of a package have one module. -/
  | sameModule (package first second : String) (module : Identifier)
  /-- A path stands in the code of a file where it cannot stand: in a type, or else in a value. -/
  | misplacedPath (origin : String) (inType : Bool)
  deriving DecidableEq, Repr

/-- The report of an error. -/
def GenerateError.message : GenerateError → String
  | invalidRuntime path _ => "invalid runtime crate path " ++ Text.shownString path
  | invalidModule package path _ =>
    "package " ++ package ++ ": invalid Rust module path " ++ Text.shownString path
  | sameModule package first second module =>
    "package " ++ package ++ ": " ++ first ++ " and " ++ second ++ " both generate module "
      ++ module.text
  | misplacedPath origin _ => origin ++ ": generated code does not parse"

/-- The report of what is behind an error, if something is. -/
def GenerateError.cause? : GenerateError → Option String
  | invalidRuntime _ fault | invalidModule _ _ fault => some fault.message
  | misplacedPath _ true => some (Grammar.Fault.expected Grammar.typeStarts false).message
  | misplacedPath _ false => some "comparison operators cannot be chained"
  | sameModule .. => none

/-- The path of the module of a package that gives none. -/
def defaultModulePath (id : String) : ModulePath :=
  .ofNames (.plain "crate" :: (Text.segments '/' id).map moduleName)

/-- The path of the module of a package. -/
def modulePath (read : PathReader) (p : Compiled) : Except GenerateError ModulePath :=
  match p.option? moduleOption with
  | none => .ok (defaultModulePath p.id)
  | some text =>
    (read text).mapError (.invalidModule p.id text)

/-- The attribute that begins every file. -/
def fileAttribute : Item :=
  .fileAttribute (["#", "!"] ++ brackets ("allow" :: parens (commas [
    ["dead_code"], ["missing_docs"], ["unused_imports"], ["non_camel_case_types"],
    ["non_upper_case_globals"], ["clippy", "::", "all"], ["clippy", "::", "pedantic"],
    ["clippy", "::", "nursery"]])))

/-- The comment that says where a file comes from. -/
def headerOf (settings : Settings) (origin : String) : Option String :=
  if settings.hasHeader then
    some ("// Code generated by tailspec from " ++ origin ++ ". DO NOT EDIT.")
  else none

/-- The bindings of a definition. -/
def Scope.definitionItems (s : Scope) (d : Declared TypeUse) : List Item :=
  match d.body with
  | .enum values => s.enumItems d.name values
  | .struct fields => s.structItems d.name fields
  | .message fields => s.messageItems d.name fields
  | .service methods => serviceItems d.name methods

/-- The items of the file of bindings for a schema file. -/
def Scope.fileItems (s : Scope) (p : Compiled) : List Item :=
  fileAttribute :: (p.definitionsOf s.file).flatMap fun d => s.definitionItems d.1

/-! ### Where paths stand

The path of the library stands in types and in values, wherever there is a definition of values.
The path of another package stands in types, and in values where a message has one of its messages
as a field. -/

/-- The paths of the types of other packages that a type refers to. -/
def Scope.foreignPaths (s : Scope) : TypeUse → List ModulePath
  | .named _ ⟨_, d, _⟩ =>
    if d.package ≠ s.package then s.modules[d.package]?.toList else []
  | .builtin _ => []

/-- The paths that stand in types in the bindings of a definition. -/
def Scope.typePaths (s : Scope) : Body TypeUse UInt16 → List ModulePath
  | .enum _ => [s.runtime]
  | .struct fields => s.runtime :: fields.flatMap fun f => s.foreignPaths f.type.leaf
  | .message fields => s.runtime :: fields.flatMap fun f => s.foreignPaths f.type.leaf
  | .service _ => []

/-- The paths that stand in values in the bindings of a definition. -/
def Scope.valuePaths (s : Scope) : Body TypeUse UInt16 → List ModulePath
  | .enum _ | .struct _ => [s.runtime]
  | .message fields => s.runtime :: fields.flatMap fun f =>
    match f.type with
    | ⟨0, .named text ⟨.message, d, link⟩⟩ => s.foreignPaths (.named text ⟨.message, d, link⟩)
    | _ => []
  | .service _ => []

/-! ### Files -/

/-- The names of the files that bindings are written to. -/
def sourceName (module : Identifier) : String := module.name ++ ".rs"

/-- The name of the file that gathers the modules of a package. -/
def gatheringName : String := "mod.rs"

/-- The file of bindings for the schema file of a name, in the place `s`. -/
def Scope.sourceFile (s : Scope) (settings : Settings) (p : Compiled) (name : String)
    (module : Identifier) : Except GenerateError SourceFile :=
  let origin := p.id ++ "/" ++ name
  let bodies := (p.definitionsOf s.file).map fun d => d.1.body
  if ¬ (bodies.flatMap s.typePaths).all ModulePath.isInTypes then
    .error (.misplacedPath origin true)
  else if ¬ (bodies.flatMap s.valuePaths).all ModulePath.isInValues then
    .error (.misplacedPath origin false)
  else .ok ⟨sourceName module, headerOf settings origin, s.fileItems p⟩

/-- The files of bindings for schema files, each with its module; `file` makes one of them. No two
may have one module. -/
def sourceFiles (id : String)
    (file : Nat → String → Identifier → Except GenerateError SourceFile) :
    List (Identifier × String) → List (Package.File Nat × Nat) →
    Except GenerateError (List (Identifier × SourceFile))
  | _, [] => .ok []
  | taken, (f, i) :: fs =>
    let module := moduleName f.stem
    match taken.lookup module with
    | some other => .error (.sameModule id other f.name module)
    | none => do
      let made ← file i f.name module
      return (module, made) :: (← sourceFiles id file ((module, f.name) :: taken) fs)

/-- The items of the file that gathers modules. -/
def gatheringItems (modules : List Identifier) : List Item :=
  fileAttribute :: modules.flatMap fun m => [.moduleFile m, .reexport m]

/-- The files of bindings for the package `p`, which stands in a session under a number. The paths
that are given as texts are read by `read`. -/
def generate (read : PathReader) (settings : Settings) (session : Session) (number : Nat)
    (p : Compiled) : Except GenerateError (List SourceFile) := do
  let runtime ← (read settings.runtime).mapError (.invalidRuntime settings.runtime)
  let paths ← session.packages.mapM fun (q, _) => modulePath read q
  let files ← sourceFiles p.id (fun i name module =>
    Scope.sourceFile ⟨session, number, i, runtime, paths⟩ settings p name module) [] p.files.zipIdx
  return files.map Prod.snd
    ++ [⟨gatheringName, headerOf settings p.id, gatheringItems (files.map Prod.fst)⟩]

end Backwire.Bindings
