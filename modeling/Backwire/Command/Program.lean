import Backwire.Bindings.Generate
import Backwire.Command.Arguments
import Backwire.Command.Configuration
import Backwire.Command.Disk
import Backwire.Package.Compile
import Backwire.Schema.Layout

/-!
# The program

The program compiles a package and writes its bindings, checks a package, or prints a schema file
in its canonical layout. It works on a file tree and leaves a file tree behind, also when it
fails. Bindings are written only after all of them have been generated: first to new files, which
are then moved to their places. A file that cannot be moved to its place takes the files that were
put in theirs before it away again.
-/

namespace Backwire.Command

open Package

/-- Where the program runs. -/
structure World where
  tree : FileTree
  workingDirectory : Path
  /-- Further import roots, with colons between them. -/
  searchPath? : Option String

/-- Why the program fails. -/
inductive Failure where
  /-- A package is not a directory. -/
  | notDirectory (path : String)
  /-- The configuration file that is asked for does not exist. -/
  | noConfiguration (path : String)
  | unreadableConfiguration (path : String) (fault : FileFault)
  /-- A configuration file is no configuration. -/
  | malformedConfiguration (path : String)
  | compile (error : CompileError)
  | generate (error : Bindings.GenerateError)
  | malformed (file : String) (error : Schema.SyntaxError)
  | read (path : String) (fault : FileFault)
  | create (path : String) (fault : FileFault)
  | write (path : String) (fault : FileFault)
  deriving DecidableEq, Repr

/-- The report of a failure. What kept a file from being read is named with the file, and once
more as the cause of what failed. -/
def Failure.message : Failure → String
  | notDirectory path => path ++ ": not a directory"
  | noConfiguration path => "config file " ++ path ++ " not found"
  | unreadableConfiguration path fault =>
    "load config " ++ path ++ ": " ++ path ++ ": " ++ fault.message ++ ": " ++ fault.message
  | malformedConfiguration path => "load config " ++ path ++ ": tailspec: not a configuration"
  | compile error =>
    match error with
    | .unreadable _ fault => error.message ++ ": " ++ fault.message
    | _ => error.message
  | generate error =>
    match error.cause? with
    | some cause => error.message ++ ": " ++ cause
    | none => error.message
  | malformed file error => error.message file
  | read path fault => "read " ++ path ++ ": " ++ fault.message
  | create path fault => "create " ++ path ++ ": " ++ fault.message
  | write path fault => "write " ++ path ++ ": " ++ fault.message

/-- A part of a run of the program. What has been done to the tree stays when it fails. -/
abbrev Action := EStateM Failure FileTree

/-- Fails if what is given is an error. -/
def Action.require {ε α : Type} (failure : ε → Failure) (r : Except ε α) : Action α :=
  match r with
  | .ok a => pure a
  | .error e => throw (failure e)

/-- The path from the root of a path that is given. -/
def World.path (w : World) (given : String) : Path := w.workingDirectory.join (.ofText given)

/-! ### Configuration -/

/-- The configuration file that is read if none is asked for. -/
def defaultConfiguration : String := "./tailspec.json"

/-- The configuration, with its import roots. -/
def loadConfiguration (w : World) (given : Option String) :
    Except Failure (Configuration × List Path) := do
  let path := given.getD defaultConfiguration
  let content := w.tree.readFile w.workingDirectory (.ofText path)
  match content, given with
  | .ok bytes, _ =>
    match Configuration.ofContent? bytes with
    | some c => return (c, c.roots (Path.ofText path).parent)
    | none => throw (.malformedConfiguration path)
  | .error _, some _ => throw (.noConfiguration path)
  | .error .notFound, none => return (.empty, [])
  | .error fault, none => throw (.unreadableConfiguration path fault)

/-- The import roots of an environment variable. -/
def searchRoots (searchPath : Option String) : List Path :=
  match searchPath with
  | some s => ((Text.segments ':' s).filter (· ≠ "")).map Path.ofText
  | none => []

/-- The import roots: those of the configuration, of the arguments and of the environment. -/
def importRoots (w : World) (configured : List Path) (a : Arguments) : List Path :=
  configured ++ (a.values .importPath).map Path.ofText ++ searchRoots w.searchPath?

/-! ### Packages -/

/-- Compiles the package in a directory: the session and the number of the package in it. -/
def compilePackage (w : World) (roots : List Path) (input : String) :
    Except Failure (Nat × Session) := do
  match w.tree.resolve w.workingDirectory (.ofText input) with
  | .ok p => if ¬ w.tree.isDirectory p then throw (.notDirectory input)
  | .error _ => throw (.notDirectory input)
  (Session.empty.compile ⟨w.tree, w.workingDirectory, roots⟩ (.ofText input)).mapError .compile

/-- The package of a number. -/
def finished (session : Session) (number : Nat) : Compiled :=
  (session.package? number).getD ⟨"", .root, [], []⟩

/-- Checks a package, and yields what is printed. -/
def check (w : World) (a : Arguments) (input : String) : Except Failure String := do
  let (_, configured) ← loadConfiguration w (a.values .config).head?
  let (number, session) ← compilePackage w (importRoots w configured a) input
  let p := finished session number
  return p.id ++ ": " ++ toString p.files.length ++ " files, " ++ toString p.definitions.length
    ++ " definitions\n"

/-- Generates the bindings of a package. -/
def generate (w : World) (a : Arguments) (input : String) :
    Except Failure (List Bindings.SourceFile) := do
  let (configuration, configured) ← loadConfiguration w (a.values .config).head?
  let (number, session) ← compilePackage w (importRoots w configured a) input
  let runtime := ((a.values .runtime).head?.or configuration.runtime?).getD Bindings.defaultRuntime
  (Bindings.generate Bindings.ModulePath.ofText ⟨runtime, ¬ a.has .noHeader⟩ session number
    (finished session number)).mapError .generate

/-! ### Writing -/

/-- Whether a path leads to a directory. -/
def leadsToDirectory (w : World) (t : FileTree) (p : Path) : Bool :=
  match t.resolve w.workingDirectory p with
  | .ok q => t.isDirectory q
  | .error _ => false

/-- Makes one directory, unless it is there. -/
def makeDirectory (w : World) (report : FileFault → Failure) (p : Path) : Action Unit := do
  let t ← get
  match t.makeDirectory w.workingDirectory p with
  | .ok t' => set t'
  | .error fault => if ¬ leadsToDirectory w t p then throw (report fault)

/-- Makes the directory of a path and those that it stands in, from the first that is not there
on. The steps of the path are given backwards. -/
def makeDirectories (w : World) (report : FileFault → Failure) (isAbsolute : Bool) :
    List Step → Action Unit
  | [] => pure ()
  | s :: above => do
    let p : Path := ⟨isAbsolute, (s :: above).reverse⟩
    if (← get).makeDirectory w.workingDirectory p matches .error .notFound then
      makeDirectories w report isAbsolute above
    makeDirectory w report p

/-- Makes the directory that bindings are written to. The directories above it are those of the
path without the steps that stay in place. -/
def makeOutput (w : World) (output : String) : Action Unit := do
  let trimmed := String.ofList (output.toList.reverse.dropWhile (· == '/')).reverse
  let path := Path.ofText (if trimmed = "" then output else trimmed)
  let report := Failure.create output
  if (← get).makeDirectory w.workingDirectory path matches .error .notFound then
    makeDirectories w report path.isAbsolute (path.steps.filter (· ≠ .here)).dropLast.reverse
  makeDirectory w report path

/-- A path of a file in a directory, as it is named in reports. -/
def inside (directory file : String) : String :=
  if directory.toList.getLast? = some '/' then directory ++ file else directory ++ "/" ++ file

/-- Fails, and takes files away before. -/
def abandon {α : Type} (files : List Path) (failure : Failure) : Action α := do
  modify fun t => files.foldl FileTree.removeFile t
  throw failure

/-- Fills new files in a directory, one for each of the given files, behind those that have been
filled. If one cannot be made or filled, all of them are taken away. -/
def stageFiles (disk : Disk) (report : String → FileFault → Failure) (directory : Path) :
    List Path → List Bindings.SourceFile → Action (List Path)
  | staged, [] => return staged
  | staged, f :: fs => do
    let t ← get
    let new := directory.child (disk.newName t directory)
    match disk.fault? t (.make new) with
    | some fault => abandon staged (report f.name fault)
    | none =>
      let t := t.put new (.file .empty)
      set t
      match disk.fault? t (.fill new f.text.toUTF8) with
      | some fault => abandon (staged ++ [new]) (report f.name fault)
      | none =>
        set (t.put new (.file f.text.toUTF8))
        stageFiles disk report directory (staged ++ [new]) fs

/-- Why a new file cannot be moved to the place of a name in its directory, if it cannot. -/
def moveFault? (disk : Disk) (t : FileTree) (directory new : Path) (name : String) :
    Option FileFault :=
  if nameLimit < name.utf8ByteSize then some .nameTooLong
  else if t.isDirectory (directory.child name) then some .isDirectory
  else if ¬ t.isFile new then some .notFound
  else disk.fault? t (.move new (directory.child name))

/-- Moves new files to their places in a directory, behind those that have been put in theirs. If
one cannot be moved, the files that have been put in their places are taken away, and so are the
new files that are left. -/
def placeFiles (disk : Disk) (report : String → FileFault → Failure) (directory : Path) :
    List Path → List (Path × Bindings.SourceFile) → Action Unit
  | _, [] => pure ()
  | placed, (new, f) :: rest => do
    let t ← get
    match moveFault? disk t directory new f.name with
    | some fault => abandon (placed ++ new :: rest.map Prod.fst) (report f.name fault)
    | none =>
      set (t.moveFile new (directory.child f.name))
      placeFiles disk report directory (placed ++ [directory.child f.name]) rest

/-- Writes files to a directory, which is made if it is not there. The first of them is put in its
place when all of them have been filled under other names. -/
def writeFiles (w : World) (disk : Disk) (output : String) (files : List Bindings.SourceFile) :
    Action Unit := do
  makeOutput w output
  let directory ← Action.require (.create output)
    ((← get).resolve w.workingDirectory (.ofText output))
  let report (name : String) : FileFault → Failure := .write (inside output name)
  let staged ← stageFiles disk report directory [] files
  placeFiles disk report directory [] (staged.zip files)

/-! ### Formatting -/

/-- Prints a schema file in its canonical layout, or writes the layout to the file if it differs
from what stands there. -/
def format (w : World) (a : Arguments) (file : String) : Action String := do
  let source ← Action.require (.read file) (w.tree.readText w.workingDirectory (.ofText file))
  let text ← Action.require (.malformed file) (Schema.format source)
  if a.has .write then
    if text ≠ source then
      let place ← Action.require (.write file) (w.tree.resolve w.workingDirectory (.ofText file))
      modify fun t => t.put place (.file text.toUTF8)
    return ""
  else
    return text

/-! ### Runs -/

/-- What a run of the program leaves behind. -/
structure Outcome where
  code : Nat
  output : String
  report : String
  tree : FileTree

/-- How the program is used. -/
def usage : String :=
  "Usage: tailspec [-v] <COMMAND>\n\nCommands:\n"
    ++ "  compile [-i <DIR>] [--config <FILE>] [--runtime-crate <PATH>] [--no-header] "
    ++ "<INPUT> <OUTPUT>\n"
    ++ "  check [-i <DIR>] [--config <FILE>] <INPUT>\n"
    ++ "  fmt [-w] <FILE>\n"

/-- The version of the program. -/
def versionText : String := "tailspec 0.1.0\n"

/-- What a verb does, and what it prints. -/
def perform (w : World) (a : Arguments) : Verb → List String → Action String
  | .compile, [input, output] => do
    writeFiles w .reliable output (← Action.require id (generate w a input))
    return ""
  | .check, [input] => Action.require id (check w a input)
  | .format, [file] => format w a file
  | _, _ => return ""

/-- Runs the program. -/
def run (w : World) (args : List String) : Outcome :=
  match readCommand .none args with
  | .error .help => ⟨0, usage, "", w.tree⟩
  | .error .version => ⟨0, versionText, "", w.tree⟩
  | .error .misuse => ⟨2, "", usage, w.tree⟩
  | .ok (verb, a) =>
    match perform w a verb a.operands w.tree with
    | .ok output t => ⟨0, output, "", t⟩
    | .error e t => ⟨1, "", "error: " ++ e.message ++ "\n", t⟩

end Backwire.Command
