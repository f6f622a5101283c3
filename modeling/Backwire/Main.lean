import Backwire.Command.Program

/-!
# The command line

What the program has to know of the file system is read into a file tree before a run, and what
the run has changed in the tree is done to the file system after it. Read are the places that the
arguments name with what stands in them, and the packages that are imported by what has been
read, as long as there are more of them.
-/

namespace Backwire.Command

open Package

/-- What stands at a path, if anything does. -/
def nodeAt? (p : Path) : IO (Option Node) := do
  let place := (← IO.currentDir) / p.text
  if ← place.isDir then return some .directory
  else if ← place.pathExists then return some (.file (← IO.FS.readBinFile place))
  else return none

/-- The tree with what stands at a path and at those above it. -/
def readAlong (t : FileTree) (p : Path) : IO FileTree :=
  (List.range p.steps.length).foldlM (fun t n => do
    let q : Path := ⟨true, p.steps.take (n + 1)⟩
    if (t.node? q).isSome then return t
    match ← nodeAt? q with
    | some node => return t.put q node
    | none => return t) t

/-- The tree with what stands at a path and, in a directory, with the entries of wanted names. -/
def readPlace (wanted : String → Bool) (t : FileTree) (p : Path) : IO FileTree := do
  let t ← readAlong t p
  if t.isDirectory p then
    let entries ← ((← IO.currentDir) / p.text).readDir
    (entries.toList.filter fun e => wanted e.fileName).foldlM
      (fun t e => readAlong t (p.child e.fileName)) t
  else return t

/-- The tree with the packages that its schema files import, found under import roots. -/
partial def readImports (roots : List Path) (t : FileTree) : IO FileTree := do
  let places := (importIds t).flatMap fun id => roots.map fun root => (root.join (.ofText id)).clean
  let t' ← places.foldlM (readPlace isSchemaName) t
  if t'.entries.length = t.entries.length then return t else readImports roots t'

/-- The file system, as far as a run with these arguments has to know it. -/
def readWorld (args : List String) : IO World := do
  let here := (Path.ofText (← IO.currentDir).toString).clean
  let w : World := ⟨⟨[]⟩, here, ← IO.getEnv "TAILSPEC_PATH"⟩
  match readCommand .none args with
  | .error _ => return w
  | .ok (_, a) =>
    let place (given : String) : Path := (w.path given).clean
    let t ← readAlong w.tree here
    let t ← ((defaultConfiguration :: a.values .config).map place).foldlM readAlong t
    let t ← ((a.operands.take 1).map place).foldlM (readPlace isSchemaName) t
    let t ← ((a.operands.drop 1).map place).foldlM (readPlace fun _ => true) t
    match loadConfiguration { w with tree := t } (a.values .config).head? with
    | .error _ => return { w with tree := t }
    | .ok (_, configured) =>
      let around : Surroundings := ⟨t, here, importRoots w configured a⟩
      return { w with tree := ← readImports around.roots t }

/-- Does to the file system what turns one tree into another. -/
def writeChanges (before after : FileTree) : IO Unit := do
  let here ← IO.currentDir
  for (p, node) in after.entries.reverse do
    if before.node? p ≠ some node then
      match node with
      | .directory => IO.FS.createDir (here / p.text)
      | .file content => IO.FS.writeBinFile (here / p.text) content
  for (p, _) in before.entries do
    if (after.node? p).isNone then IO.FS.removeFile (here / p.text)

/-- Runs the program in the file system and yields its exit code. -/
def runHere (args : List String) : IO UInt32 := do
  let w ← readWorld args
  let o := run w args
  try
    writeChanges w.tree o.tree
    IO.print o.output
    IO.eprint o.report
    return o.code.toUInt32
  catch e =>
    IO.eprintln ("error: " ++ toString e)
    return 1

end Backwire.Command

/-- The program. -/
def main (args : List String) : IO UInt32 := Backwire.Command.runHere args
