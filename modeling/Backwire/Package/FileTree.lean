import Backwire.Package.Path

/-!
# File trees

What is stored under the paths of a file system, as far as it is known: directories, and files
with their contents. Paths are looked up as they are, from the root and without steps back. A path
that is given is gone through step by step, from the root or from the directory it is given in;
names and paths that are too long lead nowhere.
-/

namespace Backwire.Package

/-- What stands at a path. -/
inductive Node where
  | directory
  | file (content : ByteArray)

/-- Files are the same if their bytes are. -/
instance : DecidableEq Node
  | .directory, .directory => isTrue rfl
  | .directory, .file _ => isFalse Node.noConfusion
  | .file _, .directory => isFalse Node.noConfusion
  | .file ⟨a⟩, .file ⟨b⟩ =>
    if h : a.toList = b.toList then isTrue (by rw [Array.toList_inj.1 h])
    else isFalse fun e => h (by cases e; rfl)

/-- A file tree. Of two entries with one path the first counts. -/
structure FileTree where
  entries : List (Path × Node)

/-- Why a path cannot be read or written. -/
inductive FileFault where
  /-- Nothing stands at the path. -/
  | notFound
  /-- A directory was asked for, or gone through, that is a file. -/
  | notDirectory
  /-- A file was asked for that is a directory. -/
  | isDirectory
  /-- The content of a file is not text. -/
  | notText
  /-- Something stands where a directory is to be made. -/
  | alreadyExists
  /-- A name or a path is longer than any can be. -/
  | nameTooLong
  /-- A path has a character of code zero, which no name has. -/
  | zeroInName
  deriving DecidableEq, Repr

/-- The report of a fault. -/
def FileFault.message : FileFault → String
  | notFound => "No such file or directory (os error 2)"
  | notDirectory => "Not a directory (os error 20)"
  | isDirectory => "Is a directory (os error 21)"
  | notText => "stream did not contain valid UTF-8"
  | alreadyExists => "File exists (os error 17)"
  | nameTooLong => "File name too long (os error 36)"
  | zeroInName => "file name contained an unexpected NUL byte"

/-- How long a name can be, in bytes of UTF-8. -/
def nameLimit : Nat := 255

/-- How long a path can be, in bytes of UTF-8. -/
def pathLimit : Nat := 4095

/-- Refuses a path that cannot be gone through for what its text is. -/
def Path.check (p : Path) : Except FileFault Unit :=
  if p.steps.any fun s => s.text.toList.contains '\x00' then .error .zeroInName
  else if pathLimit < p.text.utf8ByteSize then .error .nameTooLong
  else .ok ()

namespace FileTree

/-- What stands at a path. The root is always a directory. -/
def node? (t : FileTree) (p : Path) : Option Node :=
  if p = .root then some .directory else t.entries.lookup p

/-- Whether a directory stands at a path. -/
def isDirectory (t : FileTree) (p : Path) : Bool := t.node? p == some .directory

/-- Whether a file stands at a path. -/
def isFile (t : FileTree) (p : Path) : Bool :=
  match t.node? p with
  | some (.file _) => true
  | _ => false

/-- Finds what stands at the end of `steps` from the directory `p`, going through directories. -/
def resolveFrom (t : FileTree) : Path → List Step → Except FileFault Path
  | p, [] => .ok p
  | p, s :: steps =>
    match t.node? p with
    | some .directory =>
      match s with
      | .here => resolveFrom t p steps
      | .up => resolveFrom t p.parent steps
      | .name n =>
        if nameLimit < n.utf8ByteSize then .error .nameTooLong
        else if (t.node? (p.child n)).isSome then resolveFrom t (p.child n) steps
        else .error .notFound
    | some (.file _) => .error .notDirectory
    | none => .error .notFound

/-- Finds what stands at a path that is given in the directory `start`, by going through it step
by step from the root. -/
def resolve (t : FileTree) (start p : Path) : Except FileFault Path := do
  p.check
  t.resolveFrom .root (start.join p).steps

/-- The names of the entries of a directory. -/
def names (t : FileTree) (p : Path) : List String :=
  (t.entries.filterMap fun (q, _) => if q.parent = p then q.fileName? else none).eraseDups

/-- The content of a file. -/
def readFile (t : FileTree) (start p : Path) : Except FileFault ByteArray := do
  let q ← t.resolve start p
  match t.node? q with
  | some (.file content) => .ok content
  | some .directory => .error .isDirectory
  | none => .error .notFound

/-- The content of a text file. -/
def readText (t : FileTree) (start p : Path) : Except FileFault String := do
  let content ← t.readFile start p
  match String.fromUTF8? content with
  | some s => .ok s
  | none => .error .notText

/-- The names of the entries of a directory, if it is one. -/
def readDirectory (t : FileTree) (start p : Path) : Except FileFault (List String) := do
  let q ← t.resolve start p
  if t.isDirectory q then .ok (t.names q) else .error .notDirectory

/-- The tree in which a node stands at a path in place of what stood there. -/
def put (t : FileTree) (p : Path) (n : Node) : FileTree :=
  ⟨(p, n) :: t.entries.filter (·.1 ≠ p)⟩

/-- The tree without the file at a path. What is no file stays. -/
def removeFile (t : FileTree) (p : Path) : FileTree :=
  if t.isFile p then ⟨t.entries.filter (·.1 ≠ p)⟩ else t

/-- The tree in which the file at a path stands at another one, in place of what stood there. -/
def moveFile (t : FileTree) (p q : Path) : FileTree :=
  match t.node? p with
  | some (.file content) => (t.removeFile p).put q (.file content)
  | _ => t

/-- The tree with a new directory at a path that is given in the directory `start`. -/
def makeDirectory (t : FileTree) (start p : Path) : Except FileFault FileTree := do
  p.check
  let steps := (start.join p).steps
  let q ← t.resolveFrom .root steps.dropLast
  if t.isDirectory q then
    match steps.getLast? with
    | some (.name n) =>
      if nameLimit < n.utf8ByteSize then .error .nameTooLong
      else if (t.node? (q.child n)).isSome then .error .alreadyExists
      else .ok (t.put (q.child n) .directory)
    | _ => .error .alreadyExists
  else .error .notDirectory

/-- The tree without what stands at a path and below it. -/
def remove (t : FileTree) (p : Path) : FileTree :=
  ⟨t.entries.filter fun (q, _) => ¬ p.steps <+: q.steps⟩

end FileTree

end Backwire.Package
