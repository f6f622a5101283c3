import Backwire.Package.Error
import Backwire.Package.Session

/-!
# Resolving names

A package whose imports have led to packages still names its types. An unqualified name is looked
up among the definitions of the package itself, in whichever file, and a qualified one among the
definitions of the package that the import of that local name in the same file has led to. A
service is not a type.
-/

namespace Backwire.Package

open Schema

/-- A package whose imports have led to packages and whose types are still names. -/
abbrev Linked := PackageOf Nat TypeName

namespace PackageOf

variable {κ τ : Type}

/-- The type of a name: the number of its definition and its kind. -/
def typeIn? (p : PackageOf κ τ) (name : String) : Option (Nat × Kind) := do
  let i ← p.indexOf? name
  let d ← p.definitions[i]?
  return (i, ← d.kind?)

/-- The place of a definition. -/
def locate (p : PackageOf κ τ) (d : Declared τ) : Location :=
  (Location.ofFile p.id ((p.files[d.file]?.map File.name).getD "")).definition d.name

end PackageOf

/-- The local name of an import in a file: the number of the import and what it has led to. -/
def linkIn? (links : List (Link Nat)) (name : String) : Option (Nat × Nat) := do
  let i ← links.findIdx? fun l => l.name == name
  let l ← links[i]?
  return (i, l.package)

/-- Resolves a name that the file `file` of the package `p`, which has the number `number`, uses
at `location`. -/
def resolveName (s : Session) (number : Nat) (p : Linked) (file : Nat) (location : Location)
    (r : Reference) : Except CompileError Target :=
  match r.qualifier with
  | none =>
    match p.typeIn? r.name with
    | some (i, kind) => .ok ⟨kind, ⟨number, i⟩, none⟩
    | none => .error (.notFound location (.type r))
  | some q =>
    match linkIn? ((p.files[file]?.map File.imports).getD []) q with
    | none => .error (.notFound location (.localName q))
    | some (link, package) =>
      match (s.package? package).bind (·.typeIn? r.name) with
      | some (i, kind) => .ok ⟨kind, ⟨package, i⟩, some link⟩
      | none => .error (.notFound location (.type r))

/-- Resolves the leaf of a type. -/
def resolveLeaf (s : Session) (number : Nat) (p : Linked) (file : Nat) (location : Location) :
    TypeName → Except CompileError TypeUse
  | .builtin b => .ok (.builtin b)
  | .named r => do return .named r (← resolveName s number p file location r)

/-- Replaces the leaf of a type. -/
def mapLeaf {ε σ τ : Type} (f : τ → Except ε σ) (t : Listed τ) : Except ε (Listed σ) := do
  return ⟨t.depth, ← f t.leaf⟩

/-- Replaces the leaf of the type of a parameter; `f` is told the member it belongs to. -/
def mapParameter {ε σ τ : Type} (f : String → τ → Except ε σ) (member : String → String)
    (p : Parameter τ) : Except ε (Parameter σ) := do
  return ⟨p.name, ← mapLeaf (f (member p.name)) p.type⟩

/-- Replaces the leaves of all types of a body in the order of the source; `f` is told the member
each belongs to. A parameter is a member of its method. -/
def mapBody {ε ι σ τ : Type} (f : String → τ → Except ε σ) : Body τ ι → Except ε (Body σ ι)
  | .enum values => .ok (.enum values)
  | .message fields => do
    return .message (← fields.mapM fun d => do return ⟨d.name, ← mapLeaf (f d.name) d.type, d.tag⟩)
  | .struct fields => do return .struct (← fields.mapM (mapParameter f id))
  | .service methods => do
    return .service (← methods.mapM fun m => do
      let member := fun name => m.name ++ "." ++ name
      return ⟨m.name, ← m.args.mapM (mapParameter f member),
        ← m.results.mapM (mapParameter f member)⟩)

/-- Resolves every type of a package that has the number `number`. -/
def resolveTypes (s : Session) (number : Nat) (p : Linked) : Except CompileError Compiled := do
  let definitions ← p.definitions.mapM fun d => do
    let place := p.locate d
    return ⟨d.name, d.file,
      ← mapBody (fun member => resolveLeaf s number p d.file (place.member member)) d.body⟩
  return ⟨p.id, p.directory, p.files, definitions⟩

end Backwire.Package
