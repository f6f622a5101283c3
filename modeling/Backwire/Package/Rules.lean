import Backwire.Package.Draft
import Backwire.Package.Search
import Backwire.Package.Session
import Backwire.Package.Resolve

/-!
# Rules of definitions

What a definition of a resolved package has to keep to, beyond the names and tags that a draft
is checked for: names differ in a definition, tags and numbers differ, an enum has a value of
number zero, and a struct holds only values of a fixed size and does not contain itself.
-/

namespace Backwire.Package

open Schema

/-- The struct that a type is, if it is one. -/
def structOf? (t : Listed TypeUse) : Option DefinitionId :=
  match t with
  | ⟨0, .named _ ⟨.struct, d, _⟩⟩ => some d
  | _ => none

/-- The structs that the fields of a struct hold. Other definitions hold none. -/
def Session.heldStructs (s : Session) (d : DefinitionId) : List DefinitionId :=
  match s.definition? d with
  | some ⟨_, _, .struct fields⟩ => fields.filterMap fun f => structOf? f.type
  | _ => []

/-- Whether the struct `start` is `wanted` or holds it, directly or in structs that it holds. -/
def Session.structReaches (s : Session) (start wanted : DefinitionId) : Bool :=
  reachesFrom s.heldStructs wanted s.definitionIds [start]

/-- Checks the values of an enum. -/
def checkEnum (location : Location) (values : List EnumValue) : Except CompileError Unit := do
  requireDistinct location EnumValue.name values
  match firstRepeat? EnumValue.number [] values with
  | some v => throw (.duplicateTag (location.member v.name) v.number.toInt)
  | none => if values.any fun v => v.number == 0 then return else throw (.missingZero location)

/-- Checks the fields of a message. -/
def checkMessage (location : Location) (fields : List (Field TypeUse UInt16)) :
    Except CompileError Unit := do
  requireDistinct location Field.name fields
  match firstRepeat? Field.tag [] fields with
  | some f => throw (.duplicateTag (location.member f.name) f.tag.toNat)
  | none => return

/-- What is wrong with a type of a field of the struct `self`, whose name is `name`. -/
def structFault? (s : Session) (self : DefinitionId) (name : String) :
    Listed TypeUse → Option StructFault
  | ⟨0, .builtin b⟩ => if b.isFixedSize then none else some (.variableSize b)
  | ⟨0, .named _ ⟨.struct, d, _⟩⟩ =>
    if s.structReaches d self then some (.containsItself name) else none
  | ⟨0, .named _ ⟨.enum, _, _⟩⟩ => some .enum
  | ⟨0, .named _ ⟨.message, _, _⟩⟩ => some .message
  | ⟨_ + 1, _⟩ => some .list

/-- Checks the fields of the struct `self`, whose name is `name`. -/
def checkStruct (s : Session) (self : DefinitionId) (name : String) (location : Location)
    (fields : List (Parameter TypeUse)) : Except CompileError Unit := do
  requireDistinct location Parameter.name fields
  fields.forM fun f =>
    match structFault? s self name f.type with
    | some fault => .error (.invalidStructField (location.member f.name) fault)
    | none => .ok ()

/-- Refuses parameters of a method of which two have one name. -/
def checkParameters (location : Location) (method : String) (ps : List (Parameter TypeUse)) :
    Except CompileError Unit :=
  match firstRepeat? Parameter.name [] ps with
  | some p => .error (.duplicateName (location.member (method ++ "." ++ p.name)) p.name)
  | none => .ok ()

/-- Checks the methods of a service. -/
def checkService (location : Location) (methods : List (Method TypeUse)) :
    Except CompileError Unit := do
  requireDistinct location Method.name methods
  methods.forM fun m => do
    checkParameters location m.name m.args
    checkParameters location m.name m.results

/-- Checks the definitions of a package, which stands in the session under the number `number`. -/
def checkRules (s : Session) (number : Nat) (p : Compiled) : Except CompileError Unit :=
  p.definitions.zipIdx.forM fun (d, i) =>
    let location := p.locate d
    match d.body with
    | .enum values => checkEnum location values
    | .message fields => checkMessage location fields
    | .struct fields => checkStruct s ⟨number, i⟩ d.name location fields
    | .service methods => checkService location methods

end Backwire.Package
