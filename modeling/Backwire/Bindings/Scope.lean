import Backwire.Bindings.ModulePath
import Backwire.Package.Session

/-!
# Types in bindings

How the code of one file of a package refers to types: to its own by name, to those of the other
files of its package through the module that holds them all, and to those of other packages by
the path of the package.
-/

namespace Backwire.Bindings

open Code Package Schema

/-- The place of the code that is being written. -/
structure Scope where
  session : Session
  /-- The number of the package. -/
  package : Nat
  /-- The number of the file. -/
  file : Nat
  /-- The path of the library that reads and writes values. -/
  runtime : ModulePath
  /-- The path of the module of each package. -/
  modules : List ModulePath

namespace Scope

/-- A type of the library. -/
def rt (s : Scope) (name : String) : Code := s.runtime.typeCode ++ ["::", name]

/-- A function of the library: its name behind that of the type or the module it belongs to. -/
def call (s : Scope) (owner name : String) : Code :=
  s.runtime.valueCode ++ ["::", owner, "::", name]

/-- The path of an item of a name that stands in the file of a definition; `code` is the code of
the path of a package. -/
def pathTo (s : Scope) (code : ModulePath → Code) (d : DefinitionId) (file : Nat)
    (name : Identifier) : Code :=
  if d.package ≠ s.package then ((s.modules[d.package]?.map code).getD []) ++ ["::", name.text]
  else if file = s.file then [name.text]
  else ["super", "::", name.text]

/-- The path of the item of a definition whose name is that of the definition and `ending`. -/
def definitionCode (s : Scope) (code : ModulePath → Code) (d : DefinitionId) (ending : String) :
    Code :=
  match s.session.definition? d with
  | some def_ => s.pathTo code d def_.file (.ofName (def_.name ++ ending))
  | none => []

/-- The path of the type of a definition, or of another type that belongs to it. -/
def definitionPath (s : Scope) (d : DefinitionId) (ending : String) : Code :=
  s.definitionCode ModulePath.typeCode d ending

/-- What stands behind a value that begins with the path of an item of a definition and is the last
one of a block. -/
def definitionEnd (s : Scope) (d : DefinitionId) : Code :=
  if d.package ≠ s.package then ((s.modules[d.package]?.map ModulePath.valueEnd).getD []) else []

/-- The type of a builtin value, as it is read from a buffer of lifetime `'a`. -/
def builtinType (s : Scope) : Wire.Builtin → Code
  | .bool => ["bool"]
  | .byte => ["u8"]
  | .int16 => ["i16"]
  | .int32 => ["i32"]
  | .int64 => ["i64"]
  | .uint16 => ["u16"]
  | .uint32 => ["u32"]
  | .uint64 => ["u64"]
  | .bin64 => s.rt "Bin64"
  | .bin128 => s.rt "Bin128"
  | .bin256 => s.rt "Bin256"
  | .float32 => ["f32"]
  | .float64 => ["f64"]
  | .bytes => ofText "& 'a [ u8 ]"
  | .string => ofText "& 'a str"

/-- The type of a leaf, as it is read from a buffer of lifetime `'a`. -/
def leafType (s : Scope) : TypeUse → Code
  | .builtin b => s.builtinType b
  | .named _ ⟨.message, d, _⟩ => s.definitionPath d "" ++ angles ["'a"]
  | .named _ ⟨_, d, _⟩ => s.definitionPath d ""

/-- The type of lists of lists … of a leaf, as it is read from a buffer of lifetime `'a`. -/
def listedType (s : Scope) (leaf : TypeUse) : Nat → Code
  | 0 => s.leafType leaf
  | depth + 1 => s.rt "List" ++ angles ("'a" :: "," :: s.listedType leaf depth)

/-- A type as it is read from a buffer of lifetime `'a`. -/
def viewType (s : Scope) (t : Listed TypeUse) : Code := s.listedType t.leaf t.depth

/-- The result of what may fail. -/
def result (s : Scope) (type : Code) : Code := s.rt "Result" ++ angles type

/-- The head of an implementation of how values of a type are written. -/
def encodeHead (s : Scope) (type : Code) : Code := "impl" :: s.rt "Encode" ++ ["for"] ++ type

/-- The head of an implementation of how values of a type are read. -/
def decodeHead (s : Scope) (type : Code) : Code :=
  ofText "impl < 'a >" ++ s.rt "Decode" ++ angles ["'a"] ++ ["for"] ++ type

/-- The implementation of how values of a type are written: `body` writes `self` to `buf`. -/
def encoder (s : Scope) (type body : Code) : Item :=
  .implementation (s.encodeHead type)
    [.function [] [] (.plain "encode") [] [ofText "& self", ofText "buf : & mut" ++ s.rt "Buffer"]
      (s.result ["usize"]) body]

/-- The implementation of how values of a type are read: `body` reads one from the end of `b`. -/
def decoder (s : Scope) (type body : Code) : Item :=
  .implementation (s.decodeHead type)
    [.function [] [] (.plain "decode") [] [ofText "b : & 'a [ u8 ]"]
      (s.result (ofText "( Self , usize )")) body]

/-- A call that reads a value of a type. -/
def decodeCall (s : Scope) (type argument : Code) : Code :=
  angles (type ++ ["as"] ++ s.rt "Decode" ++ angles ["'a"]) ++ ["::", "decode"] ++ parens argument
    ++ ["?"]

end Scope

end Backwire.Bindings
