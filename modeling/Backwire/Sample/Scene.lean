import Backwire.Wire.Builder
import Backwire.Wire.Record
import Backwire.Wire.Value

/-!
# Bindings of a sample schema

What a program works with when its schema declares

    enum Shape { UNKNOWN = 0; CIRCLE = 1; SQUARE = 2; }
    struct Pair { key uint32; value uint32; }
    struct Vec2 { x float32; y float32; }
    message Item { shape Shape 1; center Vec2 2; label string 3; }
    message Scene {
        name string 1; items []Item 2; weights []int64 3; pair Pair 4; blob bytes 5; id bin128 6;
    }

Enums and structs are values of their own. Messages are views with one reader per field, which
gives the default where the field is absent, and are built by a run of setters.
-/

namespace Backwire.Sample

open Backwire.Wire

/-! ### Enums and structs -/

/-- A shape. A number without a name is kept as it is. -/
structure Shape where
  /-- The number of the shape. -/
  number : Int32 := 0
  deriving DecidableEq, Repr

namespace Shape

/-- The declared shapes with their names. -/
def declared : List (Shape × String) := [(⟨0⟩, "UNKNOWN"), (⟨1⟩, "CIRCLE"), (⟨2⟩, "SQUARE")]

/-- Every declared shape. -/
def values : List Shape := declared.map Prod.fst

/-- The declared name of a shape. -/
def name? (s : Shape) : Option String := declared.lookup s

/-- The declared shape of a number. -/
def ofNumber? (n : Int32) : Option Shape := values.find? fun s => s.number == n

/-- Reads a shape. -/
def read : Reader Shape := fun t => do
  let (v, n) ← readInt32 t
  return (⟨v⟩, n)

end Shape

/-- Two unsigned numbers. -/
structure Pair where
  key : UInt32 := 0
  value : UInt32 := 0
  deriving DecidableEq, Repr

namespace Pair

/-- The types of the fields. -/
def type : RecordType := .datum .uint32 (.datum .uint32 .empty)

/-- The fields by their values. -/
def toRecord (p : Pair) : Record := .datum (.uint32 p.key) (.datum (.uint32 p.value) .empty)

/-- The pair with the given fields. -/
def ofRecord : Record → Pair
  | .datum (.uint32 key) (.datum (.uint32 value) .empty) => ⟨key, value⟩
  | _ => {}

/-- Reads a pair. -/
def read : Reader Pair := fun t => do
  let (r, n) ← type.read t
  return (ofRecord r, n)

@[simp] theorem ofRecord_toRecord (p : Pair) : ofRecord p.toRecord = p := rfl

@[simp] theorem type_toRecord (p : Pair) : p.toRecord.type = type := rfl

end Pair

/-- A point of the plane. -/
structure Vec2 where
  x : Binary32 := ⟨0⟩
  y : Binary32 := ⟨0⟩
  deriving DecidableEq, Repr

namespace Vec2

/-- The types of the fields. -/
def type : RecordType := .datum .float32 (.datum .float32 .empty)

/-- The fields by their values. -/
def toRecord (v : Vec2) : Record := .datum (.float32 v.x) (.datum (.float32 v.y) .empty)

/-- The point with the given fields. -/
def ofRecord : Record → Vec2
  | .datum (.float32 x) (.datum (.float32 y) .empty) => ⟨x, y⟩
  | _ => {}

/-- Reads a point. -/
def read : Reader Vec2 := fun t => do
  let (r, n) ← type.read t
  return (ofRecord r, n)

@[simp] theorem ofRecord_toRecord (v : Vec2) : ofRecord v.toRecord = v := rfl

@[simp] theorem type_toRecord (v : Vec2) : v.toRecord.type = type := rfl

end Vec2

/-! ### Views -/

/-- An item: a message of which three fields are known. -/
structure Item where
  /-- The message. -/
  message : MessageView := {}

namespace Item

/-- Reads an item. -/
def read : Reader Item := fun t => do
  let (m, n) ← readMessage t
  return (⟨m⟩, n)

/-- Whether the item has a shape. -/
def hasShape (i : Item) : Bool := i.message.has 1

/-- Whether the item has a center. -/
def hasCenter (i : Item) : Bool := i.message.has 2

/-- Whether the item has a label. -/
def hasLabel (i : Item) : Bool := i.message.has 3

/-- The shape of the item. -/
def shape (i : Item) : Except WireError Shape := i.message.readOr Shape.read {} 1

/-- The center of the item. -/
def center (i : Item) : Except WireError Vec2 := i.message.readOr Vec2.read {} 2

/-- The label of the item. -/
def label (i : Item) : Except WireError String := i.message.readOr readString "" 3

end Item

/-- A scene: a message of which six fields are known. -/
structure Scene where
  /-- The message. -/
  message : MessageView := {}

namespace Scene

/-- Reads a scene. -/
def read : Reader Scene := fun t => do
  let (m, n) ← readMessage t
  return (⟨m⟩, n)

/-- Whether the scene has a name. -/
def hasName (s : Scene) : Bool := s.message.has 1

/-- Whether the scene has items. -/
def hasItems (s : Scene) : Bool := s.message.has 2

/-- Whether the scene has weights. -/
def hasWeights (s : Scene) : Bool := s.message.has 3

/-- Whether the scene has a pair. -/
def hasPair (s : Scene) : Bool := s.message.has 4

/-- Whether the scene has bytes. -/
def hasBlob (s : Scene) : Bool := s.message.has 5

/-- Whether the scene has an identifier. -/
def hasId (s : Scene) : Bool := s.message.has 6

/-- The name of the scene. -/
def name (s : Scene) : Except WireError String := s.message.readOr readString "" 1

/-- The items of the scene. -/
def items (s : Scene) : Except WireError ListView := s.message.readOr readList {} 2

/-- The weights of the scene. -/
def weights (s : Scene) : Except WireError ListView := s.message.readOr readList {} 3

/-- The pair of the scene. -/
def pair (s : Scene) : Except WireError Pair := s.message.readOr Pair.read {} 4

/-- The bytes of the scene. -/
def blob (s : Scene) : Except WireError (List UInt8) := s.message.readOr readBytes [] 5

/-- The identifier of the scene. -/
def id (s : Scene) : Except WireError (Bin 16) :=
  s.message.readOr (readBin 16 .bin128 .bin128) (Bin.zero 16) 6

end Scene

/-! ### Building -/

/-- What a setter writes: a value of a builtin type or a struct. -/
inductive Cell where
  | datum (d : Datum)
  | record (r : Record)

/-- Writes what a setter is given. -/
def Cell.write : Cell → Writer Nat
  | datum d => d.write
  | record r => r.write

/-- A setter of an item. -/
inductive ItemField where
  | shape (s : Shape)
  | center (v : Vec2)
  | label (s : String)

/-- The tag and the value a setter writes. -/
def ItemField.cell : ItemField → UInt16 × Cell
  | shape s => (1, .datum (.int32 s.number))
  | center v => (2, .record v.toRecord)
  | label s => (3, .datum (.string s))

/-- The run of an item's setters. -/
def Item.build : List ItemField → Run Cell .message
  | [] => .finish
  | field :: rest => .write field.cell.1 [field.cell.2] (Item.build rest)

/-- A setter of a scene. -/
inductive SceneField where
  | name (s : String)
  | items (items : List (List ItemField))
  | weights (weights : List Int64)
  | pair (p : Pair)
  | blob (b : List UInt8)
  | id (v : Bin 16)

/-- The run that writes the items of a scene. -/
def Scene.buildItems : List (List ItemField) → Run Cell .list
  | [] => .finish
  | item :: rest => .nest () (Item.build item) (Scene.buildItems rest)

/-- The run that writes the weights of a scene. -/
def Scene.buildWeights : List Int64 → Run Cell .list
  | [] => .finish
  | w :: rest => .write () [.datum (.int64 w)] (Scene.buildWeights rest)

/-- The run of a scene's setters. -/
def Scene.build : List SceneField → Run Cell .message
  | [] => .finish
  | .name s :: rest => .write 1 [.datum (.string s)] (Scene.build rest)
  | .items items :: rest => .nest 2 (Scene.buildItems items) (Scene.build rest)
  | .weights weights :: rest => .nest 3 (Scene.buildWeights weights) (Scene.build rest)
  | .pair p :: rest => .write 4 [.record p.toRecord] (Scene.build rest)
  | .blob b :: rest => .write 5 [.datum (.bytes b)] (Scene.build rest)
  | .id v :: rest => .write 6 [.datum (.bin128 v)] (Scene.build rest)

end Backwire.Sample
