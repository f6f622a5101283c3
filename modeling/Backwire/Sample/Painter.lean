/-!
# The catalog of a sample service

What a program knows of the service

    service Painter { Paint(scene Scene, fast bool) (frames uint32); }
-/

namespace Backwire.Sample

/-- A method with its arguments and results, each by name and type. -/
structure Method where
  name : String
  args : List (String × String)
  results : List (String × String)
  deriving DecidableEq, Repr

namespace Painter

/-- The name of the service. -/
def name : String := "Painter"

/-- Every method of the service. -/
def methods : List Method :=
  [⟨"Paint", [("scene", "Scene"), ("fast", "bool")], [("frames", "uint32")]⟩]

/-- The method of a name, if there is one. -/
def method? (name : String) : Option Method := methods.find? fun m => m.name == name

end Painter

end Backwire.Sample
