import Backwire.Bindings.Code
import Backwire.Package.Model

/-!
# Bindings of services

A service is a module that lists its methods: a constant for the name of each, and a table with
their parameters and results.
-/

namespace Backwire.Bindings

open Code Package Schema

/-- The code of a table of parameters. -/
def parametersCode (ps : List (Parameter TypeUse)) : Code :=
  "&" :: brackets (commas (ps.map fun p =>
    "Param" :: braced (["name", ":", quoted p.name, ",", "type_name", ":",
      quoted (TypeUse.listedText p.type)])))

/-- The code of an entry of the table of methods. -/
def methodCode (m : Method TypeUse) : Code :=
  "Method" :: braced (commas [["name", ":", quoted m.name], "args" :: ":" :: parametersCode m.args,
    "results" :: ":" :: parametersCode m.results])

/-- The bindings of a service. -/
def serviceItems (name : String) (methods : List (Method TypeUse)) : List Item :=
  let derives := derived ["Debug", "Clone", "Copy", "PartialEq", "Eq"]
  let static := fun (field : String) (type : String) =>
    (⟨true, .plain field, "&" :: "'static" :: ofText type⟩ : FieldDeclaration)
  [.nested (documented ("Method catalog of the `" ++ name ++ "` service.")) (.ofField name)
    ([.record (documented "Method argument or result." ++ derives) (.plain "Param") []
        [static "name" "str", static "type_name" "str"],
      .record (documented "Method metadata." ++ derives) (.plain "Method") []
        [static "name" "str", static "args" "[ Param ]", static "results" "[ Param ]"],
      .constant [] (.plain "NAME") (ofText "& str") [quoted name]]
    ++ methods.map (fun m => .constant [] (.constant m.name) (ofText "& str") [quoted m.name])
    ++ [.constant [] (.plain "METHODS") (ofText "& [ Method ]")
          ("&" :: brackets (commas (methods.map methodCode))),
        .function [] ["pub"] (.plain "method") [] [ofText "name : & str"]
          (ofText "Option < & 'static Method >")
          (ofText "METHODS . iter ( ) . find ( | m | m . name == name )")])]

end Backwire.Bindings
