import Backwire.Bindings.Scope

/-!
# Bindings of enums

An enum is a 32-bit integer in a type of its own, with a constant for each value. Numbers that
have no value are kept as they are.
-/

namespace Backwire.Bindings

open Code Schema

/-- The tokens of an integer. A negative one is a minus sign and its magnitude. -/
def integerCode (n : Int) : Code :=
  if n < 0 then ["-", toString n.natAbs] else [toString n.natAbs]

/-- Lines are at most this long where a line may be broken. -/
def lineLimit : Nat := 89

/-- An arm of a match, whose value stands between braces if it does not fit on the line. -/
def matchArm (pattern value : Code) (width : Nat) : Code :=
  if lineLimit < width then pattern ++ ["=>"] ++ braced value
  else pattern ++ ["=>"] ++ value ++ [","]

/-- The arm from the number of a value to its name. -/
def nameArm (v : EnumValue) : Code :=
  let number := integerCode v.number.toInt
  let name := quoted v.name
  matchArm number ["Some", "(", name, ")"]
    (12 + (String.join number).length + " => Some()".length + name.length)

/-- The arm from the number of a value to the value. -/
def valueArm (v : EnumValue) : Code :=
  let number := integerCode v.number.toInt
  number ++ ["=>", "Some", "(", "Self"] ++ parens number ++ [")", ","]

/-- A match with arms and `None` for all else. -/
def matchOrNone (subject : Code) (arms : List Code) : Code :=
  "match" :: subject ++ braced (arms.flatten ++ ["_", "=>", "None"])

namespace Scope

/-- The bindings of an enum. -/
def enumItems (s : Scope) (name : String) (values : List EnumValue) : List Item :=
  let type := Identifier.ofName name
  let constants := values.map fun v => Identifier.ofName v.name
  let members : List Declaration :=
    (values.map fun v => .constant [] (.ofName v.name) ["Self"]
      ("Self" :: parens (integerCode v.number.toInt)))
    ++ [.constant (documented "Every declared value.") (.plain "VALUES")
          (ofText "& 'static [ Self ]")
          ("&" :: brackets (commas (constants.map fun c => ["Self", "::", c.text]))),
        .function (documented "Declared name of the value, if it has one.") ["pub", "const"]
          (.plain "name") [] [["self"]] (ofText "Option < & 'static str >")
          (matchOrNone (ofText "self . 0") (values.map nameArm)),
        .function (documented "The declared value numbered `v`.") ["pub", "const"]
          (.plain "from_int") [] [ofText "v : i32"] (ofText "Option < Self >")
          (matchOrNone ["v"] (values.map valueArm))]
  [.declaration (.wrapper
      (documented ("`" ++ name ++ "` enum; unknown numbers are preserved.")
        ++ derived ["Debug", "Clone", "Copy", "Default", "PartialEq", "Eq", "PartialOrd", "Ord",
          "Hash"]
        ++ ofText "# [ repr ( transparent ) ]")
      type ["i32"]),
    .implementation ["impl", type.text] members,
    s.encoder [type.text]
      (s.call "Encode" "encode" ++ parens (ofText "& self . 0 , buf") ++ s.runtime.valueEnd),
    s.decoder [type.text]
      (ofText "let ( v , n ) =" ++ s.decodeCall ["i32"] ["b"]
        ++ ofText "; Ok ( ( Self ( v ) , n ) )")]

end Scope

end Backwire.Bindings
