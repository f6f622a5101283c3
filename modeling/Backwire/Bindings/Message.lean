import Backwire.Bindings.Scope

/-!
# Bindings of messages

A message has a view, with a constant for the tag of each field and functions that tell whether
the field is present and read it, and a builder. The builder sets a field at once or, for
messages and lists, begins a builder for the value of the field.
-/

namespace Backwire.Bindings

open Code Package Schema

namespace Scope

/-- The form in which a value that is no list is handed over to be written, if it is written at
once: its type, and what stands before it where a reference is needed. -/
def argument? (s : Scope) : TypeUse → Option (Code × Code)
  | .builtin .bytes => some (ofText "& [ u8 ]", [])
  | .builtin .string => some (ofText "& str", [])
  | .builtin b => some (s.builtinType b, ["&"])
  | .named _ ⟨.enum, d, _⟩ => some (s.definitionPath d "", ["&"])
  | .named _ ⟨.struct, d, _⟩ => some ("&" :: s.definitionPath d "", [])
  | .named _ ⟨.message, _, _⟩ => none

/-- The result of a function of a builder that sets a field. -/
def chained (s : Scope) : Code := s.result (ofText "& mut Self")

/-- The functions of a view that belong to a field. -/
def getters (s : Scope) (f : Field TypeUse UInt16) : List Declaration :=
  let tag := (Identifier.tag f.name).text
  let type := s.viewType f.type
  [.function [] ["pub"] (.led "has_" f.name) [] [ofText "& self"] ["bool"]
      (ofText "self . msg . has" ++ parens ["Self", "::", tag]),
    .function [] ["pub"] (.ofField f.name) [] [ofText "& self"] (s.result type)
      (ofText "self . msg . try_get ::" ++ angles type ++ parens ["Self", "::", tag]
        ++ ofText ". map ( Option :: unwrap_or_default )")]

/-- The function of a builder that sets a field to a value. -/
def setValue (s : Scope) (field : String) (tag type reference : Code) : Declaration :=
  .function [] ["pub"] (.led "set_" field) [] [ofText "& mut self", "v" :: ":" :: type] s.chained
    (ofText "self . w . field" ++ parens (tag ++ [","] ++ reference ++ ["v"])
      ++ ofText "? ; Ok ( self )")

/-- The function of a builder that sets a field to a list of values. -/
def setList (s : Scope) (field : String) (tag type reference : Code) : Declaration :=
  .function [] ["pub"] (.led "set_" field) []
    [ofText "& mut self", ofText "items : &" ++ brackets type] s.chained
    (ofText "let mut list = self . w . list" ++ parens tag ++ ofText "; for & item in items"
      ++ braced (ofText "list . element" ++ parens (reference ++ ["item"]) ++ ["?", ";"])
      ++ ofText "list . end ( ) ? ; Ok ( self )")

/-- The function of a builder that begins a list in a field. -/
def beginList (s : Scope) (field : String) (tag : Code) : Declaration :=
  .function [] ["pub"] (.led "begin_" field) [] [ofText "& mut self"]
    (s.rt "ListWriter" ++ angles ["'_"]) (ofText "self . w . list" ++ parens tag)

/-- The function of a builder that begins a message in a field. -/
def beginMessage (s : Scope) (field : String) (tag : Code) (d : DefinitionId) : Declaration :=
  .function [] ["pub"] (.led "begin_" field) [] [ofText "& mut self"]
    (s.definitionPath d "Writer" ++ angles ["'_"])
    (s.definitionCode ModulePath.valueCode d "Writer" ++ ["::", "from_writer"]
      ++ parens (ofText "self . w . message" ++ parens tag)
      ++ s.definitionEnd d)

/-- The functions of the builder of the message `owner` that belong to a field. -/
def setters (s : Scope) (owner : Identifier) (f : Field TypeUse UInt16) : List Declaration :=
  let tag : Code := [owner.text, "::", (Identifier.tag f.name).text]
  match f.type with
  | ⟨0, .named _ ⟨.message, d, _⟩⟩ => [s.beginMessage f.name tag d]
  | ⟨0, leaf⟩ =>
    match s.argument? leaf with
    | some (type, reference) => [s.setValue f.name tag type reference]
    | none => []
  | ⟨1, leaf⟩ =>
    match s.argument? leaf with
    | some (type, reference) =>
      [s.beginList f.name tag, s.setList f.name tag type reference]
    | none => [s.beginList f.name tag]
  | ⟨_ + 2, _⟩ => [s.beginList f.name tag]

/-- The bindings of a message. -/
def messageItems (s : Scope) (name : String) (fields : List (Field TypeUse UInt16)) : List Item :=
  let type := Identifier.ofName name
  let writer := type.writer
  let view : Code := type.text :: angles ["'a"]
  let builder : Code := writer.text :: angles ["'b"]
  let tags : List Declaration := fields.map fun f =>
    .constant [] (.tag f.name) ["u16"] [toString f.tag.toNat ++ "u16"]
  [.declaration (.record
      (documented ("Read-only view of a `" ++ name ++ "` message.")
        ++ derived ["Debug", "Clone", "Copy", "Default", "PartialEq"])
      type (angles ["'a"]) [⟨false, .plain "msg", s.rt "Message" ++ angles ["'a"]⟩]),
    .implementation (ofText "impl < 'a >" ++ view)
      (tags
      ++ [.function (documented "Views the message at the tail of `b`.") ["pub"]
            (.plain "from_bytes") [] [ofText "b : & 'a [ u8 ]"]
            (s.result (ofText "( Self , usize )"))
            (ofText "let ( msg , n ) =" ++ s.call "Message" "new" ++ ofText "( b ) ? ;"
              ++ "Ok" :: parens (parens ("Self" :: braced ["msg"] ++ [",", "n"]))),
          .function (documented "The untyped view.") ["pub"] (.plain "as_message") []
            [ofText "& self"] (s.rt "Message" ++ angles ["'a"]) (ofText "self . msg")]
      ++ fields.flatMap s.getters),
    s.decoder view (ofText "Self :: from_bytes ( b )"),
    .declaration (.record
      (documented ("Builds a `" ++ name ++ "` message.") ++ derived ["Debug"])
      writer (angles ["'b"]) [⟨false, .plain "w", s.rt "MessageWriter" ++ angles ["'b"]⟩]),
    .implementation (ofText "impl < 'b >" ++ builder)
      ([.function (documented "Starts a message at the end of `buf`.") ["pub"] (.plain "new") []
          [ofText "buf : & 'b mut" ++ s.rt "Buffer"] ["Self"]
          ("Self" :: braced (ofText "w :" ++ s.call "MessageWriter" "new" ++ ofText "( buf )")),
        .function (documented "Wraps a nested message builder.") ["pub"] (.plain "from_writer") []
          [ofText "w :" ++ s.rt "MessageWriter" ++ angles ["'b"]] ["Self"]
          ("Self" :: braced ["w"])]
      ++ fields.flatMap (s.setters type)
      ++ [.function (documented "Appends the table and trailer. Returns the encoded size.")
            ["pub"] (.plain "end") [] [["self"]] (s.result ["usize"])
            (ofText "self . w . end ( )")])]

end Scope

end Backwire.Bindings
