import Backwire.Bindings.Scope

/-!
# Bindings of structs

A struct is written as its fields in the order of their declaration, and a trailer. Reading
starts from the trailer, so it goes through the fields backwards and takes from the end of the
body what each of them has used.
-/

namespace Backwire.Bindings

open Code Package Schema

namespace Scope

/-- The code that reads a field off the end of `__rest`. The first field of the struct is the
last to be read, and nothing is read after it. -/
def decodeStep (s : Scope) (f : Identifier × Code) (isFirst : Bool) : Code :=
  let read := s.decodeCall f.2 ["__rest"] ++ [";"]
  if isFirst then
    "let" :: parens [f.1.text, ",", "_"] ++ ["="] ++ read
  else
    "let" :: parens [f.1.text, ",", "__used"] ++ ["="] ++ read
      ++ ofText "__rest = & __rest [ .. __rest . len ( ) - __used ] ;"

/-- The code that reads fields in the reverse of their order. -/
def decodeSteps (s : Scope) : List (Identifier × Code) → Code
  | [] => []
  | f :: fs => (fs.reverse.map fun g => s.decodeStep g false).flatten ++ s.decodeStep f true

/-- The code that begins to read the body of a struct of so many fields. -/
def decodeStart : Nat → Code
  | 0 => ofText "let _ = __body ;"
  | 1 => ofText "let __rest = __body ;"
  | _ => ofText "let mut __rest = __body ;"

/-- The bindings of a struct. -/
def structItems (s : Scope) (name : String) (parameters : List (Parameter TypeUse)) : List Item :=
  let type := Identifier.ofName name
  let encode := Identifier.led "encode_" name
  let decode := Identifier.led "decode_" name
  let fields := parameters.map fun p => (Identifier.ofField p.name, s.viewType p.type)
  let writeFields := fields.map fun f =>
    s.call "Encode" "encode" ++ parens ["&", "v", ".", f.1.text, ",", "buf"] ++ ["?", ";"]
  [.declaration (.record
      (documented ("`" ++ name ++ "` struct, encoded as a fixed sequence of values.")
        ++ derived ["Clone", "Copy", "Debug", "Default", "PartialEq"])
      type [] (fields.map fun f => ⟨true, f.1, f.2⟩)),
    .declaration (.function
      (documented ("Encodes a `" ++ name ++ "`; fields are written in declaration order."))
      ["pub"] encode [] [ofText "buf : & mut" ++ s.rt "Buffer", ["v", ":", "&", type.text]]
      (s.result ["usize"])
      (ofText "let start = buf . len ( ) ;" ++ writeFields.flatten
        ++ ofText "let data_size = buf . len ( ) - start ; Ok ( data_size +"
        ++ s.call "encode" "encode_struct" ++ ofText "( buf , data_size ) ? )")),
    .declaration (.function
      (documented ("Decodes the `" ++ name ++ "` at the tail of `b`."))
      ["pub"] decode (angles ["'a"]) [ofText "b : & 'a [ u8 ]"]
      (s.result (parens [type.text, ",", "usize"]))
      (ofText "let ( __body , __n ) =" ++ s.call "decode" "decode_struct" ++ ofText "( b ) ? ;"
        ++ decodeStart fields.length ++ s.decodeSteps fields
        ++ "Ok" :: parens (parens (type.text :: braced (commas (fields.map fun f => [f.1.text]))
          ++ [",", "__n"]))) ),
    s.encoder [type.text] [encode.text, "(", "buf", ",", "self", ")"],
    s.decoder [type.text] [decode.text, "(", "b", ")"]]

end Scope

end Backwire.Bindings
