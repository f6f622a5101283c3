import Backwire.Text.CodePoints

/-!
# Blank characters

The characters with the Unicode property `White_Space`: what may stand between two words of a
text without being part of either.
-/

namespace Backwire.Text

/-- The code points of the property `White_Space`. -/
def blanks : Ranges := [
  (0x9, 0xd), (0x20, 0x20), (0x85, 0x85), (0xa0, 0xa0), (0x1680, 0x1680), (0x2000, 0x200a),
  (0x2028, 0x2029), (0x202f, 0x202f), (0x205f, 0x205f), (0x3000, 0x3000)]

/-- Whether a character is blank. -/
def isBlank (c : Char) : Bool := blanks.has c.toNat

end Backwire.Text
