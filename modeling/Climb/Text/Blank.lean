import Climb.Text.Ranges

/-! Characters that separate tokens. -/

namespace Climb

/-- Code points of the white space, in ascending order. -/
def blankRanges : List (Nat × Nat) := [
    (0x9, 0xd), (0x1c, 0x20), (0x85, 0x85), (0xa0, 0xa0), (0x1680, 0x1680), (0x2000, 0x200a),
    (0x2028, 0x2029), (0x202f, 0x202f), (0x205f, 0x205f), (0x3000, 0x3000)]

/-- Whether a character is white space, including the four separator controls. -/
def isBlank (c : Char) : Bool :=
  inRanges blankRanges c.toNat

end Climb
