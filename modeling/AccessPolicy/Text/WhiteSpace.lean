import AccessPolicy.Text.Ranges

/-!
# White space

The characters with the property White_Space: tab to carriage return, the space, and the blanks and
line separators of all scripts.
-/

namespace AccessPolicy.Text

/-- The code points of white space. -/
def whiteSpaceRanges : Ranges :=
  [(0x9, 0xd), (0x20, 0x20), (0x85, 0x85), (0xa0, 0xa0), (0x1680, 0x1680), (0x2000, 0x200a),
   (0x2028, 0x2029), (0x202f, 0x202f), (0x205f, 0x205f), (0x3000, 0x3000)]

/-- White space. -/
def isWhiteSpace (c : Char) : Bool := whiteSpaceRanges.contains c

end AccessPolicy.Text
