import IocDb.Text.Ranges

/-!
# Blanks and control characters

The two Unicode properties that no name may contain.

* `isBlank`: the property `White_Space`.
* `isControl`: the general category `Cc`.
-/

namespace IocDb

/-- The ranges of `White_Space`. -/
def blankRanges : Ranges :=
  [(0x9, 0xd), (0x20, 0x20), (0x85, 0x85), (0xa0, 0xa0), (0x1680, 0x1680), (0x2000, 0x200a),
   (0x2028, 0x2029), (0x202f, 0x202f), (0x205f, 0x205f), (0x3000, 0x3000)]

/-- White space, in any script. -/
def isBlank (c : Char) : Bool := blankRanges.contains c

/-- A control character: `C0`, delete or `C1`. -/
def isControl (c : Char) : Bool := Ranges.contains [(0x0, 0x1f), (0x7f, 0x9f)] c

end IocDb
