import Routing.Text.Ranges

/-!
# Blank characters

The characters with the property *White_Space*: what trimming removes, what makes a text blank, and
what an extended expression skips. Beside the ASCII blanks there are a dozen and a half others.
-/

namespace Routing

/-- The ranges of the property *White_Space*. -/
def blankRanges : CharRanges :=
  [(0x9, 0xD), (0x20, 0x20), (0x85, 0x85), (0xA0, 0xA0), (0x1680, 0x1680), (0x2000, 0x200A),
   (0x2028, 0x2029), (0x202F, 0x202F), (0x205F, 0x205F), (0x3000, 0x3000)]

theorem ascending_blankRanges : blankRanges.Ascending :=
  (CharRanges.isAscending_iff _).1 (by decide +kernel)

def isBlank (c : Char) : Bool :=
  blankRanges.mem c

/-- The text without the blank characters at both ends. -/
def Text.trimBlank (s : Text) : Text :=
  s.trim isBlank

end Routing
