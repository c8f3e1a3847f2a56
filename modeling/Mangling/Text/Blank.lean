import Mangling.Text.Basic
import Mangling.Text.Ranges

/-! Blank characters, of which there are three sets for three purposes. -/

namespace Mangling

/-- All white space: the ASCII controls and separators, and the wider spaces. -/
def blankRanges : CharRanges :=
  -- Spaces without width are not white space, and are left out.
  [(0x09, 0x0D), (0x1C, 0x20), (0x85, 0x85), (0xA0, 0xA0), (0x1680, 0x1680), (0x2000, 0x200A),
   (0x2028, 0x2029), (0x202F, 0x202F), (0x205F, 0x205F), (0x3000, 0x3000)]

/-- White space of any width. -/
def isBlank (char : Char) : Bool :=
  blankRanges.has char

/-- Between the closing parenthesis and what follows it, only the space and the tab are blank. -/
def isSpaceOrTab (char : Char) : Bool :=
  char == ' ' || char == '\t'

/-- A text without its outer white space. -/
def trimBlanks (text : Text) : Text :=
  trim isBlank text

/-- A text without its outer spaces, where wider white space stays. -/
def trimSpaces (text : Text) : Text :=
  trim (· == ' ') text

end Mangling
