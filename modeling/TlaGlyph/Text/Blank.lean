import TlaGlyph.Text.Basic
import TlaGlyph.Text.CharRanges

namespace TlaGlyph.Text

-- The property White_Space.
def whiteSpace : CharRanges := [
  (0x0009, 0x000D), (0x0020, 0x0020), (0x0085, 0x0085), (0x00A0, 0x00A0), (0x1680, 0x1680),
  (0x2000, 0x200A), (0x2028, 0x2029), (0x202F, 0x202F), (0x205F, 0x205F), (0x3000, 0x3000)
]

def isBlank (c : Char) : Bool := whiteSpace.has c

def trimStart (text : Text) : Text := text.dropWhile isBlank

end TlaGlyph.Text
