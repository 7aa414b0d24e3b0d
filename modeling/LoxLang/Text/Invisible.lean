import LoxLang.Text.CodeRange

/-!
# Invisible characters

Characters of Unicode 17 without a mark of their own: controls, formats, line and paragraph
separators, all spaces other than U+0020, and what a display ignores by default
(Default_Ignorable_Code_Point), such as the fillers of Hangul.
-/

namespace LoxLang

/-- The code points of controls, formats, separators but the space, and ignorable characters. -/
def invisibleRanges : CodeRanges :=
  [(0x0, 0x1f), (0x7f, 0xa0), (0xad, 0xad), (0x34f, 0x34f), (0x600, 0x605), (0x61c, 0x61c),
   (0x6dd, 0x6dd), (0x70f, 0x70f), (0x890, 0x891), (0x8e2, 0x8e2), (0x115f, 0x1160),
   (0x1680, 0x1680), (0x17b4, 0x17b5), (0x180b, 0x180f), (0x2000, 0x200f), (0x2028, 0x202f),
   (0x205f, 0x206f), (0x3000, 0x3000), (0x3164, 0x3164), (0xfe00, 0xfe0f), (0xfeff, 0xfeff),
   (0xffa0, 0xffa0), (0xfff0, 0xfffb), (0x110bd, 0x110bd), (0x110cd, 0x110cd), (0x13430, 0x1343f),
   (0x1bca0, 0x1bca3), (0x1d173, 0x1d17a), (0xe0000, 0xe0fff)]

example : invisibleRanges.ascending = true := by decide +kernel

example : invisibleRanges.count = 4289 := by decide +kernel

/-- A character without a mark of its own; the space is none of them. -/
def isInvisible (character : Char) : Bool := invisibleRanges.contains character.toNat

end LoxLang
